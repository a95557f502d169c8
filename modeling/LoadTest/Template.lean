import LoadTest.Test

/-!
Templates: blocks to copy from.  Every copy is made of blocks with ids of their own.
-/

namespace LoadTest
namespace Block

mutual

/-- The block with a fresh id for itself and for everything below it. -/
def refresh (b : Block) : Fresh Block := do
  match b with
  | scenario _ name e s =>
    return scenario (← Supply.draw) name (← refreshSlot e) (← refreshSlot s)
  | group _ name s n => return group (← Supply.draw) name (← refreshSlot s) (← refreshSlot n)
  | request _ r n => return request (← Supply.draw) r (← refreshSlot n)
  | library _ c n => return library (← Supply.draw) c (← refreshSlot n)
  | check _ es t n =>
    let id ← Supply.draw
    let n ← refreshSlot n
    let t ← refreshSlot t
    return check id es t n
  | executor _ shape => return executor (← Supply.draw) shape
  | sleep _ x n => return sleep (← Supply.draw) x (← refreshSlot n)

def refreshSlot (c : Option Block) : Fresh (Option Block) := do
  match c with
  | none => return none
  | some b => return some (← b.refresh)

end

end Block

/-- A block that is never part of a test itself. -/
structure Template where
  block : Block

namespace Template

def id (t : Template) : BlockId :=
  t.block.id

/-- A copy with fresh ids. -/
def instantiate (t : Template) : Fresh Block :=
  t.block.refresh

end Template

/-- What is being dragged: a template, or a block that may be part of the test. -/
inductive Dropped where
  | template (t : Template)
  | block (b : Block)

namespace Dropped

def id : Dropped → BlockId
  | template t => t.id
  | block b => b.id

def kind : Dropped → Kind
  | template t => t.block.kind
  | block b => b.kind

def instantiate : Dropped → Fresh Block
  | template t => t.instantiate
  | block b => return b

end Dropped
end LoadTest

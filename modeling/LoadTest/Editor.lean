import LoadTest.Block.Concat
import LoadTest.Template

/-!
Editing a test.

An edit that names a block by its id expects that at most one block has it, and faults if not.
`attach` does not check what it is asked for; `canAttach` says beforehand whether the slot accepts
the block and no block would end up below itself.
-/

namespace LoadTest

/-- An edit that may draw ids and may fault. -/
abbrev Edit := StateT Supply (Except Fault)

namespace Test

/-! ## Finding -/

/-- How many blocks have the id. -/
def occurrences (t : Test) (id : BlockId) : Nat :=
  t.blocks.countP (·.id == id)

/-- The block with the id. -/
def find? (t : Test) (id : BlockId) : Except Fault (Option Block) :=
  if t.occurrences id ≤ 1 then .ok (t.blocks.find? (·.id == id)) else .error (.sharedId id)

/-- `candidate` is `ancestor` or sits somewhere below it. -/
def isDescendant (t : Test) (candidate ancestor : BlockId) : Except Fault Bool := do
  match ← t.find? ancestor with
  | some b => return b.contains candidate
  | none => return false

/-- The ids that more than one block has, in order. -/
def duplicateIds (t : Test) : List BlockId :=
  ((Dict.ofList (t.blocks.map fun b => (b.id, ()))).keys).filter fun id => 1 < t.occurrences id

/-! ## Taking out and putting in -/

/-- Take every block with the id out, and keep the last. -/
def takeStep (id : BlockId) (b : Block) : StateM (Option Block) Rewrite := do
  if b.id = id then
    set (some b)
    return .replace none
  else return .descend

/-- The test without the block with the id, and that block. -/
def take (t : Test) (id : BlockId) : Test × Option Block :=
  (t.rewrite (takeStep id)).run none

/-- The test without the block with the id. -/
def detach (t : Test) (id : BlockId) : Test :=
  (t.take id).1

def replaceStep (id : BlockId) (replacement b : Block) : StateM Unit Rewrite :=
  return if b.id = id then .replace (some replacement) else .descend

/-- Put `replacement` where the block with the id is. -/
def replace (t : Test) (id : BlockId) (replacement : Block) : Test :=
  ((t.rewrite (replaceStep id replacement)).run ()).1

/-- Put an edited block back in its place. -/
def update (t : Test) (b : Block) : Test :=
  t.replace b.id b

/-- The state counts the uses of `f`, which is used once. -/
def modifyStep (id : BlockId) (f : Block → Block) (b : Block) : StateM Nat Rewrite := do
  if b.id = id ∧ (← get) = 0 then
    set 1
    return .replace (some (f b))
  else return .descend

/-- Apply `f` to the first block with the id; also how often it was applied. -/
def modify (t : Test) (id : BlockId) (f : Block → Block) : Test × Nat :=
  (t.rewrite (modifyStep id f)).run 0

/-! ## Dropping -/

/-- Take a dropped block out of the test, which may hold a newer copy of it; a template is copied
and leaves the test as it is. -/
def detachDropped (t : Test) : Dropped → Fresh (Test × Block)
  | .template d => return (t, ← d.instantiate)
  | .block b =>
    let (t, taken) := t.take b.id
    return (t, taken.getD b)

/-- Whether `dropped` may go into a slot of `owner`. -/
def canAttach (t : Test) (owner : BlockId) (slot : Slot) (dropped : Dropped) :
    Except Fault Bool := do
  match ← t.find? owner with
  | none => return false
  | some o =>
    if o.kind.hasSlot slot && slot.accepts dropped.kind then
      match dropped with
      | .template _ => return true
      | .block b =>
        let current := (← t.find? b.id).getD b
        return !current.contains owner
    else return false

/-- Put `b` into a slot of `o`.  A chain slot keeps what it holds behind the chain of `b`; another
slot gives it up. -/
def putInto (o : Block) (slot : Slot) (b : Block) : Except Fault Block :=
  if o.kind.hasSlot slot then
    match o.child? slot with
    | some existing =>
      if slot.isChain then do return o.withChild slot (← b.concat existing)
      else return o.withChild slot b
    | none => return o.withChild slot b
  else return o

/-- Drop onto a slot.  Nothing changes if the slot holds that block already, and the test stays
without it if its owner was part of it. -/
def attach (t : Test) (owner : BlockId) (slot : Slot) (dropped : Dropped) : Edit Test := do
  match ← t.find? owner with
  | none => return t
  | some o =>
    if (o.child? slot).map Block.id = some dropped.id then return t
    else
      let (t, b) ← modifyGet (t.detachDropped dropped).run
      match ← t.find? owner with
      | none => return t
      | some o => return t.update (← putInto o slot b)

/-- Drop onto the `step` slot of a scenario or a group. -/
def insertChild (t : Test) (owner : BlockId) (dropped : Dropped) : Edit Test :=
  t.attach owner .step dropped

/-- Drop onto the `next` slot of a block of a chain. -/
def insertNext (t : Test) (owner : BlockId) (dropped : Dropped) : Edit Test :=
  t.attach owner .next dropped

/-- The roots with the first that holds the block moved, if one does. -/
def moveRoot? (id : BlockId) (p : Position) : List Root → Option (List Root)
  | [] => none
  | r :: rs =>
    if r.block.id = id then some ({ r with position := p } :: rs)
    else (moveRoot? id p rs).map (r :: ·)

/-- The block is taken from where it is and becomes the last root. -/
def placeDropped (t : Test) (dropped : Dropped) (p : Position) : Fresh Test := do
  let (t, b) ← t.detachDropped dropped
  return t.placeAt b p

/-- Drop on the canvas.  A block that is a root already is only moved. -/
def dropOnCanvas (t : Test) (dropped : Dropped) (p : Position) : Fresh Test :=
  match dropped with
  | .template _ => t.placeDropped dropped p
  | .block b =>
    match moveRoot? b.id p t.roots with
    | some roots => return { t with roots }
    | none => t.placeDropped dropped p

end Test
end LoadTest

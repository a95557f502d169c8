import LoadTest.Block.Basic

/-!
Walking a tree of blocks: the block itself, then what its slots hold, in visit order.

`walk` lists the blocks; `visit` runs through them with a state and may stop.  `visit_eq_foldlM`
says that they agree: a visit is the fold over the list, so it stops at the same block.
-/

namespace LoadTest
namespace Block

variable {σ β : Type}

mutual

/-- The block and everything below it, in the order of a walk. -/
def walk : Block → List Block
  | b@(scenario _ _ e s) => b :: (walkSlot e ++ walkSlot s)
  | b@(group _ _ s n) => b :: (walkSlot s ++ walkSlot n)
  | b@(request _ _ n) => b :: walkSlot n
  | b@(library _ _ n) => b :: walkSlot n
  | b@(check _ _ t n) => b :: (walkSlot n ++ walkSlot t)
  | b@(executor _ _) => [b]
  | b@(sleep _ _ n) => b :: walkSlot n

def walkSlot : Option Block → List Block
  | none => []
  | some b => b.walk

end

mutual

/-- Visit the block and everything below it.  A visit that ends in an error has stopped there. -/
def visit (f : σ → Block → Except β σ) (x : σ) : Block → Except β σ
  | b@(scenario _ _ e s) => do visitSlot f (← visitSlot f (← f x b) e) s
  | b@(group _ _ s n) => do visitSlot f (← visitSlot f (← f x b) s) n
  | b@(request _ _ n) => do visitSlot f (← f x b) n
  | b@(library _ _ n) => do visitSlot f (← f x b) n
  | b@(check _ _ t n) => do visitSlot f (← visitSlot f (← f x b) n) t
  | b@(executor _ _) => f x b
  | b@(sleep _ _ n) => do visitSlot f (← f x b) n

def visitSlot (f : σ → Block → Except β σ) (x : σ) : Option Block → Except β σ
  | none => .ok x
  | some b => b.visit f x

end

theorem flatMap_filterMap_walk (l : List (Slot × Option Block)) :
    (l.filterMap fun (s, c) => c.map (s, ·)).flatMap (fun c => c.2.walk)
      = l.flatMap fun c => walkSlot c.2 := by
  induction l with
  | nil => rfl
  | cons e l ih =>
    obtain ⟨s, _ | c⟩ := e
    · simpa [walkSlot] using ih
    · simp [walkSlot, ih]

/-- One step of a walk. -/
theorem walk_eq (b : Block) : b.walk = b :: b.children.flatMap fun c => c.2.walk := by
  rw [children, flatMap_filterMap_walk]
  cases b <;> simp [walk, slots, kind, Kind.slots, child?]

theorem mem_walk_self (b : Block) : b ∈ b.walk := by
  rw [walk_eq]
  exact List.mem_cons_self

mutual

theorem visit_eq_foldlM (f : σ → Block → Except β σ) (x : σ) :
    ∀ b : Block, b.visit f x = b.walk.foldlM f x
  | scenario .. | group .. | request .. | library .. | check .. | executor .. | sleep .. => by
    simp [visit, walk, visitSlot_eq_foldlM]

theorem visitSlot_eq_foldlM (f : σ → Block → Except β σ) (x : σ) :
    ∀ c : Option Block, visitSlot f x c = (walkSlot c).foldlM f x
  | none => rfl
  | some b => visit_eq_foldlM f x b

end

/-- A block with the id is the block or sits somewhere below it. -/
def contains (b : Block) (id : BlockId) : Bool :=
  b.walk.any (·.id == id)

theorem contains_iff {b : Block} {id : BlockId} :
    b.contains id = true ↔ ∃ c ∈ b.walk, c.id = id := by
  simp [contains]

end Block
end LoadTest

import LoadTest.Block.Walk

/-!
Rewriting the slots of a tree from the top.

A rewrite decides for each block that it meets in a slot: keep it and look inside, or put
something else in the slot and not look inside that.  It carries a state, so that a rewrite may
depend on what it has met before.
-/

namespace LoadTest

/-- What becomes of a block found in a slot. -/
inductive Rewrite where
  /-- Keep the block and go on inside it. -/
  | descend
  /-- Put this in the slot, or empty it. -/
  | replace (b : Option Block)

namespace Block

variable {σ : Type}

mutual

/-- Rewrite every occupied slot below the block. -/
def rewrite (f : Block → StateM σ Rewrite) : Block → StateM σ Block
  | scenario id name e s => do
    let e ← rewriteSlot f e
    let s ← rewriteSlot f s
    return scenario id name e s
  | group id name s n => do
    let s ← rewriteSlot f s
    let n ← rewriteSlot f n
    return group id name s n
  | request id r n => do return request id r (← rewriteSlot f n)
  | library id call n => do return library id call (← rewriteSlot f n)
  | check id es t n => do
    let n ← rewriteSlot f n
    let t ← rewriteSlot f t
    return check id es t n
  | executor id shape => return executor id shape
  | sleep id x n => do return sleep id x (← rewriteSlot f n)

def rewriteSlot (f : Block → StateM σ Rewrite) : Option Block → StateM σ (Option Block)
  | none => return none
  | some b => do
    match ← f b with
    | .replace c => return c
    | .descend => return some (← b.rewrite f)

end

mutual

/-- A rewrite that always descends changes nothing. -/
theorem rewrite_descend : ∀ b : Block,
    b.rewrite (fun _ => (pure .descend : StateM σ Rewrite)) = pure b
  | scenario .. | group .. | request .. | library .. | check .. | executor .. | sleep .. => by
    simp [rewrite, rewriteSlot_descend]

theorem rewriteSlot_descend : ∀ c : Option Block,
    rewriteSlot (fun _ => (pure .descend : StateM σ Rewrite)) c = pure c
  | none => rfl
  | some b => by simp [rewriteSlot, rewrite_descend b]

end

end Block
end LoadTest

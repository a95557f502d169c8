import LoadTest.Block.Concat
import LoadTest.Proofs.Block.Trail

/-!
Chains of blocks, from `next` slot to `next` slot.

A chain of steps ends in an open `next` slot, and joining a second chain to it fills that slot.
-/

namespace LoadTest
namespace Block

mutual

/-- The blocks of the chain that starts with a block, in order. -/
def spine : Block → List Block
  | b@(group _ _ _ n) | b@(request _ _ n) | b@(library _ _ n) | b@(check _ _ _ n)
  | b@(sleep _ _ n) => b :: spineSlot n
  | b@(scenario ..) | b@(executor ..) => [b]

/-- The chain that starts in a slot. -/
def spineSlot : Option Block → List Block
  | none => []
  | some b => b.spine

end

theorem spine_eq (b : Block) : b.spine = b :: spineSlot (b.child? .next) := by
  cases b <;> simp [spine, child?, spineSlot]

theorem mem_walk_of_mem_spine {b x : Block} (h : x ∈ b.spine) : x ∈ b.walk := by
  induction b using childInduction with
  | step b ih =>
    rw [spine_eq, List.mem_cons] at h
    rcases h with rfl | h
    · exact mem_walk_self x
    · cases hc : b.child? .next with
      | none =>
        rw [hc] at h
        cases h
      | some c =>
        rw [hc] at h
        exact mem_walk_of_child? hc (ih .next c hc h)

/-- The blocks of a chain in a slot are below the owner of the slot. -/
theorem mem_walk_of_mem_spineSlot {a b x : Block} {s : Slot} (hb : b ∈ a.walk)
    (hx : x ∈ spineSlot (b.child? s)) : x ∈ a.walk := by
  cases hc : b.child? s with
  | none =>
    rw [hc] at hx
    cases hx
  | some c =>
    rw [hc] at hx
    exact mem_walk_trans hb (mem_walk_of_child? hc (mem_walk_of_mem_spine hx))

/-- The last block of the chain that starts with the block. -/
def chainEnd (b : Block) : Block :=
  b.spine.getLast?.getD b

/-- A trail from `next` slot to `next` slot. -/
def AlongNext (trail : List Frame) : Prop :=
  ∀ f ∈ trail, f.slot = .next

theorem spine_fill {trail : List Frame} (h : AlongNext trail) (x : Option Block) :
    (spineSlot (fill trail x)).map bare =
      trail.map (fun f => f.block.bare) ++ (spineSlot x).map bare := by
  induction trail with
  | nil => rfl
  | cons f trail ih =>
    have hf : f.slot = .next := h f List.mem_cons_self
    have hnext := f.child?_fill (fill trail x)
    rw [hf] at hnext
    rw [fill_cons, spineSlot, spine_eq, hnext, List.map_cons, Frame.bare_fill,
      ih fun g hg => h g (List.mem_cons_of_mem _ hg)]
    rfl

theorem concat_of_isStep {b : Block} (h : b.kind.isStep = true) (tail : Block) :
    b.concat tail = do return b.setChild .next (some (← concatNext (b.child? .next) tail)) := by
  cases b with
  | group | request | library | check | sleep => rfl
  | scenario | executor => cases h

/-- Every block of the chain that starts with the block has a `next` slot. -/
def OnlySteps (b : Block) : Prop :=
  ∀ x ∈ b.spine, x.kind.isStep = true

theorem onlySteps_iff {b : Block} : b.OnlySteps ↔
    b.kind.isStep = true ∧ ∀ c, b.child? .next = some c → c.OnlySteps := by
  rw [OnlySteps, spine_eq, List.forall_mem_cons]
  refine and_congr_right fun _ => ?_
  cases hc : b.child? .next with
  | none => simp [spineSlot]
  | some c =>
    rw [spineSlot]
    exact ⟨fun h d hd => Option.some.inj hd ▸ h, fun h => h c rfl⟩

theorem Typed.onlySteps {b : Block} (ht : b.Typed) (hb : b.kind.isStep = true) : b.OnlySteps := by
  induction b using childInduction with
  | step b ih =>
    exact onlySteps_iff.mpr ⟨hb, fun c hc => ih .next c hc (ht.of_child? hc) (ht.accepts hc)⟩

/-- A chain of steps ends in an open `next` slot, which is filled by what is joined to it. -/
theorem OnlySteps.exists_chainEnd {b : Block} (h : b.OnlySteps) :
    ∃ trail : List Frame, AlongNext trail ∧ trail ≠ [] ∧ fill trail none = some b ∧
      ∀ tail : Block, ∃ joined, fill trail (some tail) = some joined ∧
        b.concat tail = .ok joined := by
  induction b using childInduction with
  | step b ih =>
    obtain ⟨hb, hnext⟩ := onlySteps_iff.mp h
    have hs : b.kind.hasSlot .next = true := by rw [Kind.hasSlot_next]; exact hb
    cases hc : b.child? .next with
    | none =>
      refine ⟨[b.frameAt .next hs], by simp [AlongNext, frameAt], by simp, ?_, fun tail => ?_⟩
      · rw [fill_cons, fill_nil, ← hc, fill_frameAt_self]
      · exact ⟨_, rfl, by rw [concat_of_isStep hb, hc]; rfl⟩
    | some c =>
      obtain ⟨trail, halong, -, hfill, hjoin⟩ := ih .next c hc (hnext c hc)
      refine ⟨b.frameAt .next hs :: trail, ?_, by simp, ?_, fun tail => ?_⟩
      · intro f hf
        rcases List.mem_cons.mp hf with rfl | hf
        · rfl
        · exact halong f hf
      · rw [fill_cons, hfill, ← hc, fill_frameAt_self]
      · obtain ⟨joined, hjoined, hconcat⟩ := hjoin tail
        refine ⟨_, rfl, ?_⟩
        rw [concat_of_isStep hb, hc, concatNext, hconcat, hjoined]
        rfl

/-- Nothing is joined to a chain with a block in it that has no `next` slot. -/
theorem exists_concat_fault {b : Block} (h : ¬ b.OnlySteps) (tail : Block) :
    ∃ f, b.concat tail = .error f := by
  induction b using childInduction with
  | step b ih =>
    by_cases hb : b.kind.isStep = true
    · have hnext : ∃ c, b.child? .next = some c ∧ ¬ c.OnlySteps := by
        by_contra hall
        push Not at hall
        exact h (onlySteps_iff.mpr ⟨hb, hall⟩)
      obtain ⟨c, hc, hsteps⟩ := hnext
      obtain ⟨f, hf⟩ := ih .next c hc hsteps
      refine ⟨f, ?_⟩
      rw [concat_of_isStep hb, hc, concatNext, hf]
      rfl
    · exact ⟨_, concat_of_not_isStep (by simpa using hb) tail⟩

theorem opening_of_alongNext {trail : List Frame} {b : Block} (h : AlongNext trail)
    (hne : trail ≠ []) (hb : fill trail none = some b) :
    opening trail = some (b.chainEnd.bare, .next) := by
  obtain ⟨init, f, rfl⟩ := List.eq_nil_or_concat trail |>.resolve_left hne
  have hspine := spine_fill h none
  rw [hb, spineSlot, spineSlot, List.map_nil, List.append_nil] at hspine
  have hlast := congrArg List.getLast? hspine
  rw [List.getLast?_map, List.concat_eq_append, List.map_append, List.map_singleton,
    List.getLast?_concat] at hlast
  obtain ⟨e, he, hbare⟩ := Option.map_eq_some_iff.mp hlast
  rw [List.concat_eq_append, opening_concat, chainEnd, he, Option.getD_some, hbare,
    h f (by simp)]

end Block
end LoadTest

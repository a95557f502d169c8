import LoadTest.Proofs.Completeness.Causes
import Mathlib.Tactic.Tauto

/-!
The blocks that a reading meets.

`Block.met` lists them: every block in a slot that accepts it, but nothing behind the target of a
check.  The findings of a reading are these blocks in that order, with the issues that they have
with their slots in between.
-/

namespace LoadTest

/-- A block that is met, and the check that has it as its target. -/
structure Sighting where
  block : Block
  check : Option BlockId

namespace Sighting

def id (s : Sighting) : BlockId :=
  s.block.id

/-- What is wrong with the block itself. -/
def defect? : Sighting → Option Issue
  | ⟨.executor id shape, none⟩ => if shape.isStageless then some (.emptyStages id) else none
  | ⟨.request id _ next, some check⟩ =>
    if next.isSome then some (.chainedTarget check id) else none
  | _ => none

theorem defect?_eq_some {s : Sighting} {i : Issue} : s.defect? = some i ↔
    (∃ id startVus, s = ⟨.executor id (.ramping startVus []), none⟩ ∧ i = .emptyStages id) ∨
      ∃ check id r n, s = ⟨.request id r (some n), some check⟩ ∧ i = .chainedTarget check id := by
  constructor
  · intro h
    obtain ⟨b, check⟩ := s
    cases check with
    | none =>
      cases b with
      | executor id shape =>
        rw [Sighting.defect?] at h
        split at h
        · next hstageless =>
          cases h
          cases shape with
          | constant vus duration => cases hstageless
          | ramping startVus stages =>
            cases List.isEmpty_iff.mp hstageless
            exact Or.inl ⟨id, startVus, rfl, rfl⟩
        · cases h
      | _ => cases h
    | some check =>
      cases b with
      | request id r next =>
        cases next with
        | none => cases h
        | some n =>
          cases h
          exact Or.inr ⟨check, id, r, n, rfl, rfl⟩
      | _ => cases h
  · rintro (⟨id, startVus, rfl, rfl⟩ | ⟨check, id, r, n, rfl, rfl⟩) <;> rfl

def entry (s : Sighting) : BlockId × Option Issue :=
  (s.id, s.defect?)

end Sighting

namespace Block

mutual

/-- The blocks that a reading of a block meets, in order. -/
def met : Block → List Sighting
  | .scenario id name e s =>
    ⟨.scenario id name e s, none⟩ :: (metIn id .executor e ++ metIn id .step s)
  | .group id name s n => ⟨.group id name s n, none⟩ :: (metIn id .step s ++ metIn id .next n)
  | .request id r n => ⟨.request id r n, none⟩ :: metIn id .next n
  | .library id call n => ⟨.library id call n, none⟩ :: metIn id .next n
  | .check id es t n => ⟨.check id es t n, none⟩ :: (metIn id .target t ++ metIn id .next n)
  | .executor id shape => [⟨.executor id shape, none⟩]
  | .sleep id x n => ⟨.sleep id x n, none⟩ :: metIn id .next n

/-- The blocks that it meets in a slot.  Of a target only the block itself is looked at. -/
def metIn (owner : BlockId) (slot : Slot) : Option Block → List Sighting
  | none => []
  | some b =>
    if slot.accepts b.kind then
      if slot = .target then [⟨b, some owner⟩] else b.met
    else []

end

theorem metIn_some_of_isChain {slot : Slot} (h : slot.isChain = true) (owner : BlockId)
    (b : Block) : metIn owner slot (some b) = if b.kind.isStep then b.met else [] := by
  have htarget : slot ≠ .target := by
    intro heq
    subst heq
    cases h
  rw [metIn, Slot.accepts_of_isChain h, if_neg htarget]

end Block

/-- An issue of a block with one of its slots. -/
def Issue.OfSlots (o : Block) : Issue → Prop
  | .missingExecutor i => o.id = i ∧ o.kind = .scenario ∧ o.child? .executor = none
  | .missingCheckTarget i => o.id = i ∧ o.kind = .check ∧ o.child? .target = none
  | .wrongSlotKind i slot found =>
    o.id = i ∧ ∃ c, o.child? slot = some c ∧ c.kind = found ∧ slot.accepts found = false
  | .chainedTarget .. | .emptyStages _ | .duplicateId _ | .duplicateScenarioName .. => False

namespace Completeness

/-! ## Findings as sightings -/

/-- The blocks among the findings, with the issue that each has. -/
def mets (fs : List Finding) : List (BlockId × Option Issue) :=
  fs.filterMap fun f => match f with
    | .met id d => some (id, d)
    | .defect _ => none

@[simp] theorem mets_nil : mets [] = [] := rfl

@[simp] theorem mets_met (id : BlockId) (d : Option Issue) (fs : List Finding) :
    mets (.met id d :: fs) = (id, d) :: mets fs := rfl

@[simp] theorem mets_defect (i : Issue) (fs : List Finding) :
    mets (.defect i :: fs) = mets fs := rfl

@[simp] theorem mets_append (fs gs : List Finding) : mets (fs ++ gs) = mets fs ++ mets gs :=
  List.filterMap_append

theorem metIds_eq_map_mets (fs : List Finding) : metIds fs = (mets fs).map Prod.fst := by
  induction fs with
  | nil => rfl
  | cons f fs ih => cases f <;> simp [ih]

open Block (metIn)

theorem mets_targetFindings (check : BlockId) (t : Option Block) :
    mets (targetFindings check t) = (metIn check .target t).map Sighting.entry := by
  cases t with
  | none => rfl
  | some b => cases b <;> rfl

theorem mets_executorFindings (scenario : BlockId) (e : Option Block) :
    mets (executorFindings scenario e) = (metIn scenario .executor e).map Sighting.entry := by
  cases e with
  | none => rfl
  | some b => cases b <;> rfl

mutual

theorem mets_stepFindings : ∀ b : Block, b.kind.isStep = true →
    mets (stepFindings b) = b.met.map Sighting.entry
  | .group id _ s n, _ => by
    rw [stepFindings, Block.met, mets_met, mets_append, mets_chainFindings id .step rfl s,
      mets_chainFindings id .next rfl n, List.map_cons, List.map_append]
    rfl
  | .request id _ n, _ | .library id _ n, _ | .sleep id _ n, _ => by
    rw [stepFindings, Block.met, mets_met, mets_chainFindings id .next rfl n, List.map_cons]
    rfl
  | .check id _ t n, _ => by
    rw [stepFindings, Block.met, mets_met, mets_append, mets_targetFindings,
      mets_chainFindings id .next rfl n, List.map_cons, List.map_append]
    rfl

theorem mets_chainFindings (owner : BlockId) (slot : Slot) (hslot : slot.isChain = true) :
    ∀ x : Option Block, mets (chainFindings owner slot x) = (metIn owner slot x).map Sighting.entry
  | none => by
    rw [chainFindings, metIn]
    rfl
  | some b => by
    rw [chainFindings, Slot.accepts_of_isChain hslot, Block.metIn_some_of_isChain hslot]
    by_cases hb : b.kind.isStep = true
    · rw [if_pos hb, if_pos hb, mets_stepFindings b hb]
    · rw [if_neg hb, if_neg hb]
      rfl

end

theorem mets_scenarioFindings {b : Block} (hb : b.kind = .scenario) :
    mets (scenarioFindings b) = b.met.map Sighting.entry := by
  cases b with
  | scenario id name e s =>
    rw [scenarioFindings, Block.met, mets_met, mets_append, mets_executorFindings,
      mets_chainFindings id .step rfl s, List.map_cons, List.map_append]
    rfl
  | _ => cases hb

/-! ## Issues with slots -/

/-- The findings that are issues with a slot. -/
def defects (fs : List Finding) : List Issue :=
  fs.filterMap fun f => match f with
    | .met .. => none
    | .defect i => some i

@[simp] theorem defects_nil : defects [] = [] := rfl

@[simp] theorem defects_met (id : BlockId) (d : Option Issue) (fs : List Finding) :
    defects (.met id d :: fs) = defects fs := rfl

@[simp] theorem defects_defect (i : Issue) (fs : List Finding) :
    defects (.defect i :: fs) = i :: defects fs := rfl

@[simp] theorem defects_append (fs gs : List Finding) :
    defects (fs ++ gs) = defects fs ++ defects gs :=
  List.filterMap_append

/-- What is wrong with a slot that holds `x`. -/
def slotIssues (owner : BlockId) (slot : Slot) : Option Block → List Issue
  | none =>
    match slot with
    | .executor => [.missingExecutor owner]
    | .target => [.missingCheckTarget owner]
    | .step | .next => []
  | some b => if slot.accepts b.kind then [] else [.wrongSlotKind owner slot b.kind]

def ownIssues (o : Block) : List Issue :=
  o.kind.slots.flatMap fun s => slotIssues o.id s (o.child? s)

theorem eq_scenario_of_mem_slots {k : Kind} (h : .executor ∈ k.slots) : k = .scenario := by
  cases k <;> simp [Kind.slots] at h ⊢

theorem eq_check_of_mem_slots {k : Kind} (h : .target ∈ k.slots) : k = .check := by
  cases k <;> simp [Kind.slots] at h ⊢

theorem mem_ownIssues {o : Block} {i : Issue} : i ∈ ownIssues o ↔ i.OfSlots o := by
  rw [ownIssues, List.mem_flatMap]
  constructor
  · rintro ⟨s, hs, hi⟩
    cases hc : o.child? s with
    | none =>
      rw [hc] at hi
      cases s with
      | executor =>
        cases List.mem_singleton.mp hi
        exact ⟨rfl, eq_scenario_of_mem_slots hs, hc⟩
      | target =>
        cases List.mem_singleton.mp hi
        exact ⟨rfl, eq_check_of_mem_slots hs, hc⟩
      | step | next => cases hi
    | some c =>
      rw [hc, slotIssues] at hi
      by_cases haccepts : s.accepts c.kind = true
      · rw [if_pos haccepts] at hi
        cases hi
      · rw [if_neg haccepts] at hi
        cases List.mem_singleton.mp hi
        exact ⟨rfl, c, hc, rfl, Bool.not_eq_true _ ▸ haccepts⟩
  · intro h
    cases i with
    | missingExecutor j =>
      obtain ⟨rfl, hkind, hc⟩ := h
      refine ⟨.executor, by rw [hkind]; decide, ?_⟩
      rw [hc]
      exact List.mem_singleton_self _
    | missingCheckTarget j =>
      obtain ⟨rfl, hkind, hc⟩ := h
      refine ⟨.target, by rw [hkind]; decide, ?_⟩
      rw [hc]
      exact List.mem_singleton_self _
    | wrongSlotKind j s found =>
      obtain ⟨rfl, c, hc, rfl, haccepts⟩ := h
      refine ⟨s, List.contains_iff_mem.mp (Block.hasSlot_of_child? hc), ?_⟩
      rw [hc, slotIssues, haccepts]
      exact List.mem_singleton_self _
    | _ => cases h

/-- One of the blocks that are looked at has an issue with a slot. -/
def HasSlotIssue (l : List Sighting) (i : Issue) : Prop :=
  ∃ o, ⟨o, none⟩ ∈ l ∧ i ∈ ownIssues o

theorem hasSlotIssue_nil {i : Issue} : HasSlotIssue [] i ↔ False := by
  simp [HasSlotIssue]

theorem hasSlotIssue_cons {b : Block} {l : List Sighting} {i : Issue} :
    HasSlotIssue (⟨b, none⟩ :: l) i ↔ i ∈ ownIssues b ∨ HasSlotIssue l i := by
  simp [HasSlotIssue, or_and_right, exists_or]

theorem hasSlotIssue_target {b : Block} {check : BlockId} {i : Issue} :
    HasSlotIssue [⟨b, some check⟩] i ↔ False := by
  simp [HasSlotIssue]

theorem hasSlotIssue_append {l r : List Sighting} {i : Issue} :
    HasSlotIssue (l ++ r) i ↔ HasSlotIssue l i ∨ HasSlotIssue r i := by
  simp [HasSlotIssue, or_and_right, exists_or]

theorem mem_defects_targetFindings (check : BlockId) (t : Option Block) {i : Issue} :
    i ∈ defects (targetFindings check t) ↔
      i ∈ slotIssues check .target t ∨ HasSlotIssue (metIn check .target t) i := by
  cases t with
  | none => simp [targetFindings, slotIssues, metIn, hasSlotIssue_nil]
  | some b =>
    cases b <;> simp [targetFindings, slotIssues, metIn, hasSlotIssue_nil, hasSlotIssue_target,
      Slot.accepts, Block.kind]

theorem mem_defects_executorFindings (scenario : BlockId) (e : Option Block) {i : Issue} :
    i ∈ defects (executorFindings scenario e) ↔
      i ∈ slotIssues scenario .executor e ∨ HasSlotIssue (metIn scenario .executor e) i := by
  cases e with
  | none => simp [executorFindings, slotIssues, metIn, hasSlotIssue_nil]
  | some b =>
    cases b <;> simp [executorFindings, slotIssues, metIn, hasSlotIssue_nil, hasSlotIssue_cons,
      Slot.accepts, Block.kind, Block.met, ownIssues, Kind.slots]

mutual

theorem mem_defects_stepFindings : ∀ (b : Block) {i : Issue}, b.kind.isStep = true →
    (i ∈ defects (stepFindings b) ↔ HasSlotIssue b.met i)
  | .group id name s n, i, _ => by
    have hs := mem_defects_chainFindings id .step rfl s (i := i)
    have hn := mem_defects_chainFindings id .next rfl n (i := i)
    simp only [stepFindings, Block.met, defects_met, defects_append, List.mem_append, hs, hn,
      hasSlotIssue_cons, hasSlotIssue_append, ownIssues, Block.kind, Kind.slots, List.flatMap_cons,
      List.flatMap_nil, List.not_mem_nil, or_false, Block.id, Block.child?]
    tauto
  | .request id _ n, i, _ | .library id _ n, i, _ | .sleep id _ n, i, _ => by
    have hn := mem_defects_chainFindings id .next rfl n (i := i)
    simp only [stepFindings, Block.met, defects_met, hn, hasSlotIssue_cons, ownIssues, Block.kind,
      Kind.slots, List.flatMap_cons, List.flatMap_nil, List.append_nil, Block.id, Block.child?]
  | .check id es t n, i, _ => by
    have ht := mem_defects_targetFindings id t (i := i)
    have hn := mem_defects_chainFindings id .next rfl n (i := i)
    simp only [stepFindings, Block.met, defects_met, defects_append, List.mem_append, ht, hn,
      hasSlotIssue_cons, hasSlotIssue_append, ownIssues, Block.kind, Kind.slots, List.flatMap_cons,
      List.flatMap_nil, List.not_mem_nil, or_false, Block.id, Block.child?]
    tauto

theorem mem_defects_chainFindings (owner : BlockId) (slot : Slot) (hslot : slot.isChain = true) :
    ∀ (x : Option Block) {i : Issue}, i ∈ defects (chainFindings owner slot x) ↔
      i ∈ slotIssues owner slot x ∨ HasSlotIssue (metIn owner slot x) i
  | none, i => by
    cases slot with
    | step | next => simp [chainFindings, metIn, slotIssues, hasSlotIssue_nil]
    | executor | target => cases hslot
  | some b, i => by
    rw [chainFindings, slotIssues, Slot.accepts_of_isChain hslot,
      Block.metIn_some_of_isChain hslot]
    by_cases hb : b.kind.isStep = true
    · rw [if_pos hb, if_pos hb, if_pos hb, mem_defects_stepFindings b hb]
      simp
    · rw [if_neg hb, if_neg hb, if_neg hb]
      simp [hasSlotIssue_nil]

end

theorem mem_defects_scenarioFindings {b : Block} (hb : b.kind = .scenario) {i : Issue} :
    i ∈ defects (scenarioFindings b) ↔ HasSlotIssue b.met i := by
  cases b with
  | scenario id name e s =>
    have he := mem_defects_executorFindings id e (i := i)
    have hs := mem_defects_chainFindings id .step rfl s (i := i)
    simp only [scenarioFindings, Block.met, defects_met, defects_append, List.mem_append, he, hs,
      hasSlotIssue_cons, hasSlotIssue_append, ownIssues, Block.kind, Kind.slots, List.flatMap_cons,
      List.flatMap_nil, List.not_mem_nil, or_false, Block.id, Block.child?]
    tauto
  | _ => cases hb

end Completeness
end LoadTest

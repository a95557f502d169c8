import LoadTest.Proofs.Completeness.Findings

/-!
A reading by its findings.

A reading finds what the slots spell out if all ids that it meets are new, and its progress is what
its findings make of it.
-/

namespace LoadTest
namespace Completeness

/-! ## What the slots spell out -/

def target? : Option Block → Option (BlockId × Request)
  | some (.request id r none) => some (id, r)
  | _ => none

def executor? : Option Block → Option (BlockId × Executor)
  | some (.executor id shape) => if shape.isStageless then none else some (id, shape)
  | _ => none

mutual

def steps? : Block → Option (List Complete.Step)
  | .group id name s n => do
    let steps ← chain? .step s
    return .group id name steps :: (← chain? .next n)
  | .request id r n => do return .request id r :: (← chain? .next n)
  | .library id call n => do return .library id call :: (← chain? .next n)
  | .check id es t n => do
    let (target, r) ← target? t
    return .check id es target r :: (← chain? .next n)
  | .sleep id x n => do return .sleep id x :: (← chain? .next n)
  | .scenario .. | .executor .. => none

def chain? (slot : Slot) : Option Block → Option (List Complete.Step)
  | none => some []
  | some b => if slot.accepts b.kind then steps? b else none

end

def scenario? : Block → Option Complete.Scenario
  | .scenario id name e s => do
    let (executorId, shape) ← executor? e
    return ⟨id, name, executorId, shape, ← chain? .step s⟩
  | _ => none

/-! ## Readings -/

/-- What a reading finds from the progress `p`, given what there is to find and what it means. -/
def outcome {α : Type} (p : Progress) (fs : List Finding) (value : Option α) :
    Option α × Progress :=
  (if AllNew p.seen (metIds fs) then value else none, noteAll p fs)

theorem run_bind {α β : Type} (m : Reading α) (f : α → Reading β) (p : Progress) :
    (m >>= f).run p = (f (m.run p).1).run (m.run p).2 := rfl

theorem run_pure {α : Type} (a : α) (p : Progress) : (pure a : Reading α).run p = (a, p) := rfl

theorem run_meet (id : BlockId) (p : Progress) :
    (meet id).run p = (decide (id ∉ p.seen), note p (.met id none)) := by
  by_cases hseen : id ∈ p.seen
  · by_cases hreported : id ∈ p.reported
    · simp [meet, note, hseen, hreported]
      rfl
    · simp [meet, note, hseen, hreported]
      rfl
  · simp [meet, note, hseen]
    rfl

theorem run_fail {α : Type} (i : Issue) (p : Progress) :
    (fail i : Reading (Option α)).run p = outcome p [.defect i] none := by
  rw [outcome, ite_self]
  rfl

/-- Meeting a block that may have an issue of its own. -/
theorem run_meet_fail {α : Type} (id : BlockId) (bad : Bool) (i : Issue) (value : α)
    (p : Progress) :
    (do if ← meet id then (if bad then fail i else return some value) else return none :
        Reading (Option α)).run p =
      outcome p [.met id (if bad then some i else none)] (if bad then none else some value) := by
  simp only [run_bind, run_meet, outcome, allNew_met]
  by_cases hid : id ∈ p.seen
  · cases bad <;> simp [hid, noteAll, note] <;> rfl
  · cases bad
    · simp [hid, noteAll, AllNew]
      rfl
    · simp only [hid, not_false_eq_true, decide_true, if_true, run_fail, outcome, ite_self,
        true_and]
      simp [noteAll, note, hid]

theorem run_readTarget (check : BlockId) (t : Option Block) (p : Progress) :
    (readTarget check t).run p = outcome p (targetFindings check t) (target? t) := by
  cases t with
  | none => exact run_fail _ p
  | some b =>
    cases b with
    | request id r next =>
      have h := run_meet_fail id next.isSome (.chainedTarget check id) (id, r) p
      cases next <;> exact h
    | _ => exact run_fail _ p

theorem run_readExecutor (scenario : BlockId) (e : Option Block) (p : Progress) :
    (readExecutor scenario e).run p = outcome p (executorFindings scenario e) (executor? e) := by
  cases e with
  | none => exact run_fail _ p
  | some b =>
    cases b with
    | executor id shape =>
      exact run_meet_fail id shape.isStageless (.emptyStages id) (id, shape) p
    | _ => exact run_fail _ p

@[simp] theorem outcome_snd {α : Type} (p : Progress) (fs : List Finding) (value : Option α) :
    (outcome p fs value).2 = noteAll p fs := rfl

theorem outcome_map {α β : Type} (p : Progress) (fs : List Finding) (value : Option α)
    (f : α → β) : (outcome p fs value).1.map f = (outcome p fs (value.map f)).1 := by
  by_cases h : AllNew p.seen (metIds fs) <;> simp [outcome, h]

/-- A block in front of the rest of a chain. -/
theorem outcome_consStep (p : Progress) (id : BlockId) (fs : List Finding)
    (step : Option Complete.Step) (rest : Option (List Complete.Step)) :
    (consStep (decide (id ∉ p.seen)) step
        (outcome (note p (.met id none)) fs rest).1, noteAll (note p (.met id none)) fs) =
      outcome p (.met id none :: fs) (do return (← step) :: (← rest)) := by
  refine Prod.ext ?_ rfl
  simp only [outcome, allNew_met]
  by_cases hid : id ∈ p.seen
  · simp [consStep, hid]
  · by_cases hfs : AllNew (note p (.met id none)).seen (metIds fs) <;>
      simp [consStep, hid, hfs]

/-- The same when the block itself takes reading. -/
theorem outcome_consStep_append (p : Progress) (id : BlockId) (fs gs : List Finding)
    (step : Option Complete.Step) (rest : Option (List Complete.Step)) :
    (consStep (decide (id ∉ p.seen)) (outcome (note p (.met id none)) fs step).1
        (outcome (noteAll (note p (.met id none)) fs) gs rest).1,
        noteAll (noteAll (note p (.met id none)) fs) gs) =
      outcome p (.met id none :: (fs ++ gs)) (do return (← step) :: (← rest)) := by
  rw [← noteAll_append, ← outcome_consStep]
  refine Prod.ext ?_ rfl
  simp only [outcome, allNew_append]
  by_cases hfs : AllNew (note p (.met id none)).seen (metIds fs) <;> simp [consStep, hfs]

mutual

theorem run_readSteps : ∀ (b : Block) (p : Progress),
    (readSteps b).run p = outcome p (stepFindings b) (steps? b)
  | .group id name s n, p => by
    have h := outcome_consStep_append p id (chainFindings id .step s) (chainFindings id .next n)
      ((chain? .step s).map (.group id name)) (chain? .next n)
    rw [← outcome_map] at h
    simp only [readSteps, run_bind, run_pure, run_meet, run_readChain, outcome_snd]
    rw [h, steps?]
    cases chain? .step s <;> rfl
  | .request id r n, p => by
    have h := outcome_consStep p id (chainFindings id .next n) (some (.request id r))
      (chain? .next n)
    simp only [readSteps, run_bind, run_pure, run_meet, run_readChain, outcome_snd]
    exact h
  | .library id call n, p => by
    have h := outcome_consStep p id (chainFindings id .next n) (some (.library id call))
      (chain? .next n)
    simp only [readSteps, run_bind, run_pure, run_meet, run_readChain, outcome_snd]
    exact h
  | .check id es t n, p => by
    have h := outcome_consStep_append p id (targetFindings id t) (chainFindings id .next n)
      ((target? t).map fun (t, r) => .check id es t r) (chain? .next n)
    rw [← outcome_map] at h
    simp only [readSteps, run_bind, run_pure, run_meet, run_readChain, run_readTarget, outcome_snd]
    rw [h, steps?]
    cases target? t <;> rfl
  | .sleep id x n, p => by
    have h := outcome_consStep p id (chainFindings id .next n) (some (.sleep id x))
      (chain? .next n)
    simp only [readSteps, run_bind, run_pure, run_meet, run_readChain, outcome_snd]
    exact h
  | .scenario .., p | .executor .., p => by
    rw [outcome, readSteps, run_pure, steps?, ite_self]
    rfl

theorem run_readChain (owner : BlockId) (slot : Slot) : ∀ (x : Option Block) (p : Progress),
    (readChain owner slot x).run p = outcome p (chainFindings owner slot x) (chain? slot x)
  | none, p => by
    rw [readChain, run_pure, outcome, if_pos ⟨List.nodup_nil, by simp [chainFindings]⟩]
    rfl
  | some b, p => by
    by_cases hslot : slot.accepts b.kind = true
    · simp only [readChain, chainFindings, chain?, if_pos hslot, run_readSteps b p]
    · simp only [readChain, chainFindings, chain?, if_neg hslot, run_fail]

end

theorem run_readScenario (b : Block) (p : Progress) :
    (readScenario b).run p = outcome p (scenarioFindings b) (scenario? b) := by
  cases b with
  | scenario id name e s =>
    simp only [readScenario, run_bind, run_meet, run_readExecutor, run_readChain, outcome_snd]
    have hall : noteAll (noteAll (note p (.met id none)) (executorFindings id e))
        (chainFindings id .step s) = noteAll p (scenarioFindings (.scenario id name e s)) := by
      rw [← noteAll_append, scenarioFindings]
      rfl
    simp only [outcome, hall, scenarioFindings, allNew_met, allNew_append, scenario?]
    by_cases hid : id ∈ p.seen
    · simp only [hid, not_true_eq_false, decide_false, false_and, if_false]
      rfl
    · by_cases he : AllNew (note p (.met id none)).seen (metIds (executorFindings id e))
      · by_cases hs : AllNew (noteAll (note p (.met id none)) (executorFindings id e)).seen
            (metIds (chainFindings id .step s))
        · simp only [hid, he, hs, not_false_eq_true, decide_true, and_self, if_true]
          rfl
        · simp only [hid, he, hs, not_false_eq_true, decide_true, and_false, if_true, if_false]
          cases executor? e <;> rfl
      · simp only [hid, he, not_false_eq_true, decide_true, and_false, false_and, if_true, if_false]
        rfl
  | _ =>
    refine Prod.ext ?_ rfl
    rw [outcome, scenario?, ite_self]
    · rfl
    · intro _ _ _ _ h
      cases h

/-! ## The canvas -/

/-- What there is to find on the canvas. -/
def rootsFindings (rs : List Root) : List Finding :=
  rs.flatMap fun r => scenarioFindings r.block

theorem rootsFindings_cons (r : Root) (rs : List Root) :
    rootsFindings (r :: rs) = scenarioFindings r.block ++ rootsFindings rs :=
  List.flatMap_cons

/-- What the canvas spells out, if every block on it is a complete scenario. -/
def roots? : List Root → Option (List Complete.Root)
  | [] => some []
  | r :: rs => do return ⟨r.position, ← scenario? r.block⟩ :: (← roots? rs)

theorem run_readRoots_snd (rs : List Root) (p : Progress) :
    ((readRoots rs).run p).2 = noteAll p (rootsFindings rs) := by
  induction rs generalizing p with
  | nil => rfl
  | cons r rs ih =>
    rw [rootsFindings_cons, noteAll_append, ← ih, readRoots, run_bind, run_readScenario,
      outcome_snd, run_bind]
    cases (outcome p (scenarioFindings r.block) (scenario? r.block)).1 <;> rfl

/-- If all ids are new and the canvas spells out complete scenarios, then they are found. -/
theorem run_readRoots_of_allNew {rs : List Root} {p : Progress} {roots : List Complete.Root}
    (h : AllNew p.seen (metIds (rootsFindings rs))) (hroots : roots? rs = some roots) :
    (readRoots rs).run p = ((roots, true), noteAll p (rootsFindings rs)) := by
  induction rs generalizing p roots with
  | nil =>
    cases hroots
    rfl
  | cons r rs ih =>
    rw [rootsFindings_cons, allNew_append] at h
    obtain ⟨hr, hrs⟩ := h
    simp only [roots?, Option.bind_eq_bind, Option.bind_eq_some_iff] at hroots
    obtain ⟨found, hfound, rest, hrest, hcons⟩ := hroots
    cases hcons
    rw [readRoots, run_bind, run_readScenario, outcome_snd, run_bind, ih hrs hrest, outcome,
      if_pos hr, hfound, rootsFindings_cons, noteAll_append]
    rfl

end Completeness
end LoadTest

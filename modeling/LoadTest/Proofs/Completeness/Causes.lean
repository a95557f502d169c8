import LoadTest.Proofs.Completeness.Acceptance

/-!
The causes of issues: every issue of a finding is one that a block has with its slots, and where
all ids differ the only other issues are names that clash.
-/

namespace LoadTest

/-- One of the blocks has the issue with its slots.  An id or a name that is used twice is no issue
of a single block. -/
def Issue.CausedBy (blocks : List Block) : Issue → Prop
  | .missingExecutor i => ∃ o ∈ blocks, o.id = i ∧ o.kind = .scenario ∧ o.child? .executor = none
  | .missingCheckTarget i => ∃ o ∈ blocks, o.id = i ∧ o.kind = .check ∧ o.child? .target = none
  | .wrongSlotKind i slot found => ∃ o ∈ blocks, o.id = i ∧
      ∃ c, o.child? slot = some c ∧ c.kind = found ∧ slot.accepts found = false
  | .chainedTarget i j => ∃ o ∈ blocks, o.id = i ∧ o.kind = .check ∧
      ∃ r n, o.child? .target = some (.request j r (some n))
  | .emptyStages i => ∃ startVus, .executor i (.ramping startVus []) ∈ blocks
  | .duplicateId _ | .duplicateScenarioName .. => False

namespace Issue

theorem CausedBy.mono {blocks more : List Block} (h : blocks ⊆ more) {i : Issue}
    (hi : i.CausedBy blocks) : i.CausedBy more := by
  cases i with
  | emptyStages j =>
    obtain ⟨startVus, hmem⟩ := hi
    exact ⟨startVus, h hmem⟩
  | duplicateId j => exact hi
  | duplicateScenarioName first second function => exact hi
  | _ =>
    obtain ⟨o, ho, hrest⟩ := hi
    exact ⟨o, h ho, hrest⟩

/-- An issue with a slot needs a slot that does not accept what it holds. -/
theorem CausedBy.not_wrongSlotKind {blocks : List Block}
    (h : ∀ o ∈ blocks, ∀ s c, o.child? s = some c → s.accepts c.kind = true) {owner : BlockId}
    {slot : Slot} {found : Kind} : ¬ (wrongSlotKind owner slot found).CausedBy blocks := by
  rintro ⟨o, ho, -, c, hc, rfl, haccepts⟩
  rw [h o ho slot c hc] at haccepts
  cases haccepts

end Issue

namespace Completeness

open Block (walkSlot)

theorem causedBy_targetFindings {o : Block} (ho : o.kind = .check) :
    ∀ i ∈ issues (targetFindings o.id (o.child? .target)),
      i.CausedBy (o :: walkSlot (o.child? .target)) := by
  intro i hi
  cases htarget : o.child? .target with
  | none =>
    rw [htarget] at hi
    simp only [targetFindings, issues_defect, issues_nil, List.mem_singleton] at hi
    subst hi
    exact ⟨o, List.mem_cons_self, rfl, ho, htarget⟩
  | some c =>
    rw [htarget] at hi
    cases c with
    | request j r n =>
      cases n with
      | none => simp [targetFindings] at hi
      | some n =>
        simp only [targetFindings, Option.isSome_some, if_true, issues_met, issues_nil,
          Option.toList_some, List.append_nil, List.mem_singleton] at hi
        subst hi
        exact ⟨o, List.mem_cons_self, rfl, ho, r, n, htarget⟩
    | _ =>
      simp only [targetFindings, issues_defect, issues_nil, List.mem_singleton] at hi
      subst hi
      exact ⟨o, List.mem_cons_self, rfl, _, htarget, rfl, rfl⟩

theorem causedBy_executorFindings {o : Block} (ho : o.kind = .scenario) :
    ∀ i ∈ issues (executorFindings o.id (o.child? .executor)),
      i.CausedBy (o :: walkSlot (o.child? .executor)) := by
  intro i hi
  cases hexecutor : o.child? .executor with
  | none =>
    rw [hexecutor] at hi
    simp only [executorFindings, issues_defect, issues_nil, List.mem_singleton] at hi
    subst hi
    exact ⟨o, List.mem_cons_self, rfl, ho, hexecutor⟩
  | some c =>
    rw [hexecutor] at hi
    cases c with
    | executor j shape =>
      cases shape with
      | constant vus duration => simp [executorFindings, Executor.isStageless] at hi
      | ramping startVus stages =>
        cases stages with
        | cons stage stages => simp [executorFindings, Executor.isStageless] at hi
        | nil =>
          simp only [executorFindings, Executor.isStageless, List.isEmpty_nil, if_true, issues_met,
            issues_nil, Option.toList_some, List.append_nil, List.mem_singleton] at hi
          subst hi
          exact ⟨startVus, by simp [walkSlot, Block.walk]⟩
    | _ =>
      simp only [executorFindings, issues_defect, issues_nil, List.mem_singleton] at hi
      subst hi
      exact ⟨o, List.mem_cons_self, rfl, _, hexecutor, rfl, rfl⟩

/-- What is found behind a slot is caused by its owner or below it. -/
theorem causedBy_of_slot {o : Block} {s : Slot} {i : Issue}
    (h : i.CausedBy (o :: walkSlot (o.child? s))) : i.CausedBy o.walk := by
  refine h.mono fun b hb => ?_
  rcases List.mem_cons.mp hb with rfl | hb
  · exact Block.mem_walk_self b
  · obtain ⟨c, hc, hb⟩ := Block.mem_walkSlot.mp hb
    exact Block.mem_walk_of_child? hc hb

mutual

theorem causedBy_stepFindings : ∀ b : Block, ∀ i ∈ issues (stepFindings b), i.CausedBy b.walk
  | .group id name s n, i, hi => by
    have hs := causedBy_chainFindings (o := .group id name s n) .step s rfl i
    have hn := causedBy_chainFindings (o := .group id name s n) .next n rfl i
    simp only [stepFindings, issues_met, issues_append, List.mem_append, Option.toList_none,
      List.not_mem_nil, false_or] at hi
    exact hi.elim hs hn
  | .request id r n, i, hi => by
    have hn := causedBy_chainFindings (o := .request id r n) .next n rfl i
    simp only [stepFindings, issues_met, Option.toList_none, List.nil_append] at hi
    exact hn hi
  | .library id call n, i, hi => by
    have hn := causedBy_chainFindings (o := .library id call n) .next n rfl i
    simp only [stepFindings, issues_met, Option.toList_none, List.nil_append] at hi
    exact hn hi
  | .sleep id x n, i, hi => by
    have hn := causedBy_chainFindings (o := .sleep id x n) .next n rfl i
    simp only [stepFindings, issues_met, Option.toList_none, List.nil_append] at hi
    exact hn hi
  | .check id es t n, i, hi => by
    have ht := causedBy_targetFindings (o := .check id es t n) rfl i
    have hn := causedBy_chainFindings (o := .check id es t n) .next n rfl i
    simp only [stepFindings, issues_met, issues_append, List.mem_append, Option.toList_none,
      List.not_mem_nil, false_or] at hi
    exact hi.elim (fun h => causedBy_of_slot (ht h)) hn
  | .scenario .., i, hi | .executor .., i, hi => by simp [stepFindings] at hi

theorem causedBy_chainFindings {o : Block} (slot : Slot) : ∀ x : Option Block,
    o.child? slot = x → ∀ i ∈ issues (chainFindings o.id slot x), i.CausedBy o.walk
  | none, _, i, hi => by simp [chainFindings] at hi
  | some b, hb, i, hi => by
    rw [chainFindings] at hi
    split at hi
    · have hcaused := causedBy_stepFindings b i hi
      exact hcaused.mono fun c hc => Block.mem_walk_of_child? hb hc
    · next haccepts =>
      simp only [issues_defect, issues_nil, List.mem_singleton] at hi
      subst hi
      exact ⟨o, Block.mem_walk_self o, rfl, b, hb, rfl, by simpa using haccepts⟩

end

/-- Every issue of a scenario is caused by a block of it. -/
theorem causedBy_scenarioFindings {b : Block} :
    ∀ i ∈ issues (scenarioFindings b), i.CausedBy b.walk := by
  intro i hi
  cases b with
  | scenario id name e s =>
    have he := causedBy_executorFindings (o := .scenario id name e s) rfl i
    have hs := causedBy_chainFindings (o := .scenario id name e s) .step s rfl i
    simp only [scenarioFindings, issues_met, issues_append, List.mem_append, Option.toList_none,
      List.not_mem_nil, false_or] at hi
    exact hi.elim (fun h => causedBy_of_slot (he h)) hs
  | _ => simp [scenarioFindings] at hi

theorem mem_issues_rootsFindings {rs : List Root} {i : Issue} :
    i ∈ issues (rootsFindings rs) ↔ ∃ r ∈ rs, i ∈ issues (scenarioFindings r.block) := by
  induction rs with
  | nil => simp [rootsFindings]
  | cons r rs ih => simp [rootsFindings_cons, ih]

theorem mem_nameClashesFrom {resolve : String → String} {known : List (String × BlockId)}
    {scenarios : List Complete.Scenario} {i : Issue}
    (h : i ∈ nameClashesFrom resolve known scenarios) :
    ∃ first second function, i = .duplicateScenarioName first second function := by
  induction scenarios generalizing known with
  | nil => cases h
  | cons s r ih =>
    rw [nameClashesFrom] at h
    split at h
    · next first _ =>
      rcases List.mem_cons.mp h with rfl | h
      · exact ⟨first, s.id, _, rfl⟩
      · exact ih h
    · exact ih h

end Completeness

namespace Test

open Completeness

/-- Every issue of the findings is caused by a block of a scenario. -/
theorem causedBy_of_mem_issues {t : Test} {i : Issue}
    (h : i ∈ issues (rootsFindings t.scenarioRoots)) : i.CausedBy t.scenarioBlocks := by
  obtain ⟨r, hr, hi⟩ := mem_issues_rootsFindings.mp h
  refine (causedBy_scenarioFindings i hi).mono fun b hb => ?_
  exact List.mem_flatMap.mpr ⟨r, hr, hb⟩

/-- If all ids differ, an issue is one of a block or a clash of names. -/
theorem causedBy_of_complete_eq_error {t : Test} (h : (t.scenarioBlocks.map Block.id).Nodup)
    {is : List Issue} (herror : t.complete = .error is) : ∀ i ∈ is,
      i.CausedBy t.scenarioBlocks ∨
        ∃ first second function, i = .duplicateScenarioName first second function := by
  have hnew : AllNew Progress.start.seen (metIds (rootsFindings t.scenarioRoots)) := by
    obtain ⟨l, hl, hsub⟩ := metIds_rootsFindings t.scenarioRoots
    exact ⟨hl.nodup_iff.mp (h.sublist hsub), fun i _ => List.not_mem_nil⟩
  have hprogress := issues_noteAll_of_allNew hnew
  rw [← run_readRoots_snd] at hprogress
  rw [complete_eq] at herror
  obtain ⟨⟨⟨roots, all⟩, p⟩, hrun⟩ : ∃ x, (readRoots t.scenarioRoots).run .start = x := ⟨_, rfl⟩
  rw [hrun] at hprogress herror
  simp only at herror
  split at herror
  · cases herror
  · cases herror
    intro i hi
    rcases List.mem_append.mp hi with hi | hi
    · refine Or.inl ?_
      rw [show p.issues = issues (rootsFindings t.scenarioRoots) from hprogress] at hi
      exact causedBy_of_mem_issues hi
    · exact Or.inr (mem_nameClashesFrom hi)

end Test
end LoadTest

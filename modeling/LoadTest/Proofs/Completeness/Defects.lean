import LoadTest.Proofs.Completeness.Clashes

/-!
What an issue says of the test.

Each issue names a defect, and the defect is there: at a block with one of its slots, at the places
where an id is used, or between the names of two scenarios.  Nothing is asked of the ids for that:
an id that is used twice can keep an issue from being reported, but makes none of them wrong.
-/

namespace LoadTest

/-- The defect that the issue names is in the scenarios of the test.  An id is used once by each of
their blocks, and of two scenarios the one in front is named first. -/
def Issue.Describes (t : Test) : Issue → Prop
  | .missingExecutor scenario =>
    ∃ r ∈ t.scenarioRoots, r.block.id = scenario ∧ r.block.child? .executor = none
  | .duplicateId id => 2 ≤ (t.scenarioBlocks.map Block.id).count id
  | .duplicateScenarioName first second function =>
    ∃ a b, [a, b].Sublist t.scenarioRoots ∧ a.block.id = first ∧ b.block.id = second ∧
      a.block.scenarioName?.map Script.functionName = some function ∧
      b.block.scenarioName?.map Script.functionName = some function
  | i => i.CausedBy t.scenarioBlocks

namespace Completeness

/-! ## Scenarios without an executor -/

theorem not_missingExecutor_of_targetFindings (scenario check : BlockId) :
    ∀ t : Option Block, .missingExecutor scenario ∉ issues (targetFindings check t)
  | none => by simp [targetFindings]
  | some (.request id r n) => by cases n <;> simp [targetFindings]
  | some (.scenario ..) | some (.group ..) | some (.library ..) | some (.check ..)
  | some (.executor ..) | some (.sleep ..) => by simp [targetFindings]

mutual

/-- No step is asked for an executor. -/
theorem not_missingExecutor_of_stepFindings (scenario : BlockId) :
    ∀ b : Block, .missingExecutor scenario ∉ issues (stepFindings b)
  | .group id _ s n => by
    have hs := not_missingExecutor_of_chainFindings scenario id .step s
    have hn := not_missingExecutor_of_chainFindings scenario id .next n
    simp [stepFindings, hs, hn]
  | .request id _ n | .library id _ n | .sleep id _ n => by
    have hn := not_missingExecutor_of_chainFindings scenario id .next n
    simp [stepFindings, hn]
  | .check id _ t n => by
    have ht := not_missingExecutor_of_targetFindings scenario id t
    have hn := not_missingExecutor_of_chainFindings scenario id .next n
    simp [stepFindings, ht, hn]
  | .scenario .. | .executor .. => by simp [stepFindings]

theorem not_missingExecutor_of_chainFindings (scenario owner : BlockId) (slot : Slot) :
    ∀ x : Option Block, .missingExecutor scenario ∉ issues (chainFindings owner slot x)
  | none => by simp [chainFindings]
  | some b => by
    have hb := not_missingExecutor_of_stepFindings scenario b
    rw [chainFindings]
    split
    · exact hb
    · simp

end

theorem eq_none_of_missingExecutor {scenario id : BlockId} {e : Option Block}
    (h : .missingExecutor scenario ∈ issues (executorFindings id e)) :
    id = scenario ∧ e = none := by
  cases e with
  | none => simpa [executorFindings, eq_comm] using h
  | some b =>
    cases b with
    | executor j shape => cases hs : shape.isStageless <;> simp [executorFindings, hs] at h
    | _ => simp [executorFindings] at h

theorem child?_of_missingExecutor {scenario : BlockId} {b : Block}
    (h : .missingExecutor scenario ∈ issues (scenarioFindings b)) :
    b.id = scenario ∧ b.child? .executor = none := by
  cases b with
  | scenario id name e s =>
    have hs := not_missingExecutor_of_chainFindings scenario id .step s
    simp only [scenarioFindings, issues_met, issues_append, List.mem_append, Option.toList_none,
      List.not_mem_nil, false_or, hs, or_false] at h
    exact eq_none_of_missingExecutor h
  | _ => simp [scenarioFindings] at h

/-! ## Issues of a single block -/

theorem mem_issues_of_mem_defects {fs : List Finding} {i : Issue} (h : i ∈ defects fs) :
    i ∈ issues fs := by
  induction fs with
  | nil => exact h
  | cons f fs ih =>
    cases f with
    | met id d =>
      rw [defects_met] at h
      rw [issues_met]
      exact List.mem_append_right _ (ih h)
    | defect j =>
      rw [defects_defect] at h
      rw [issues_defect]
      exact (List.mem_cons.mp h).elim (fun h => h ▸ List.mem_cons_self)
        fun h => List.mem_cons_of_mem _ (ih h)

theorem mem_issues_of_lookup {fs : List Finding} {id : BlockId} {i : Issue}
    (h : (mets fs).lookup id = some (some i)) : i ∈ issues fs := by
  induction fs with
  | nil => cases h
  | cons f fs ih =>
    cases f with
    | met j d =>
      rw [mets_met, lookup_cons_eq] at h
      rw [issues_met, List.mem_append]
      split at h
      · exact .inl (Option.mem_toList.mpr (Option.some.inj h))
      · exact .inr (ih h)
    | defect j =>
      rw [mets_defect] at h
      rw [issues_defect]
      exact List.mem_cons_of_mem _ (ih h)

/-! ## Names that clash -/

theorem id_of_scenario? {b : Block} {found : Complete.Scenario} (h : scenario? b = some found) :
    b.id = found.id := by
  obtain ⟨rfl, -⟩ := scenario?_eq_some_iff.mp h
  rfl

/-- The scenarios that are read come from scenarios on the canvas, in the same order. -/
theorem sublist_finished (seen : List BlockId) (rs : List Root) :
    ((finished seen rs).map some).Sublist (rs.map fun r => scenario? r.block) := by
  induction rs generalizing seen with
  | nil => exact List.Sublist.refl _
  | cons r rs ih =>
    rw [finished, List.map_append, List.map_cons, ← List.singleton_append]
    refine List.Sublist.append ?_ (ih _)
    split
    · cases scenario? r.block with
      | none => exact List.nil_sublist _
      | some s => exact List.Sublist.refl _
    · exact List.nil_sublist _

end Completeness

namespace Test

open Completeness

theorem describes_of_mem_issues {t : Test} {i : Issue}
    (h : i ∈ Completeness.issues (rootsFindings t.scenarioRoots)) : i.Describes t := by
  have hcaused := causedBy_of_mem_issues h
  cases i with
  | missingExecutor scenario =>
    obtain ⟨r, hr, hi⟩ := mem_issues_rootsFindings.mp h
    exact ⟨r, hr, child?_of_missingExecutor hi⟩
  | duplicateId id => exact hcaused.elim
  | duplicateScenarioName first second function => exact hcaused.elim
  | _ => exact hcaused

theorem describes_of_clash {t : Test} {first second : BlockId} {function : String}
    (h : Clash (fun name => name) t.finishedScenarios first second function) :
    (Issue.duplicateScenarioName first second function).Describes t := by
  obtain ⟨_, s, after, hsplit, rfl, hs, before, f, between, rfl, rfl, hf, -⟩ := h
  have hpair : [f, s].Sublist t.finishedScenarios := by
    rw [hsplit, ← List.singleton_append]
    refine List.Sublist.append ?_ (List.singleton_sublist.mpr List.mem_cons_self)
    exact List.singleton_sublist.mpr List.mem_append_cons_self
  obtain ⟨l, hl, hmap⟩ := List.sublist_map_iff.mp
    ((hpair.map some).trans (sublist_finished [] t.scenarioRoots))
  obtain ⟨a, l, rfl, ha, hmap⟩ := List.map_eq_cons_iff.mp hmap.symm
  obtain ⟨b, l, rfl, hb, hmap⟩ := List.map_eq_cons_iff.mp hmap
  cases List.map_eq_nil_iff.mp hmap
  refine ⟨a, b, hl, id_of_scenario? ha, id_of_scenario? hb, ?_, ?_⟩
  · rw [scenarioName?_of_scenario? ha, Option.map_some, hf]
  · rw [scenarioName?_of_scenario? hb, Option.map_some, hs]

theorem complete_eq_error_issues {t : Test} (h : t.issues ≠ []) : t.complete = .error t.issues := by
  rw [Test.issues] at h ⊢
  cases hcomplete : t.complete with
  | ok c => simp [hcomplete] at h
  | error is => rfl

/-- Every issue is true, and no id is reported twice as a repeated one. -/
theorem describes_of_complete_eq_error {t : Test} {issues : List Issue}
    (h : t.complete = .error issues) :
    (∀ i ∈ issues, i.Describes t) ∧ ∀ id, issues.count (.duplicateId id) ≤ 1 := by
  have hissues : t.issues = issues := by rw [Test.issues, h]
  subst hissues
  refine ⟨fun i hi => ?_, t.count_duplicateId_le⟩
  rw [issues_eq, List.mem_append, mem_issues_start] at hi
  rcases hi with (hi | ⟨id, hi⟩ | ⟨id, hid, rfl⟩) | hi
  · exact describes_of_mem_issues (mem_issues_of_mem_defects hi)
  · exact describes_of_mem_issues (mem_issues_of_lookup hi)
  · -- Every block that was met is a block of a scenario, and none was met twice.
    exact (mem_reported_start.mp hid).trans ((metIds_rootsFindings _).count_le id)
  · obtain ⟨first, second, function, rfl⟩ := mem_nameClashesFrom hi
    exact describes_of_clash (mem_nameClashes_iff.mp hi)

/-- A canvas with a defect of every kind.  The scenario `u` uses the id of an executor again, and
the last two become the same function. -/
def neglected : Test :=
  let load (id : BlockId) := Block.executor id (.constant 1 "1m")
  let read : Request := ⟨"Read", "GET", "/", [], []⟩
  let roots := [
    .scenario "s" "One" none (some (.check "c" [] none (some (load "e")))),
    .scenario "t" "Two" (some (.executor "x" (.ramping none [])))
      (some (.check "d" [] (some (.request "q" read (some (.group "g" "Rest" none none)))) none)),
    .scenario "u" "Three" (some (load "x")) none,
    .scenario "v" "Buy" (some (load "y")) none,
    .scenario "w" "buy" (some (load "z")) none]
  ⟨Library.empty, roots.map fun b => ⟨⟨0, 0⟩, b⟩⟩

theorem describes_of_complete_eq_error_neglected :
    let issues := [.missingExecutor "s", .missingCheckTarget "c",
      .wrongSlotKind "c" .next .executor, .emptyStages "x", .chainedTarget "d" "q",
      .duplicateId "x", .duplicateScenarioName "v" "w" "buy"]
    neglected.complete = .error issues ∧ (∀ i ∈ issues, i.Describes neglected) ∧
      ∀ id, issues.count (.duplicateId id) ≤ 1 := by
  intro issues
  have hissues : neglected.issues = issues := by decide +kernel
  have h : neglected.complete = .error issues :=
    hissues ▸ complete_eq_error_issues (hissues ▸ List.cons_ne_nil _ _)
  exact ⟨h, describes_of_complete_eq_error h⟩

end Test
end LoadTest

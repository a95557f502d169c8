import LoadTest.Proofs.Completeness.Collection
import LoadTest.Proofs.Environment.Leftovers
import LoadTest.Proofs.Script.Functions

/-!
Names that clash.

Names are compared twice: as they are written, and with the environment applied if the test is
complete.  A clash of the second kind is one between functions of the script.  One of the first kind
is reported even if the values of tokens in the names keep the functions apart
(`reports_clash_iff`).
-/

namespace LoadTest

/-- The issue is among those that a test is rejected for. -/
def Compilation.Reports (c : Compilation) (i : Issue) : Prop :=
  ∃ issues, c.result = .error (.incomplete issues) ∧ i ∈ issues

namespace Completeness

open Script (functionName)

/-- The scenario `first` is the first one that becomes `function`. -/
def FirstTo (resolve : String → String) (scenarios : List Complete.Scenario) (function : String)
    (first : BlockId) : Prop :=
  ∃ before s after, scenarios = before ++ s :: after ∧ s.id = first ∧
    functionName (resolve s.name) = function ∧
      ∀ s ∈ before, functionName (resolve s.name) ≠ function

/-- The scenario `second` becomes `function`, and so does one before it; the first of these is
`first`. -/
def Clash (resolve : String → String) (scenarios : List Complete.Scenario)
    (first second : BlockId) (function : String) : Prop :=
  ∃ before s after, scenarios = before ++ s :: after ∧ s.id = second ∧
    functionName (resolve s.name) = function ∧ FirstTo resolve before function first

theorem lookup_functionEntry {resolve : String → String} {scenarios : List Complete.Scenario}
    {function : String} {first : BlockId} :
    (scenarios.map (functionEntry resolve)).lookup function = some first ↔
      FirstTo resolve scenarios function first := by
  rw [List.lookup_eq_some_iff]
  constructor
  · rintro ⟨l, m, hsplit, hl⟩
    obtain ⟨before, rest, rfl, rfl, hrest⟩ := List.map_eq_append_iff.mp hsplit
    obtain ⟨s, after, rfl, hs, rfl⟩ := List.map_eq_cons_iff.mp hrest
    cases hs
    refine ⟨before, s, after, rfl, rfl, rfl, fun u hu => ?_⟩
    exact (bne_iff_ne.mp (hl _ (List.mem_map_of_mem hu))).symm
  · rintro ⟨before, s, after, rfl, rfl, rfl, hbefore⟩
    refine ⟨before.map (functionEntry resolve), after.map (functionEntry resolve), ?_,
      List.forall_mem_map.mpr fun u hu => bne_iff_ne.mpr (hbefore u hu).symm⟩
    rw [List.map_append, List.map_cons]
    rfl

/-- Of the scenarios in front, the one that a clash names is the first to become the function. -/
theorem mem_nameClashes_iff {resolve : String → String} {scenarios : List Complete.Scenario}
    {first second : BlockId} {function : String} :
    .duplicateScenarioName first second function ∈ nameClashes resolve scenarios ↔
      Clash resolve scenarios first second function := by
  rw [nameClashes, mem_nameClashesFrom_iff]
  constructor
  · rintro ⟨before, s, after, hsplit, _, hlookup, hclash⟩
    cases hclash
    exact ⟨before, s, after, hsplit, rfl, rfl, lookup_functionEntry.mp hlookup⟩
  · rintro ⟨before, s, after, hsplit, rfl, rfl, hfirst⟩
    exact ⟨before, s, after, hsplit, first, lookup_functionEntry.mpr hfirst, rfl⟩

theorem exists_clash_iff {resolve : String → String} {scenarios : List Complete.Scenario} :
    (∃ first second function, Clash resolve scenarios first second function) ↔
      ¬ (scenarios.map fun s => functionName (resolve s.name)).Nodup := by
  rw [← nameClashes_eq_nil_iff]
  constructor
  · rintro ⟨first, second, function, hclash⟩
    exact List.ne_nil_of_mem (mem_nameClashes_iff.mpr hclash)
  · intro hne
    obtain ⟨i, hi⟩ := List.exists_mem_of_ne_nil _ hne
    obtain ⟨first, second, function, rfl⟩ := mem_nameClashesFrom hi
    exact ⟨first, second, function, mem_nameClashes_iff.mp hi⟩

/-- The scenarios of a clash become the same function. -/
theorem Clash.exists_scenarios {resolve : String → String} {scenarios : List Complete.Scenario}
    {first second : BlockId} {function : String}
    (h : Clash resolve scenarios first second function) :
    ∃ a ∈ scenarios, ∃ b ∈ scenarios, a.id = first ∧ b.id = second ∧
      functionName (resolve a.name) = functionName (resolve b.name) := by
  obtain ⟨_, b, after, rfl, rfl, hb, ⟨before, a, mid, rfl, rfl, ha, -⟩⟩ := h
  exact ⟨a, by simp, b, by simp, rfl, rfl, ha.trans hb.symm⟩

end Completeness

namespace Test

open Completeness
open Script (functionName)

/-- The scenarios whose names are compared: those that are complete, without ids of earlier ones. -/
def finishedScenarios (t : Test) : List Complete.Scenario :=
  finished [] t.scenarioRoots

theorem scenarios_of_complete {t : Test} {c : Complete.Test} (h : t.complete = .ok c) :
    c.scenarios = t.finishedScenarios := by
  have hfinished := run_readRoots_fst (fun r => kind_of_mem_scenarioRoots (t := t) (r := r))
    .start [] fun id => Iff.rfl
  rw [finishedScenarios, ← hfinished]
  rw [complete_eq] at h
  obtain ⟨⟨⟨roots, all⟩, p⟩, hrun⟩ : ∃ x, (readRoots t.scenarioRoots).run .start = x := ⟨_, rfl⟩
  rw [hrun] at h ⊢
  dsimp only at h
  split at h
  · cases h
    rfl
  · cases h

theorem mem_issues_clash {t : Test} {first second : BlockId} {function : String} :
    .duplicateScenarioName first second function ∈ t.issues ↔
      Clash (fun name => name) t.finishedScenarios first second function := by
  rw [← mem_nameClashes_iff, nameClashes, mem_nameClashesFrom_iff, mem_issues]
  simp only [Issue.OfSlots, Sighting.defect?_eq_some, reduceCtorEq, and_false, exists_false,
    or_false, false_or]
  rfl

/-- A test is rejected for its issues or, if it is complete, for names that clash where the
environment is applied. -/
theorem reports_iff (config : Config) (e : Environment) (t : Test) (i : Issue) :
    (t.compile config e).Reports i ↔ i ∈ t.issues ∨
      (∃ c, t.complete = .ok c) ∧ i ∈ nameClashes e.substitute t.finishedScenarios := by
  rw [Compilation.Reports, result_compile, issues]
  cases hc : t.complete with
  | error issues => simp
  | ok c =>
    rw [← scenarios_of_complete hc]
    dsimp only
    cases nameClashes e.substitute c.scenarios <;> simp

theorem reports_clash (config : Config) (e : Environment) (t : Test) (first second : BlockId)
    (function : String) :
    (t.compile config e).Reports (.duplicateScenarioName first second function) ↔
      Clash (fun name => name) t.finishedScenarios first second function ∨
        (∃ c, t.complete = .ok c) ∧
          Clash e.substitute t.finishedScenarios first second function := by
  rw [reports_iff, mem_issues_clash, mem_nameClashes_iff]

theorem functionNames_of_complete (e : Environment) {t : Test} {c : Complete.Test}
    (h : t.complete = .ok c) :
    (t.finishedScenarios.map fun s => functionName (e.substitute s.name)) = t.functionNames e := by
  rw [functionNames, ← names_of_complete h, ← scenarios_of_complete h, List.map_map, List.map_map]
  rfl

/-- Clashes are reported of names as they are written and, if the test is complete, of the functions
that its scenarios become in the environment.  A clash of names without tokens is always one of
functions. -/
theorem reports_clash_iff (config : Config) (e : Environment) (t : Test) :
    (∀ first second function,
      (t.compile config e).Reports (.duplicateScenarioName first second function) ↔
        Clash (fun name => name) t.finishedScenarios first second function ∨
          (∃ c, t.complete = .ok c) ∧
            Clash e.substitute t.finishedScenarios first second function) ∧
    ((∃ first second function,
      (t.compile config e).Reports (.duplicateScenarioName first second function)) ↔
        ¬ (t.finishedScenarios.map fun s => functionName s.name).Nodup ∨
          (∃ c, t.complete = .ok c) ∧ ¬ (t.functionNames e).Nodup) ∧
    ∀ first second function,
      (t.compile config e).Reports (.duplicateScenarioName first second function) →
        ∃ a ∈ t.finishedScenarios, ∃ b ∈ t.finishedScenarios, a.id = first ∧ b.id = second ∧
          (functionName (e.substitute a.name) = functionName (e.substitute b.name) ∨
            Token.opening <:+: a.name.toList ∨ Token.opening <:+: b.name.toList) := by
  have hreports := t.reports_clash config e
  refine ⟨hreports, ?_, fun first second function hreport => ?_⟩
  · simp only [hreports, exists_or, exists_and_left, exists_clash_iff]
    refine or_congr Iff.rfl (and_congr_right ?_)
    rintro ⟨c, hc⟩
    rw [functionNames_of_complete e hc]
  · rcases (hreports first second function).mp hreport with hclash | ⟨-, hclash⟩
    · obtain ⟨a, ha, b, hb, rfl, rfl, hsame⟩ := hclash.exists_scenarios
      refine ⟨a, ha, b, hb, rfl, rfl, ?_⟩
      by_cases hopening : Token.opening <:+: a.name.toList ∨ Token.opening <:+: b.name.toList
      · exact .inr hopening
      · obtain ⟨hnone, hnone'⟩ := not_or.mp hopening
        rw [e.substitute_of_not_opening hnone, e.substitute_of_not_opening hnone']
        exact .inl hsame
    · obtain ⟨a, ha, b, hb, hfirst, hsecond, hsame⟩ := hclash.exists_scenarios
      exact ⟨a, ha, b, hb, hfirst, hsecond, .inl hsame⟩

/-- A scenario called by a token, and one called like the variable. -/
def entitled : Test :=
  let load (id : BlockId) := Block.executor id (.constant 1 "1m")
  ⟨Library.empty, [⟨⟨0, 0⟩, .scenario "p" "\x7b\x7bteam\x7d\x7d" (some (load "x")) none⟩,
    ⟨⟨0, 200⟩, .scenario "q" "team" (some (load "y")) none⟩]⟩

def payments : Environment :=
  (Environment.new "").withVariable "team" "Payments"

/-- The test is rejected, though its functions would be `payments` and `team`. -/
theorem reports_clash_iff_entitled :
    (entitled.compile Config.default payments).Reports (.duplicateScenarioName "p" "q" "team") ∧
      entitled.finishedScenarios.map (fun s => functionName (payments.substitute s.name)) =
        ["payments", "team"] := by
  obtain ⟨a, b, hscenarios, ha, hb⟩ : ∃ a b, entitled.finishedScenarios = [a, b] ∧
      (a.id = "p" ∧ functionName a.name = "team") ∧ b.id = "q" ∧ functionName b.name = "team" :=
    ⟨_, _, rfl, by decide +kernel, by decide +kernel⟩
  have hclash : Clash (fun name => name) entitled.finishedScenarios "p" "q" "team" := by
    rw [hscenarios]
    exact ⟨[a], b, [], rfl, hb.1, hb.2, [], a, [], rfl, ha.1, ha.2, List.forall_mem_nil _⟩
  exact ⟨((reports_clash_iff _ _ entitled).1 _ _ _).mpr (.inl hclash), by decide +kernel⟩

end Test
end LoadTest

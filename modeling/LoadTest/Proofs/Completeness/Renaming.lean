import Mathlib.Data.Set.Function
import Mathlib.Logic.Equiv.Basic
import LoadTest.Proofs.Completeness.Acceptance
import LoadTest.Proofs.Script.Pretty

/-!
Tests that differ in their ids.

A reading compares ids and does nothing else with them, so a test whose blocks have other ids is
read in the same way as long as different ids stay different.  What is on the canvas besides its
scenarios, where these are and what the library offers does not matter either, nor do the ids of
parameters, headers and expectations.
-/

namespace LoadTest

/-! ## Blocks with other ids -/

/-- The same name and value. -/
structure NameValue.Alike (p p' : NameValue) : Prop where
  name : p.name = p'.name
  value : p.value = p'.value

/-- The same expectation. -/
inductive Expectation.Alike : Expectation → Expectation → Prop
  | status (id id' : String) (code : UInt16) : Alike (status id code) (status id' code)
  | contains (id id' : String) (text : String) : Alike (contains id text) (contains id' text)

/-- The same request, but for the ids of its parameters and headers. -/
structure Request.Alike (r r' : Request) : Prop where
  name : r.name = r'.name
  method : r.method = r'.method
  url : r.url = r'.url
  parameters : List.Forall₂ NameValue.Alike r.parameters r'.parameters
  headers : List.Forall₂ NameValue.Alike r.headers r'.headers

namespace Block

mutual

/-- The same block with its id and all ids below it renamed.  The ids of parameters, headers and
expectations may be any. -/
inductive Renamed (ρ : BlockId → BlockId) : Block → Block → Prop
  | scenario (id : BlockId) (name : String) {e e' s s' : Option Block}
      (executor : RenamedSlot ρ e e') (step : RenamedSlot ρ s s') :
      Renamed ρ (.scenario id name e s) (.scenario (ρ id) name e' s')
  | group (id : BlockId) (name : String) {s s' n n' : Option Block}
      (step : RenamedSlot ρ s s') (next : RenamedSlot ρ n n') :
      Renamed ρ (.group id name s n) (.group (ρ id) name s' n')
  | request (id : BlockId) {r r' : Request} {n n' : Option Block} (request : r.Alike r')
      (next : RenamedSlot ρ n n') : Renamed ρ (.request id r n) (.request (ρ id) r' n')
  | library (id : BlockId) (call : LibraryCall) {n n' : Option Block}
      (next : RenamedSlot ρ n n') : Renamed ρ (.library id call n) (.library (ρ id) call n')
  | check (id : BlockId) {es es' : List Expectation} {t t' n n' : Option Block}
      (expectations : List.Forall₂ Expectation.Alike es es') (target : RenamedSlot ρ t t')
      (next : RenamedSlot ρ n n') : Renamed ρ (.check id es t n) (.check (ρ id) es' t' n')
  | executor (id : BlockId) (shape : Executor) :
      Renamed ρ (.executor id shape) (.executor (ρ id) shape)
  | sleep (id : BlockId) (seconds : Float) {n n' : Option Block} (next : RenamedSlot ρ n n') :
      Renamed ρ (.sleep id seconds n) (.sleep (ρ id) seconds n')

/-- The same in a slot. -/
inductive RenamedSlot (ρ : BlockId → BlockId) : Option Block → Option Block → Prop
  | none : RenamedSlot ρ none none
  | some {b b' : Block} (block : Renamed ρ b b') : RenamedSlot ρ (some b) (some b')

end

theorem Renamed.kind_eq {ρ : BlockId → BlockId} {b b' : Block} (h : b.Renamed ρ b') :
    b'.kind = b.kind := by
  cases h <;> rfl

end Block

/-- The issue with the ids in it renamed. -/
def Issue.renamed (ρ : BlockId → BlockId) : Issue → Issue
  | missingExecutor scenario => missingExecutor (ρ scenario)
  | missingCheckTarget check => missingCheckTarget (ρ check)
  | wrongSlotKind owner slot found => wrongSlotKind (ρ owner) slot found
  | chainedTarget check target => chainedTarget (ρ check) (ρ target)
  | duplicateId id => duplicateId (ρ id)
  | emptyStages executor => emptyStages (ρ executor)
  | duplicateScenarioName first second function =>
    duplicateScenarioName (ρ first) (ρ second) function

namespace Completeness

open Block (Renamed RenamedSlot)

variable {ρ : BlockId → BlockId}

/-! ## Findings -/

def Finding.renamed (ρ : BlockId → BlockId) : Finding → Finding
  | .met id d => .met (ρ id) (d.map (Issue.renamed ρ))
  | .defect i => .defect (i.renamed ρ)

theorem metIds_map_renamed (fs : List Finding) :
    metIds (fs.map (Finding.renamed ρ)) = (metIds fs).map ρ := by
  induction fs with
  | nil => rfl
  | cons f fs ih =>
    cases f with
    | met id d => simp only [List.map_cons, Finding.renamed, metIds_met, ih]
    | defect i => simp only [List.map_cons, Finding.renamed, metIds_defect, ih]

theorem targetFindings_renamed (check : BlockId) {t t' : Option Block} (h : RenamedSlot ρ t t') :
    targetFindings (ρ check) t' = (targetFindings check t).map (Finding.renamed ρ) := by
  cases h with
  | none => rfl
  | some block =>
    cases block with
    | request id request next => cases next <;> rfl
    | _ => rfl

theorem executorFindings_renamed (scenario : BlockId) {e e' : Option Block}
    (h : RenamedSlot ρ e e') :
    executorFindings (ρ scenario) e' = (executorFindings scenario e).map (Finding.renamed ρ) := by
  cases h with
  | none => rfl
  | some block =>
    cases block with
    | executor id shape =>
      by_cases hshape : shape.isStageless = true
      · simp [executorFindings, hshape, Finding.renamed, Issue.renamed]
      · simp [executorFindings, hshape, Finding.renamed]
    | _ => rfl

mutual

theorem stepFindings_renamed : ∀ (b : Block) {b' : Block}, b.Renamed ρ b' →
    stepFindings b' = (stepFindings b).map (Finding.renamed ρ)
  | .group id name s n, _, .group _ _ step next => by
    rw [stepFindings, stepFindings, chainFindings_renamed id .step s step,
      chainFindings_renamed id .next n next, List.map_cons, List.map_append]
    rfl
  | .request id r n, _, .request _ _ next => by
    rw [stepFindings, stepFindings, chainFindings_renamed id .next n next, List.map_cons]
    rfl
  | .library id call n, _, .library _ _ next => by
    rw [stepFindings, stepFindings, chainFindings_renamed id .next n next, List.map_cons]
    rfl
  | .check id es t n, _, .check _ _ target next => by
    rw [stepFindings, stepFindings, targetFindings_renamed id target,
      chainFindings_renamed id .next n next, List.map_cons, List.map_append]
    rfl
  | .sleep id x n, _, .sleep _ _ next => by
    rw [stepFindings, stepFindings, chainFindings_renamed id .next n next, List.map_cons]
    rfl
  | .scenario .., _, .scenario .. | .executor .., _, .executor .. => by
    rw [stepFindings, stepFindings]
    rfl

theorem chainFindings_renamed (owner : BlockId) (slot : Slot) : ∀ (x : Option Block)
    {x' : Option Block}, RenamedSlot ρ x x' →
      chainFindings (ρ owner) slot x' = (chainFindings owner slot x).map (Finding.renamed ρ)
  | none, _, .none => by
    rw [chainFindings, chainFindings]
    rfl
  | some b, _, .some block => by
    rw [chainFindings, chainFindings, block.kind_eq]
    by_cases hslot : slot.accepts b.kind = true
    · rw [if_pos hslot, if_pos hslot, stepFindings_renamed b block]
    · rw [if_neg hslot, if_neg hslot]
      rfl

end

theorem scenarioFindings_renamed {b b' : Block} (h : b.Renamed ρ b') :
    scenarioFindings b' = (scenarioFindings b).map (Finding.renamed ρ) := by
  cases h with
  | scenario id name executor step =>
    rw [scenarioFindings, scenarioFindings, executorFindings_renamed id executor,
      chainFindings_renamed id .step _ step, List.map_cons, List.map_append]
    rfl
  | _ => rfl

/-! ## What is spelled out -/

theorem map_ofNameValue_of_alike {ps ps' : List NameValue}
    (h : List.Forall₂ NameValue.Alike ps ps') :
    ps'.map Plan.Pair.ofNameValue = ps.map Plan.Pair.ofNameValue := by
  induction h with
  | nil => rfl
  | cons hp _ ih =>
    rw [List.map_cons, List.map_cons, ih, Plan.Pair.ofNameValue, ← hp.name, ← hp.value]
    rfl

theorem ofRequest_of_alike {r r' : Request} (h : r.Alike r') :
    Plan.Call.ofRequest r' = Plan.Call.ofRequest r := by
  rw [Plan.Call.ofRequest, Plan.Call.ofRequest, h.name, h.method, h.url,
    map_ofNameValue_of_alike h.parameters, map_ofNameValue_of_alike h.headers]

theorem map_ofExpectation_of_alike {es es' : List Expectation}
    (h : List.Forall₂ Expectation.Alike es es') :
    es'.map Plan.Assertion.ofExpectation = es.map Plan.Assertion.ofExpectation := by
  induction h with
  | nil => rfl
  | cons he _ ih =>
    rw [List.map_cons, List.map_cons, ih]
    cases he <;> rfl

/-- The call that a target becomes. -/
def targetCall? (t : Option Block) : Option Plan.Call :=
  (target? t).map fun x => Plan.Call.ofRequest x.2

theorem targetCall?_renamed {t t' : Option Block} (h : RenamedSlot ρ t t') :
    targetCall? t' = targetCall? t := by
  cases h with
  | none => rfl
  | some block =>
    cases block with
    | request id request next =>
      cases next with
      | none => exact congrArg some (ofRequest_of_alike request)
      | some => rfl
    | _ => rfl

theorem executor?_renamed {e e' : Option Block} (h : RenamedSlot ρ e e') :
    (executor? e').map Prod.snd = (executor? e).map Prod.snd := by
  cases h with
  | none => rfl
  | some block =>
    cases block with
    | executor id shape =>
      by_cases hshape : shape.isStageless = true
      · simp [executor?, hshape]
      · simp [executor?, hshape]
    | _ => rfl

theorem steps?_group (id : BlockId) (name : String) (s n : Option Block) :
    steps? (.group id name s n) =
      (do return (← (chain? .step s).map (.group id name)) :: (← chain? .next n)) := by
  rw [steps?]
  cases chain? .step s <;> rfl

theorem steps?_check (id : BlockId) (es : List Expectation) (t n : Option Block) :
    steps? (.check id es t n) =
      (do return (← (target? t).map fun x => .check id es x.1 x.2) :: (← chain? .next n)) := by
  rw [steps?]
  cases target? t <;> rfl

/-- Chains become the same if their first steps and what is behind these do. -/
theorem map_stepsOf_cons (step step' : Option Complete.Step)
    {rest rest' : Option (List Complete.Step)}
    (hstep : step'.map Plan.Step.ofComplete = step.map Plan.Step.ofComplete)
    (hrest : rest'.map Plan.stepsOf = rest.map Plan.stepsOf) :
    (do return (← step') :: (← rest')).map Plan.stepsOf =
      (do return (← step) :: (← rest)).map Plan.stepsOf := by
  have hcons (step : Option Complete.Step) (rest : Option (List Complete.Step)) :
      (do return (← step) :: (← rest)).map Plan.stepsOf =
        (do return (← step.map Plan.Step.ofComplete) :: (← rest.map Plan.stepsOf)) := by
    cases step with
    | none => rfl
    | some step =>
      cases rest with
      | none => rfl
      | some rest => exact congrArg some (by rw [Plan.stepsOf])
  rw [hcons, hcons, hstep, hrest]

mutual

theorem steps?_renamed : ∀ (b : Block) {b' : Block}, b.Renamed ρ b' →
    (steps? b').map Plan.stepsOf = (steps? b).map Plan.stepsOf
  | .group id name s n, .group _ _ s' _, .group _ _ step next => by
    have hstep (id : BlockId) (x : Option (List Complete.Step)) :
        (x.map (Complete.Step.group id name)).map Plan.Step.ofComplete =
          (x.map Plan.stepsOf).map (Plan.Step.group name) := by
      cases x with
      | none => rfl
      | some steps => exact congrArg some (by rw [Plan.Step.ofComplete])
    rw [steps?_group, steps?_group]
    refine map_stepsOf_cons _ _ ?_ (chain?_renamed .next n next)
    rw [hstep, hstep, chain?_renamed .step s step]
  | .request id r n, _, .request _ request next => by
    rw [steps?, steps?]
    refine map_stepsOf_cons (some _) (some _) ?_ (chain?_renamed .next n next)
    rw [Option.map_some, Option.map_some, Plan.Step.ofComplete, Plan.Step.ofComplete,
      ofRequest_of_alike request]
  | .library id call n, _, .library _ _ next => by
    rw [steps?, steps?]
    refine map_stepsOf_cons (some _) (some _) ?_ (chain?_renamed .next n next)
    rw [Option.map_some, Option.map_some, Plan.Step.ofComplete, Plan.Step.ofComplete]
  | .check id es t n, .check _ es' t' _, .check _ expectations target next => by
    have hstep (id : BlockId) (es : List Expectation) (t : Option Block) :
        ((target? t).map fun x => Complete.Step.check id es x.1 x.2).map Plan.Step.ofComplete =
          (targetCall? t).map fun c => .check c (es.map Plan.Assertion.ofExpectation) := by
      cases htarget : target? t with
      | none => rw [targetCall?, htarget]; rfl
      | some x =>
        rw [targetCall?, htarget]
        exact congrArg some (by rw [Plan.Step.ofComplete])
    rw [steps?_check, steps?_check]
    refine map_stepsOf_cons _ _ ?_ (chain?_renamed .next n next)
    rw [hstep, hstep, targetCall?_renamed target, map_ofExpectation_of_alike expectations]
  | .sleep id x n, _, .sleep _ _ next => by
    rw [steps?, steps?]
    refine map_stepsOf_cons (some _) (some _) ?_ (chain?_renamed .next n next)
    rw [Option.map_some, Option.map_some, Plan.Step.ofComplete, Plan.Step.ofComplete]
  | .scenario .., _, .scenario .. | .executor .., _, .executor .. => by
    rw [steps?, steps?]

theorem chain?_renamed (slot : Slot) : ∀ (x : Option Block) {x' : Option Block},
    RenamedSlot ρ x x' → (chain? slot x').map Plan.stepsOf = (chain? slot x).map Plan.stepsOf
  | none, _, .none => rfl
  | some b, _, .some block => by
    rw [chain?, chain?, block.kind_eq]
    by_cases hslot : slot.accepts b.kind = true
    · rw [if_pos hslot, if_pos hslot, steps?_renamed b block]
    · rw [if_neg hslot, if_neg hslot]

end

/-- What matters of a scenario: its id and what it becomes. -/
def outline (s : Complete.Scenario) : BlockId × Plan.Scenario :=
  (s.id, Plan.Scenario.ofComplete s)

theorem map_outline_scenario? (id : BlockId) (name : String) (e s : Option Block) :
    (scenario? (.scenario id name e s)).map outline = do
      return (id, ⟨name, ← (executor? e).map Prod.snd, ← (chain? .step s).map Plan.stepsOf⟩) := by
  rw [scenario?]
  cases executor? e with
  | none => rfl
  | some x => cases chain? .step s <;> rfl

theorem scenario?_renamed {b b' : Block} (h : b.Renamed ρ b') :
    (scenario? b').map outline = ((scenario? b).map outline).map (Prod.map ρ id) := by
  cases h with
  | scenario id name executor step =>
    rw [map_outline_scenario?, map_outline_scenario?, executor?_renamed executor,
      chain?_renamed .step _ step]
    cases (executor? _).map Prod.snd with
    | none => rfl
    | some shape => cases (chain? .step _).map Plan.stepsOf <;> rfl
  | _ => rfl

/-! ## Progress -/

def Progress.renamed (ρ : BlockId → BlockId) (p : Progress) : Progress :=
  ⟨p.issues.map (Issue.renamed ρ), p.seen.map ρ, p.reported.map ρ⟩

/-- Every id that was met is in `S`. -/
structure Progress.Within (S : Set BlockId) (p : Progress) : Prop where
  seen : ∀ i ∈ p.seen, i ∈ S
  reported : ∀ i ∈ p.reported, i ∈ S

section InjOn

variable {S : Set BlockId} (hρ : Set.InjOn ρ S)

include hρ

theorem map_contains {l : List BlockId} (hl : ∀ i ∈ l, i ∈ S) {i : BlockId} (hi : i ∈ S) :
    (l.map ρ).contains (ρ i) = l.contains i := by
  rw [Bool.eq_iff_iff, List.contains_iff_mem, List.contains_iff_mem, List.mem_map]
  constructor
  · rintro ⟨j, hj, he⟩
    rwa [← hρ (hl j hj) hi he]
  · exact fun hmem => ⟨i, hmem, rfl⟩

/-- Only whether an id was met before decides what becomes of a finding. -/
theorem note_renamed {p : Progress} (hp : p.Within S) {f : Finding}
    (hf : ∀ i ∈ metIds [f], i ∈ S) :
    note (p.renamed ρ) (f.renamed ρ) = (note p f).renamed ρ ∧ (note p f).Within S := by
  cases f with
  | defect i => exact ⟨by simp [note, Finding.renamed, Progress.renamed], hp.seen, hp.reported⟩
  | met id d =>
    have hid : id ∈ S := hf id List.mem_cons_self
    have hseen : (p.renamed ρ).seen.contains (ρ id) = p.seen.contains id :=
      map_contains hρ hp.seen hid
    have hreported : (p.renamed ρ).reported.contains (ρ id) = p.reported.contains id :=
      map_contains hρ hp.reported hid
    simp only [note, Finding.renamed, hseen, hreported]
    split_ifs
    · exact ⟨rfl, hp⟩
    · exact ⟨by simp [Progress.renamed, Issue.renamed], hp.seen,
        List.forall_mem_cons.mpr ⟨hid, hp.reported⟩⟩
    · exact ⟨by cases d <;> simp [Progress.renamed],
        List.forall_mem_cons.mpr ⟨hid, hp.seen⟩, hp.reported⟩

theorem noteAll_renamed {fs : List Finding} {p : Progress} (hp : p.Within S)
    (hfs : ∀ i ∈ metIds fs, i ∈ S) :
    noteAll (p.renamed ρ) (fs.map (Finding.renamed ρ)) = (noteAll p fs).renamed ρ ∧
      (noteAll p fs).Within S := by
  induction fs generalizing p with
  | nil => exact ⟨rfl, hp⟩
  | cons f fs ih =>
    rw [← List.singleton_append, metIds_append, List.forall_mem_append] at hfs
    obtain ⟨hnote, hwithin⟩ := note_renamed hρ hp hfs.1
    rw [List.map_cons, noteAll, List.foldl_cons, hnote, noteAll, List.foldl_cons]
    exact ih hwithin hfs.2

theorem allNew_renamed {seen ids : List BlockId} (hseen : ∀ i ∈ seen, i ∈ S)
    (hids : ∀ i ∈ ids, i ∈ S) : AllNew (seen.map ρ) (ids.map ρ) ↔ AllNew seen ids := by
  have hnodup : (ids.map ρ).Nodup ↔ ids.Nodup :=
    ⟨List.Nodup.of_map ρ, fun h => h.map_on fun i hi j hj he => hρ (hids i hi) (hids j hj) he⟩
  have hmem : ∀ i ∈ ids, ρ i ∉ seen.map ρ ↔ i ∉ seen := by
    intro i hi
    have hcontains := map_contains hρ hseen (hids i hi)
    rw [Bool.eq_iff_iff, List.contains_iff_mem, List.contains_iff_mem] at hcontains
    exact not_congr hcontains
  rw [AllNew, AllNew, hnodup, List.forall_mem_map]
  exact and_congr_right fun _ => forall₂_congr hmem

theorem outcome_renamed {p : Progress} (hp : p.Within S) {b b' : Block} (h : b.Renamed ρ b')
    (hb : ∀ i ∈ metIds (scenarioFindings b), i ∈ S) :
    (outcome (p.renamed ρ) (scenarioFindings b') (scenario? b')).1.map outline =
      ((outcome p (scenarioFindings b) (scenario? b)).1.map outline).map (Prod.map ρ id) := by
  have hnew : AllNew (p.renamed ρ).seen (metIds (scenarioFindings b')) ↔
      AllNew p.seen (metIds (scenarioFindings b)) := by
    rw [scenarioFindings_renamed h, metIds_map_renamed]
    exact allNew_renamed hρ hp.seen hb
  by_cases hfresh : AllNew p.seen (metIds (scenarioFindings b))
  · rw [outcome, outcome, if_pos (hnew.mpr hfresh), if_pos hfresh, scenario?_renamed h]
  · rw [outcome, outcome, if_neg fun hn => hfresh (hnew.mp hn), if_neg hfresh]
    rfl

/-- The scenarios that are found, whether all are, and the progress are the same but for the ids. -/
theorem run_readRoots_renamed {rs rs' : List Root}
    (h : List.Forall₂ (fun r r' => r.block.Renamed ρ r'.block) rs rs') {p : Progress}
    (hp : p.Within S) (hrs : ∀ i ∈ metIds (rootsFindings rs), i ∈ S) :
    ((readRoots rs').run (p.renamed ρ)).1.1.map (fun r => outline r.scenario) =
        (((readRoots rs).run p).1.1.map fun r => outline r.scenario).map (Prod.map ρ id) ∧
      ((readRoots rs').run (p.renamed ρ)).1.2 = ((readRoots rs).run p).1.2 ∧
      ((readRoots rs').run (p.renamed ρ)).2 = ((readRoots rs).run p).2.renamed ρ := by
  induction h generalizing p with
  | nil => exact ⟨rfl, rfl, rfl⟩
  | @cons r r' rs rs' hr _ ih =>
    rw [rootsFindings_cons, metIds_append, List.forall_mem_append] at hrs
    obtain ⟨hnote, hwithin⟩ := noteAll_renamed hρ hp hrs.1
    obtain ⟨hroots, hall, hprogress⟩ := ih hwithin hrs.2
    have hfound := outcome_renamed hρ hp hr hrs.1
    rw [← scenarioFindings_renamed hr] at hnote
    simp only [readRoots, run_bind, run_readScenario, outcome_snd, hnote]
    cases hone : (outcome p (scenarioFindings r.block) (scenario? r.block)).1 with
    | none =>
      rw [hone, Option.map_none, Option.map_none, Option.map_eq_none_iff] at hfound
      rw [hfound]
      exact ⟨hroots, rfl, hprogress⟩
    | some found =>
      rw [hone, Option.map_some, Option.map_some, Option.map_eq_some_iff] at hfound
      obtain ⟨found', hone', hfound'⟩ := hfound
      rw [hone']
      exact ⟨congrArg₂ List.cons hfound' hroots, hall, hprogress⟩

end InjOn

/-! ## Names that clash -/

theorem lookup_map_renamed (known : List (String × BlockId)) (function : String) :
    (known.map (Prod.map id ρ)).lookup function = (known.lookup function).map ρ := by
  induction known with
  | nil => rfl
  | cons k known ih =>
    obtain ⟨f, i⟩ := k
    rw [List.map_cons, Prod.map, List.lookup_cons, List.lookup_cons, ih, id]
    cases function == f <;> rfl

theorem nameClashesFrom_renamed (resolve : String → String) (known : List (String × BlockId))
    {ss ss' : List Complete.Scenario} (h : ss'.map outline = (ss.map outline).map (Prod.map ρ id)) :
    nameClashesFrom resolve (known.map (Prod.map id ρ)) ss' =
      (nameClashesFrom resolve known ss).map (Issue.renamed ρ) := by
  induction ss generalizing known ss' with
  | nil =>
    rw [List.map_eq_nil_iff.mp h]
    rfl
  | cons s ss ih =>
    obtain ⟨s', ss', rfl, hs, hss⟩ := List.map_eq_cons_iff.mp h
    have hid : s'.id = ρ s.id := congrArg Prod.fst hs
    have hname : s'.name = s.name := congrArg (fun x => x.2.name) hs
    rw [nameClashesFrom, nameClashesFrom, hid, hname, lookup_map_renamed]
    cases known.lookup (Script.functionName (resolve s.name)) with
    | some first =>
      show _ :: _ = (_ :: _).map (Issue.renamed ρ)
      rw [List.map_cons, ← ih known hss]
      rfl
    | none => exact ih ((Script.functionName (resolve s.name), s.id) :: known) hss

theorem nameClashes_renamed (resolve : String → String) {ss ss' : List Complete.Scenario}
    (h : ss'.map outline = (ss.map outline).map (Prod.map ρ id)) :
    nameClashes resolve ss' = (nameClashes resolve ss).map (Issue.renamed ρ) :=
  nameClashesFrom_renamed resolve [] h

end Completeness

/-! ## Compilations -/

namespace Test

open Completeness (outline)

variable {ρ : BlockId → BlockId} {t t' : Test}

/-- The scenarios of the two tests are the same one by one, with the ids of their blocks renamed.
Everything else about the tests may differ. -/
def Renamed (ρ : BlockId → BlockId) (t t' : Test) : Prop :=
  List.Forall₂ (fun r r' => r.block.Renamed ρ r'.block) t.scenarioRoots t'.scenarioRoots

/-- The ids of the scenarios on the canvas and of the blocks below them. -/
def scenarioIds (t : Test) : Set BlockId :=
  {i | ∃ b ∈ t.scenarioBlocks, b.id = i}

/-- What reading the one test comes to, given what reading the other does. -/
theorem complete_renamed (hρ : Set.InjOn ρ t.scenarioIds) (h : t.Renamed ρ t') :
    (∃ c c', t.complete = .ok c ∧ t'.complete = .ok c' ∧
        c'.scenarios.map outline = (c.scenarios.map outline).map (Prod.map ρ id)) ∨
      ∃ issues, t.complete = .error issues ∧
        t'.complete = .error (issues.map (Issue.renamed ρ)) := by
  have hstart : Completeness.Progress.start.Within t.scenarioIds := by
    constructor <;> simp [Completeness.Progress.start]
  have hmet : ∀ i ∈ Completeness.metIds (Completeness.rootsFindings t.scenarioRoots),
      i ∈ t.scenarioIds := by
    intro i hi
    exact List.mem_map.mp ((Completeness.metIds_rootsFindings t.scenarioRoots).subset hi)
  obtain ⟨hroots, hall, hprogress⟩ := Completeness.run_readRoots_renamed hρ h hstart hmet
  rw [show Completeness.Progress.start.renamed ρ = .start from rfl] at hroots hall hprogress
  rw [complete_eq, complete_eq]
  obtain ⟨⟨⟨roots, all⟩, p⟩, hrun⟩ : ∃ x, (Completeness.readRoots t.scenarioRoots).run .start = x :=
    ⟨_, rfl⟩
  obtain ⟨⟨⟨roots', all'⟩, p'⟩, hrun'⟩ :
      ∃ x, (Completeness.readRoots t'.scenarioRoots).run .start = x := ⟨_, rfl⟩
  rw [hrun, hrun'] at hroots hall hprogress
  rw [hrun, hrun']
  obtain rfl : all' = all := hall
  obtain rfl : p' = p.renamed ρ := hprogress
  have hscenarios : (roots'.map Complete.Root.scenario).map outline =
      ((roots.map Complete.Root.scenario).map outline).map (Prod.map ρ id) := by
    simp only [List.map_map] at hroots ⊢
    exact hroots
  have hissues := congrArg ((p.issues.map (Issue.renamed ρ)) ++ ·)
    (Completeness.nameClashes_renamed (fun name => name) hscenarios)
  simp only [← List.map_append] at hissues
  simp only [Completeness.Progress.renamed, hissues, List.isEmpty_map]
  split_ifs
  · exact Or.inl ⟨_, _, rfl, rfl, hscenarios⟩
  · exact Or.inr ⟨_, rfl, rfl⟩

/-- Complete tests that differ in their ids have the same plan. -/
theorem ofComplete_eq_of_outlines {c c' : Complete.Test}
    (h : c'.scenarios.map outline = (c.scenarios.map outline).map (Prod.map ρ id)) :
    Plan.ofComplete c' = Plan.ofComplete c := by
  have hplans := congrArg (List.map Prod.snd) h
  simp only [List.map_map] at hplans
  exact congrArg Plan.mk hplans

/-- Tests that differ in the ids of their blocks, in what is on the canvas besides the scenarios, in
positions, libraries and the ids of parameters, headers and expectations compile to the same script
with the same warnings, or have the same issues but for the ids. -/
theorem compile_renamed (hρ : Set.InjOn ρ t.scenarioIds) (h : t.Renamed ρ t') (config : Config)
    (e : Environment) :
    ((∃ script, (t.compile config e).result = .ok script ∧
        (t'.compile config e).result = .ok script) ∨
      ∃ issues, (t.compile config e).result = .error (.incomplete issues) ∧
        (t'.compile config e).result = .error (.incomplete (issues.map (Issue.renamed ρ)))) ∧
    (t.compile config e).warnings = (t'.compile config e).warnings := by
  rcases complete_renamed hρ h with ⟨c, c', hc, hc', houtlines⟩ | ⟨issues, hc, hc'⟩
  · have hplan := ofComplete_eq_of_outlines houtlines
    have hclashes := Completeness.nameClashes_renamed e.substitute houtlines
    rw [result_compile, result_compile, compile, compile, compileWith, compileWith, hc, hc']
    simp only [hplan, hclashes]
    cases Completeness.nameClashes e.substitute c.scenarios with
    | nil => exact ⟨Or.inl ⟨_, rfl, rfl⟩, rfl⟩
    | cons issue issues => exact ⟨Or.inr ⟨issue :: issues, rfl, rfl⟩, rfl⟩
  · rw [result_compile, result_compile, compile, compile, compileWith, compileWith, hc, hc']
    exact ⟨Or.inr ⟨issues, rfl, rfl⟩, rfl⟩

/-- A scenario with one request, which has a header. -/
def accepting (ρ : BlockId → BlockId) (header : String) : Block :=
  let request : Request := ⟨"Read", "get", "/", [], [⟨header, "Accept", "*"⟩]⟩
  .scenario (ρ "s") "Read" (some (.executor (ρ "x") (.constant 1 "1m")))
    (some (.request (ρ "p") request none))

def clean : Test :=
  ⟨Library.empty, [⟨⟨0, 0⟩, accepting id "h"⟩]⟩

/-- The same scenario elsewhere, two of its ids swapped, behind a block that has one of them too. -/
def littered : Test :=
  ⟨Library.empty, [⟨⟨0, 0⟩, .executor "x" (.constant 2 "2m")⟩,
    ⟨⟨3, 4⟩, accepting (Equiv.swap "x" "p") "k"⟩]⟩

theorem compile_renamed_littered :
    Set.InjOn (Equiv.swap "x" "p") clean.scenarioIds ∧ clean.Renamed (Equiv.swap "x" "p") littered ∧
      ((∃ script, (clean.compile Config.default .empty).result = .ok script ∧
          (littered.compile Config.default .empty).result = .ok script) ∨
        ∃ issues, (clean.compile Config.default .empty).result = .error (.incomplete issues) ∧
          (littered.compile Config.default .empty).result =
            .error (.incomplete (issues.map (Issue.renamed (Equiv.swap "x" "p"))))) ∧
      (clean.compile Config.default .empty).warnings =
        (littered.compile Config.default .empty).warnings := by
  have hinj : Set.InjOn (Equiv.swap "x" "p") clean.scenarioIds :=
    (Equiv.swap "x" "p").injective.injOn
  have hrenamed : clean.Renamed (Equiv.swap "x" "p") littered := by
    refine .cons (.scenario "s" "Read" (.some (.executor "x" _)) (.some ?_)) .nil
    refine .request "p" ?_ .none
    exact ⟨rfl, rfl, rfl, .nil, .cons ⟨rfl, rfl⟩ .nil⟩
  exact ⟨hinj, hrenamed, compile_renamed hinj hrenamed Config.default .empty⟩

end Test
end LoadTest

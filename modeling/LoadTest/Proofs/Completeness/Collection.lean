import LoadTest.Proofs.Completeness.Sightings
import Mathlib.Data.List.Induction

/-!
Which issues are reported.

An issue of a block with its slots is always reported.  What is wrong with an executor or a target
itself is reported if its id is met there for the first time, and a clash of names if both
scenarios are complete and no id of theirs was met before.
-/

namespace LoadTest
namespace Completeness

/-! ## What the progress of a reading keeps -/

theorem noteAll_concat (p : Progress) (fs : List Finding) (f : Finding) :
    noteAll p (fs ++ [f]) = note (noteAll p fs) f := by
  rw [noteAll_append]
  rfl

theorem mem_seen_start {fs : List Finding} {id : BlockId} :
    id ∈ (noteAll .start fs).seen ↔ id ∈ metIds fs := by
  rw [mem_seen_noteAll]
  exact ⟨fun h => h.elim (fun h => h) fun h => absurd h List.not_mem_nil, Or.inl⟩

/-- The progress after a block whose id is met for the first time. -/
theorem note_of_not_mem {fs : List Finding} {id : BlockId} (d : Option Issue)
    (h : id ∉ metIds fs) : note (noteAll .start fs) (.met id d) =
      { noteAll .start fs with
        issues := (noteAll .start fs).issues ++ d.toList, seen := id :: (noteAll .start fs).seen } := by
  have hseen : (noteAll .start fs).seen.contains id = false := by
    rw [Bool.eq_false_iff, Ne, List.contains_iff_mem, mem_seen_start]
    exact h
  rw [note, if_neg (by rw [hseen]; exact Bool.false_ne_true)]

/-- The progress after a block whose id was met before. -/
theorem note_of_mem {fs : List Finding} {id : BlockId} (d : Option Issue)
    (h : id ∈ metIds fs) : note (noteAll .start fs) (.met id d) =
      if id ∈ (noteAll .start fs).reported then noteAll .start fs
      else { noteAll .start fs with
        issues := (noteAll .start fs).issues ++ [.duplicateId id],
        reported := id :: (noteAll .start fs).reported } := by
  simp only [note, List.contains_iff_mem, if_pos (mem_seen_start.mpr h)]

/-- An id is reported when it is met for the second time. -/
theorem mem_reported_start {fs : List Finding} {id : BlockId} :
    id ∈ (noteAll .start fs).reported ↔ 2 ≤ (metIds fs).count id := by
  induction fs using List.reverseRecOn with
  | nil => simp [noteAll, Progress.start]
  | append_singleton fs f ih =>
    rw [noteAll_concat, metIds_append]
    cases f with
    | defect i => simpa [note] using ih
    | met j d =>
      rw [metIds_met, metIds_nil, List.count_append, List.count_singleton]
      by_cases hj : j ∈ metIds fs
      · have hpos := List.count_pos_iff.mpr hj
        rw [note_of_mem d hj]
        split
        · next hreported =>
          by_cases hid : j = id
          · subst hid
            rw [ih] at hreported
            simp [ih, hreported]
            omega
          · simpa [hid] using ih
        · by_cases hid : j = id
          · subst hid
            simp
            omega
          · simp [hid, Ne.symm hid, ih]
      · have hzero := List.count_eq_zero.mpr hj
        rw [note_of_not_mem d hj]
        by_cases hid : j = id
        · subst hid
          simp [ih, hzero]
        · simp [hid, ih]

theorem lookup_mets_eq_none {fs : List Finding} {id : BlockId} :
    (mets fs).lookup id = none ↔ id ∉ metIds fs := by
  rw [metIds_eq_map_mets, List.lookup_eq_none_iff, List.mem_map, not_exists]
  constructor
  · rintro h e ⟨he, rfl⟩
    exact bne_iff_ne.mp (h e he) rfl
  · intro h e he
    exact bne_iff_ne.mpr fun heq => h e ⟨he, heq.symm⟩

/-- What the first block of an id has wrong does not change with a further block. -/
theorem lookup_mets_concat {fs : List Finding} {id j : BlockId} (h : id ≠ j ∨ j ∈ metIds fs)
    (d : Option Issue) : (mets fs ++ [(j, d)]).lookup id = (mets fs).lookup id := by
  rw [List.lookup_append]
  cases hfirst : (mets fs).lookup id with
  | some x => rfl
  | none =>
    have hne : id ≠ j := by
      intro heq
      subst heq
      exact lookup_mets_eq_none.mp hfirst (h.resolve_left fun h => h rfl)
    simp [List.lookup_cons, beq_eq_false_iff_ne.mpr hne]

/-- A block whose id is new adds what it has wrong itself. -/
theorem exists_lookup_concat {fs : List Finding} {j : BlockId} (hj : j ∉ metIds fs)
    {d : Option Issue} {i : Issue} :
    (∃ id, (mets fs ++ [(j, d)]).lookup id = some (some i)) ↔
      (∃ id, (mets fs).lookup id = some (some i)) ∨ d = some i := by
  have hfirst := lookup_mets_eq_none.mpr hj
  have hlast : (mets fs ++ [(j, d)]).lookup j = some d := by
    rw [List.lookup_append, hfirst]
    simp
  constructor
  · rintro ⟨id, hid⟩
    by_cases hne : id = j
    · rw [hne, hlast] at hid
      exact Or.inr (Option.some.inj hid)
    · rw [lookup_mets_concat (Or.inl hne)] at hid
      exact Or.inl ⟨id, hid⟩
  · rintro (⟨id, hid⟩ | hd)
    · refine ⟨id, ?_⟩
      rw [List.lookup_append, hid]
      rfl
    · exact ⟨j, by rw [hlast, hd]⟩

/-- What is reported of the findings: the issues with slots, what is wrong with the first block of
an id, and the ids that are met more than once. -/
theorem mem_issues_start {fs : List Finding} {i : Issue} :
    i ∈ (noteAll .start fs).issues ↔ i ∈ defects fs ∨
      (∃ id, (mets fs).lookup id = some (some i)) ∨
        ∃ id ∈ (noteAll .start fs).reported, i = .duplicateId id := by
  induction fs using List.reverseRecOn with
  | nil => simp [noteAll, Progress.start]
  | append_singleton fs f ih =>
    rw [noteAll_concat, defects_append, mets_append]
    cases f with
    | defect j =>
      show i ∈ (noteAll .start fs).issues ++ [j] ↔ _
      rw [List.mem_append, ih, defects_defect, defects_nil, List.mem_append, mets_defect, mets_nil,
        List.append_nil]
      exact or_right_comm
    | met j d =>
      rw [defects_met, defects_nil, List.append_nil, mets_met, mets_nil]
      by_cases hj : j ∈ metIds fs
      · simp only [lookup_mets_concat (Or.inr hj), note_of_mem d hj]
        by_cases hreported : j ∈ (noteAll .start fs).reported
        · rw [if_pos hreported, ih]
        · rw [if_neg hreported]
          simp only [List.mem_append, ih, List.mem_cons, List.mem_nil_iff, or_false,
            exists_eq_or_imp]
          exact iff_of_eq (by ac_rfl)
      · rw [note_of_not_mem d hj]
        simp only [List.mem_append, ih, exists_lookup_concat hj, Option.mem_toList]
        exact iff_of_eq (by ac_rfl)

/-- An id is reported once. -/
theorem nodup_reported (fs : List Finding) : (noteAll .start fs).reported.Nodup := by
  induction fs using List.reverseRecOn with
  | nil => exact List.nodup_nil
  | append_singleton fs f ih =>
    rw [noteAll_concat]
    cases f with
    | defect j => exact ih
    | met j d =>
      by_cases hj : j ∈ metIds fs
      · rw [note_of_mem d hj]
        by_cases hreported : j ∈ (noteAll .start fs).reported
        · rw [if_pos hreported]
          exact ih
        · rw [if_neg hreported]
          exact List.nodup_cons.mpr ⟨hreported, ih⟩
      · rw [note_of_not_mem d hj]
        exact ih

/-- No finding by itself is a repeated id. -/
def NoRepeats (fs : List Finding) : Prop :=
  (∀ i ∈ defects fs, ∀ id, i ≠ .duplicateId id) ∧
    ∀ e ∈ mets fs, ∀ id, e.2 ≠ some (.duplicateId id)

theorem count_issues_start {fs : List Finding} (h : NoRepeats fs) (id : BlockId) :
    (noteAll .start fs).issues.count (.duplicateId id) =
      (noteAll .start fs).reported.count id := by
  induction fs using List.reverseRecOn with
  | nil => rfl
  | append_singleton fs f ih =>
    rw [NoRepeats, defects_append, mets_append, List.forall_mem_append, List.forall_mem_append] at h
    have ih := ih ⟨h.1.1, h.2.1⟩
    rw [noteAll_concat]
    cases f with
    | defect j =>
      have hne : j ≠ .duplicateId id := h.1.2 j List.mem_cons_self id
      show ((noteAll .start fs).issues ++ [j]).count _ = (noteAll .start fs).reported.count id
      have hzero : [j].count (.duplicateId id) = 0 :=
        List.count_eq_zero.mpr fun h => hne (List.mem_singleton.mp h).symm
      rw [List.count_append, ih, hzero, Nat.add_zero]
    | met j d =>
      have hne : d ≠ some (.duplicateId id) := h.2.2 (j, d) List.mem_cons_self id
      by_cases hj : j ∈ metIds fs
      · rw [note_of_mem d hj]
        by_cases hreported : j ∈ (noteAll .start fs).reported
        · rw [if_pos hreported, ih]
        · rw [if_neg hreported]
          simp [List.count_append, List.count_cons, ih]
      · have hzero : d.toList.count (.duplicateId id) = 0 :=
          List.count_eq_zero.mpr fun h => hne (Option.mem_toList.mp h)
        rw [note_of_not_mem d hj, List.count_append, ih, hzero, Nat.add_zero]

/-! ## Names that clash -/

/-- The function that a scenario becomes, with the scenario. -/
def functionEntry (resolve : String → String) (s : Complete.Scenario) : String × BlockId :=
  (Script.functionName (resolve s.name), s.id)

theorem lookup_cons_eq {α : Type} {k g : String} (x : α) (l : List (String × α)) :
    ((k, x) :: l).lookup g = if g = k then some x else l.lookup g := by
  rw [List.lookup_cons]
  by_cases h : g = k
  · rw [if_pos h, beq_iff_eq.mpr h]
  · rw [if_neg h, beq_eq_false_iff_ne.mpr h]

theorem lookup_insert {l m : List (String × BlockId)} {e : String × BlockId} {g : String} :
    (l ++ e :: m).lookup g =
      if l.lookup e.1 = none then (e :: l ++ m).lookup g else (l ++ m).lookup g := by
  obtain ⟨k, x⟩ := e
  rw [List.cons_append, lookup_cons_eq, List.lookup_append, lookup_cons_eq, List.lookup_append]
  by_cases hg : g = k
  · subst hg
    cases l.lookup g <;> simp
  · simp [hg]

theorem lookup_entry (l : List Sighting) (id : BlockId) :
    (l.map Sighting.entry).lookup id = (l.find? fun s => s.id = id).map Sighting.defect? := by
  induction l with
  | nil => rfl
  | cons s l ih =>
    rw [List.map_cons, List.find?_cons, Sighting.entry, lookup_cons_eq, ih]
    by_cases h : s.id = id
    · simp [h]
    · simp [h, Ne.symm h]

/-- A list is split in front of one of its members: the first one, or one of the rest. -/
theorem exists_split_cons {α : Type} {a : α} {l : List α} {P : List α → α → Prop} :
    (∃ before b after, a :: l = before ++ b :: after ∧ P before b) ↔
      P [] a ∨ ∃ before b after, l = before ++ b :: after ∧ P (a :: before) b := by
  constructor
  · rintro ⟨before, b, after, heq, h⟩
    rw [List.cons_eq_append_iff] at heq
    rcases heq with ⟨rfl, heq⟩ | ⟨before, rfl, heq⟩
    · cases heq
      exact Or.inl h
    · exact Or.inr ⟨before, b, after, heq, h⟩
  · rintro (h | ⟨before, b, after, heq, h⟩)
    · exact ⟨[], a, l, rfl, h⟩
    · exact ⟨a :: before, b, after, by rw [heq]; rfl, h⟩

/-- The issue that a scenario clashes with the first one before it that becomes the same function. -/
def ClashOf (resolve : String → String) (known : List (String × BlockId)) (i : Issue)
    (before : List Complete.Scenario) (s : Complete.Scenario) : Prop :=
  ∃ first, (known ++ before.map (functionEntry resolve)).lookup (functionEntry resolve s).1 =
    some first ∧ i = .duplicateScenarioName first s.id (functionEntry resolve s).1

theorem nameClashesFrom_of_eq_some {resolve : String → String} {known : List (String × BlockId)}
    {s : Complete.Scenario} {first : BlockId} (rest : List Complete.Scenario)
    (h : known.lookup (functionEntry resolve s).1 = some first) :
    nameClashesFrom resolve known (s :: rest) =
      .duplicateScenarioName first s.id (functionEntry resolve s).1 ::
        nameClashesFrom resolve known rest := by
  rw [functionEntry] at h ⊢
  rw [nameClashesFrom, h]

theorem nameClashesFrom_of_eq_none {resolve : String → String} {known : List (String × BlockId)}
    {s : Complete.Scenario} (rest : List Complete.Scenario)
    (h : known.lookup (functionEntry resolve s).1 = none) :
    nameClashesFrom resolve known (s :: rest) =
      nameClashesFrom resolve (functionEntry resolve s :: known) rest := by
  rw [functionEntry] at h ⊢
  rw [nameClashesFrom, h]

theorem mem_nameClashesFrom_iff {resolve : String → String} {known : List (String × BlockId)}
    {scenarios : List Complete.Scenario} {i : Issue} :
    i ∈ nameClashesFrom resolve known scenarios ↔ ∃ before s after,
      scenarios = before ++ s :: after ∧ ClashOf resolve known i before s := by
  induction scenarios generalizing known with
  | nil => simp [nameClashesFrom]
  | cons s rest ih =>
    rw [exists_split_cons]
    cases hknown : known.lookup (functionEntry resolve s).1 with
    | some first =>
      have hrest : ∀ before s', ClashOf resolve known i (s :: before) s' ↔
          ClashOf resolve known i before s' := by
        intro before s'
        rw [ClashOf, ClashOf, List.map_cons, lookup_insert,
          if_neg (by rw [hknown]; exact Option.some_ne_none _)]
      have hfirst : ClashOf resolve known i [] s ↔
          i = .duplicateScenarioName first s.id (functionEntry resolve s).1 := by
        rw [ClashOf, List.map_nil, List.append_nil, hknown]
        simp
      rw [nameClashesFrom_of_eq_some rest hknown]
      simp only [List.mem_cons, ih, hfirst, hrest]
    | none =>
      have hrest : ∀ before s', ClashOf resolve known i (s :: before) s' ↔
          ClashOf resolve (functionEntry resolve s :: known) i before s' := by
        intro before s'
        rw [ClashOf, ClashOf, List.map_cons, lookup_insert, if_pos hknown]
      have hfirst : ¬ ClashOf resolve known i [] s := by
        rintro ⟨first, hlookup, -⟩
        rw [List.map_nil, List.append_nil, hknown] at hlookup
        cases hlookup
      rw [nameClashesFrom_of_eq_none rest hknown]
      simp only [ih, hrest, hfirst, false_or]

/-! ## The canvas -/

/-- The complete scenarios whose blocks have ids that differ from each other and from all that
were met before. -/
def finished (seen : List BlockId) : List Root → List Complete.Scenario
  | [] => []
  | r :: rs =>
    let ids := r.block.met.map Sighting.id
    (if AllNew seen ids then (scenario? r.block).toList else []) ++ finished (ids ++ seen) rs

theorem metIds_eq_map_id {b : Block} (hb : b.kind = .scenario) :
    metIds (scenarioFindings b) = b.met.map Sighting.id := by
  rw [metIds_eq_map_mets, mets_scenarioFindings hb, List.map_map]
  rfl

theorem run_readRoots_fst {rs : List Root} (hkind : ∀ r ∈ rs, r.block.kind = .scenario)
    (p : Progress) (seen : List BlockId) (hseen : ∀ id, id ∈ p.seen ↔ id ∈ seen) :
    ((readRoots rs).run p).1.1.map Complete.Root.scenario = finished seen rs := by
  induction rs generalizing p seen with
  | nil => rfl
  | cons r rs ih =>
    rw [List.forall_mem_cons] at hkind
    have hids := metIds_eq_map_id hkind.1
    have hnew : AllNew p.seen (metIds (scenarioFindings r.block)) ↔
        AllNew seen (r.block.met.map Sighting.id) := by
      rw [hids, AllNew, AllNew]
      simp only [hseen]
    have hrest := ih hkind.2 (noteAll p (scenarioFindings r.block))
      (r.block.met.map Sighting.id ++ seen) fun id => by
        rw [mem_seen_noteAll, hids, List.mem_append, hseen]
    rw [readRoots, run_bind, run_readScenario, outcome_snd, run_bind, finished, ← hrest, outcome]
    by_cases h : AllNew seen (r.block.met.map Sighting.id)
    · rw [if_pos (hnew.mpr h), if_pos h]
      cases scenario? r.block <;> rfl
    · rw [if_neg fun hn => h (hnew.mp hn), if_neg h]
      rfl

theorem mets_rootsFindings {rs : List Root} (hkind : ∀ r ∈ rs, r.block.kind = .scenario) :
    mets (rootsFindings rs) = (rs.flatMap fun r => r.block.met).map Sighting.entry := by
  induction rs with
  | nil => rfl
  | cons r rs ih =>
    rw [List.forall_mem_cons] at hkind
    rw [rootsFindings_cons, mets_append, mets_scenarioFindings hkind.1, ih hkind.2,
      List.flatMap_cons, List.map_append]

theorem mem_defects_rootsFindings {rs : List Root} (hkind : ∀ r ∈ rs, r.block.kind = .scenario)
    {i : Issue} : i ∈ defects (rootsFindings rs) ↔
      HasSlotIssue (rs.flatMap fun r => r.block.met) i := by
  induction rs with
  | nil => simp [rootsFindings, hasSlotIssue_nil]
  | cons r rs ih =>
    rw [List.forall_mem_cons] at hkind
    rw [rootsFindings_cons, defects_append, List.mem_append, mem_defects_scenarioFindings hkind.1,
      ih hkind.2, List.flatMap_cons, hasSlotIssue_append]

end Completeness

namespace Test

open Completeness

/-- The blocks that a reading of the test meets, in order. -/
def met (t : Test) : List Sighting :=
  t.scenarioRoots.flatMap fun r => r.block.met

def firstMet? (t : Test) (id : BlockId) : Option Sighting :=
  t.met.find? fun s => s.id = id

/-- What is reported of the test. -/
def issues (t : Test) : List Issue :=
  match t.complete with
  | .ok _ => []
  | .error is => is

theorem issues_eq (t : Test) : t.issues =
    (noteAll .start (rootsFindings t.scenarioRoots)).issues ++
      nameClashes (fun name => name) (finished [] t.scenarioRoots) := by
  have hfinished := run_readRoots_fst (fun r => kind_of_mem_scenarioRoots (t := t) (r := r))
    .start [] fun id => Iff.rfl
  rw [← run_readRoots_snd, ← hfinished, issues, complete_eq]
  obtain ⟨⟨⟨roots, all⟩, p⟩, hrun⟩ : ∃ x, (readRoots t.scenarioRoots).run .start = x := ⟨_, rfl⟩
  rw [hrun]
  dsimp only
  by_cases h : (all && (p.issues ++ nameClashes (fun name => name)
      (roots.map Complete.Root.scenario)).isEmpty) = true
  · rw [if_pos h]
    rw [Bool.and_eq_true, List.isEmpty_iff] at h
    exact h.2.symm
  · rw [if_neg h]

/-- The four sources of issues. -/
theorem mem_issues {t : Test} {i : Issue} : i ∈ t.issues ↔
    (∃ o, ⟨o, none⟩ ∈ t.met ∧ i.OfSlots o) ∨
    (∃ id s, t.firstMet? id = some s ∧ s.defect? = some i) ∨
    (∃ id, 2 ≤ (t.met.map Sighting.id).count id ∧ i = .duplicateId id) ∨
    ∃ before s after, finished [] t.scenarioRoots = before ++ s :: after ∧
      ClashOf (fun name => name) [] i before s := by
  have hkind := fun r => kind_of_mem_scenarioRoots (t := t) (r := r)
  have hmets : mets (rootsFindings t.scenarioRoots) = t.met.map Sighting.entry :=
    mets_rootsFindings hkind
  have hids : metIds (rootsFindings t.scenarioRoots) = t.met.map Sighting.id := by
    rw [metIds_eq_map_mets, hmets, List.map_map]
    rfl
  rw [issues_eq, List.mem_append, mem_issues_start, mem_defects_rootsFindings hkind, nameClashes,
    mem_nameClashesFrom_iff, or_assoc, or_assoc]
  simp only [HasSlotIssue, mem_ownIssues, mem_reported_start, hids, hmets, lookup_entry,
    Option.map_eq_some_iff]
  rfl

theorem noRepeats (t : Test) : NoRepeats (rootsFindings t.scenarioRoots) := by
  have hkind := fun r => kind_of_mem_scenarioRoots (t := t) (r := r)
  constructor
  · intro i hi id heq
    obtain ⟨o, -, ho⟩ := (mem_defects_rootsFindings hkind).mp hi
    rw [mem_ownIssues, heq] at ho
    cases ho
  · intro e he id heq
    rw [mets_rootsFindings hkind] at he
    obtain ⟨s, -, rfl⟩ := List.mem_map.mp he
    rcases Sighting.defect?_eq_some.mp heq with ⟨_, _, -, h⟩ | ⟨_, _, _, _, -, h⟩ <;> cases h

theorem count_duplicateId_le (t : Test) (id : BlockId) :
    t.issues.count (.duplicateId id) ≤ 1 := by
  have hclashes : (nameClashes (fun name => name) (finished [] t.scenarioRoots)).count
      (.duplicateId id) = 0 := by
    refine List.count_eq_zero.mpr fun h => ?_
    obtain ⟨_, _, _, h⟩ := mem_nameClashesFrom h
    cases h
  rw [issues_eq, List.count_append, count_issues_start t.noRepeats, hclashes]
  exact List.nodup_iff_count_le_one.mp (nodup_reported _) id

end Test

/-- Why an issue is reported. -/
def Issue.DueTo (t : Test) (i : Issue) : Prop :=
  match i with
  | .chainedTarget check id => ∃ r n, t.firstMet? id = some ⟨.request id r (some n), some check⟩
  | .emptyStages id => ∃ startVus, t.firstMet? id = some ⟨.executor id (.ramping startVus []), none⟩
  | .duplicateId id => 2 ≤ (t.met.map Sighting.id).count id
  | .duplicateScenarioName first second function => ∃ before s after,
      Completeness.finished [] t.scenarioRoots = before ++ s :: after ∧ s.id = second ∧
        Script.functionName s.name = function ∧
          (before.map (Completeness.functionEntry fun name => name)).lookup function = some first
  | i => ∃ o, ⟨o, none⟩ ∈ t.met ∧ i.OfSlots o

namespace Test

open Completeness

theorem id_of_firstMet? {t : Test} {id : BlockId} {s : Sighting} (h : t.firstMet? id = some s) :
    s.id = id := by
  simpa using List.find?_some h

theorem exists_firstMet?_chainedTarget {t : Test} {check id : BlockId} :
    (∃ j s, t.firstMet? j = some s ∧ s.defect? = some (.chainedTarget check id)) ↔
      Issue.DueTo t (.chainedTarget check id) := by
  simp only [Sighting.defect?_eq_some, reduceCtorEq, and_false, exists_false, false_or]
  constructor
  · rintro ⟨j, s, hfirst, _, _, r, n, rfl, heq⟩
    cases heq
    cases id_of_firstMet? hfirst
    exact ⟨r, n, hfirst⟩
  · rintro ⟨r, n, hfirst⟩
    exact ⟨id, _, hfirst, check, id, r, n, rfl, rfl⟩

theorem exists_firstMet?_emptyStages {t : Test} {id : BlockId} :
    (∃ j s, t.firstMet? j = some s ∧ s.defect? = some (.emptyStages id)) ↔
      Issue.DueTo t (.emptyStages id) := by
  simp only [Sighting.defect?_eq_some, reduceCtorEq, and_false, exists_false, or_false]
  constructor
  · rintro ⟨j, s, hfirst, _, startVus, rfl, heq⟩
    cases heq
    cases id_of_firstMet? hfirst
    exact ⟨startVus, hfirst⟩
  · rintro ⟨startVus, hfirst⟩
    exact ⟨id, _, hfirst, id, startVus, rfl, rfl⟩

theorem exists_clash_duplicateScenarioName {t : Test} {first second : BlockId}
    {function : String} :
    (∃ before s after, finished [] t.scenarioRoots = before ++ s :: after ∧
      ClashOf (fun name => name) [] (.duplicateScenarioName first second function) before s) ↔
      Issue.DueTo t (.duplicateScenarioName first second function) := by
  constructor
  · rintro ⟨before, s, after, hsplit, _, hlookup, heq⟩
    cases heq
    exact ⟨before, s, after, hsplit, rfl, rfl, hlookup⟩
  · rintro ⟨before, s, after, hsplit, rfl, rfl, hlookup⟩
    exact ⟨before, s, after, hsplit, first, hlookup, rfl⟩

/-- An issue is reported exactly for its reason, and a repeated id once. -/
theorem mem_issues_iff (t : Test) :
    (∀ i, i ∈ t.issues ↔ i.DueTo t) ∧ ∀ id, t.issues.count (.duplicateId id) ≤ 1 := by
  refine ⟨fun i => ?_, t.count_duplicateId_le⟩
  rw [mem_issues]
  -- Each kind of issue has one source only.
  cases i with
  | missingExecutor j | missingCheckTarget j | wrongSlotKind j slot found =>
    simp only [Sighting.defect?_eq_some, ClashOf, reduceCtorEq, and_false, exists_false, or_false,
      or_self]
    rfl
  | chainedTarget check id =>
    simp only [Issue.OfSlots, exists_firstMet?_chainedTarget, ClashOf, reduceCtorEq, and_false,
      exists_false, or_false, false_or]
  | emptyStages id =>
    simp only [Issue.OfSlots, exists_firstMet?_emptyStages, ClashOf, reduceCtorEq, and_false,
      exists_false, or_false, false_or]
  | duplicateId id =>
    simp only [Issue.OfSlots, Sighting.defect?_eq_some, ClashOf, Issue.duplicateId.injEq,
      exists_eq_right', reduceCtorEq, and_false, exists_false, or_false, false_or]
    rfl
  | duplicateScenarioName first second function =>
    simp only [Issue.OfSlots, Sighting.defect?_eq_some, exists_clash_duplicateScenarioName,
      reduceCtorEq, and_false, exists_false, or_false, false_or]

/-- That an executor has no stages is not reported where its id is a repeated one. -/
example : issues ⟨Library.empty,
    [⟨⟨0, 0⟩, .scenario "s" "Read" (some (.executor "x" (.constant 1 "1m"))) none⟩,
      ⟨⟨200, 0⟩, .scenario "t" "Write" (some (.executor "x" (.ramping none []))) none⟩]⟩ =
    [.duplicateId "x"] := by
  decide

end Test
end LoadTest

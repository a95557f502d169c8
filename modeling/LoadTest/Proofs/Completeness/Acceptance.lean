import LoadTest.Proofs.Completeness.Reading

/-!
Which tests are complete.

`Test.Completable` says it without a reading: by the scenarios on the canvas, the blocks below them
and what their slots hold.
-/

namespace LoadTest

/-- The chain slots of the block hold steps, and a check has a request by itself to look at. -/
structure Block.Ready (b : Block) : Prop where
  step : ∀ c, b.child? .step = some c → c.kind.isStep = true
  next : ∀ c, b.child? .next = some c → c.kind.isStep = true
  target : b.kind = .check → ∃ id r, b.child? .target = some (.request id r none)

def Block.scenarioName? : Block → Option String
  | .scenario _ name _ _ => some name
  | _ => none

namespace Test

/-- The scenarios on the canvas. -/
def scenarioRoots (t : Test) : List Root :=
  t.roots.filter Completeness.isScenario

def scenarioNames (t : Test) : List String :=
  t.scenarioRoots.filterMap fun r => r.block.scenarioName?

/-- The scenarios on the canvas and every block below them. -/
def scenarioBlocks (t : Test) : List Block :=
  t.scenarioRoots.flatMap fun r => r.block.walk

structure Completable (t : Test) : Prop where
  executor : ∀ r ∈ t.scenarioRoots, ∃ id shape, r.block.child? .executor = some (.executor id shape)
  stages : ∀ r ∈ t.scenarioRoots, ∀ id startVus,
    r.block.child? .executor ≠ some (.executor id (.ramping startVus []))
  ready : ∀ b ∈ t.scenarioBlocks, b.Ready
  ids : (t.scenarioBlocks.map Block.id).Nodup
  names : (t.scenarioNames.map Script.functionName).Nodup

end Test

namespace Completeness

open Block (walkSlot)

/-! ## Findings without an issue -/

theorem issues_targetFindings (check : BlockId) (t : Option Block) :
    issues (targetFindings check t) = [] ↔ ∃ id r, t = some (.request id r none) := by
  cases t with
  | none => simp [targetFindings]
  | some b =>
    cases b with
    | request id r n => cases n <;> simp [targetFindings]
    | _ => simp [targetFindings]

theorem issues_executorFindings {scenario : BlockId} {e : Option Block} :
    issues (executorFindings scenario e) = [] ↔
      (∃ id shape, e = some (.executor id shape)) ∧
        ∀ id startVus, e ≠ some (.executor id (.ramping startVus [])) := by
  cases e with
  | none => simp [executorFindings]
  | some b =>
    cases b with
    | executor id shape =>
      cases shape with
      | constant vus duration => simp [executorFindings, Executor.isStageless]
      | ramping startVus stages => cases stages <;> simp [executorFindings, Executor.isStageless]
    | _ => simp [executorFindings]

theorem ready_of_isRequest {t : Option Block} (h : ∃ id r, t = some (.request id r none)) :
    ∀ c ∈ walkSlot t, c.Ready := by
  obtain ⟨id, r, rfl⟩ := h
  intro c hc
  simp only [walkSlot, Block.walk, List.mem_cons, List.not_mem_nil, or_false] at hc
  subst hc
  constructor <;> simp [Block.child?, Block.kind]

theorem ready_executor (id : BlockId) (shape : Executor) : (Block.executor id shape).Ready := by
  constructor <;> simp [Block.child?, Block.kind]

/-- The chain slots of a block, by the ones that it has. -/
theorem ready_of_kind_ne_check (b : Block) (h : b.kind ≠ .check) :
    b.Ready ↔ (∀ c, b.child? .step = some c → c.kind.isStep = true) ∧
      ∀ c, b.child? .next = some c → c.kind.isStep = true :=
  ⟨fun hb => ⟨hb.step, hb.next⟩, fun hb => ⟨hb.1, hb.2, fun hk => absurd hk h⟩⟩

mutual

theorem issues_stepFindings : ∀ b : Block, b.kind.isStep = true →
    (issues (stepFindings b) = [] ↔ ∀ c ∈ b.walk, c.Ready)
  | .group id name s n, _ => by
    have hs := issues_chainFindings id .step rfl s
    have hn := issues_chainFindings id .next rfl n
    rw [stepFindings, issues_met, issues_append, Block.walk, List.forall_mem_cons,
      List.forall_mem_append, ready_of_kind_ne_check (.group id name s n) nofun]
    simp only [Option.toList_none, List.nil_append, List.append_eq_nil_iff, hs, hn, Block.child?]
    tauto
  | .request id _ n, _ | .library id _ n, _ | .sleep id _ n, _ => by
    have hn := issues_chainFindings id .next rfl n
    rw [stepFindings, issues_met, Block.walk, List.forall_mem_cons, ready_of_kind_ne_check]
    · simp only [Option.toList_none, List.nil_append, hn, Block.child?, reduceCtorEq,
        false_implies, implies_true, true_and]
    · nofun
  | .check id es t n, _ => by
    have hn := issues_chainFindings id .next rfl n
    have ht := issues_targetFindings id t
    rw [stepFindings, issues_met, issues_append, Block.walk, List.forall_mem_cons,
      List.forall_mem_append]
    simp only [Option.toList_none, List.nil_append, List.append_eq_nil_iff, hn, ht]
    constructor
    · rintro ⟨htarget, hnext, hwalk⟩
      exact ⟨⟨nofun, hnext, fun _ => htarget⟩, hwalk, ready_of_isRequest htarget⟩
    · rintro ⟨hcheck, hwalk, -⟩
      exact ⟨hcheck.target rfl, hcheck.next, hwalk⟩

theorem issues_chainFindings (owner : BlockId) (slot : Slot) (hslot : slot.isChain = true) :
    ∀ x : Option Block, issues (chainFindings owner slot x) = [] ↔
      (∀ c, x = some c → c.kind.isStep = true) ∧ ∀ c ∈ walkSlot x, c.Ready
  | none => by simp [chainFindings, walkSlot]
  | some b => by
    have haccepts := Slot.accepts_of_isChain hslot b.kind
    by_cases hb : b.kind.isStep = true
    · rw [chainFindings, haccepts, if_pos hb, issues_stepFindings b hb]
      simp [walkSlot, hb]
    · rw [chainFindings, haccepts, if_neg hb]
      simp [hb]

end

theorem issues_scenarioFindings {b : Block} (h : b.kind = .scenario) :
    issues (scenarioFindings b) = [] ↔
      (∃ id shape, b.child? .executor = some (.executor id shape)) ∧
        (∀ id startVus, b.child? .executor ≠ some (.executor id (.ramping startVus []))) ∧
          ∀ c ∈ b.walk, c.Ready := by
  cases b with
  | scenario id name e s =>
    have hs := issues_chainFindings id .step rfl s
    rw [scenarioFindings, issues_met, issues_append, Block.walk, List.forall_mem_cons,
      List.forall_mem_append, ready_of_kind_ne_check (.scenario id name e s) (by simp [Block.kind])]
    simp only [Option.toList_none, List.nil_append, List.append_eq_nil_iff,
      issues_executorFindings, hs, Block.child?]
    constructor
    · rintro ⟨⟨⟨i, shape, rfl⟩, hstages⟩, hstep, hwalk⟩
      refine ⟨⟨i, shape, rfl⟩, hstages, ⟨hstep, by simp⟩, ?_, hwalk⟩
      simp only [walkSlot, Block.walk, List.mem_singleton, forall_eq]
      exact ready_executor i shape
    · rintro ⟨hexecutor, hstages, ⟨hstep, -⟩, -, hwalk⟩
      exact ⟨⟨hexecutor, hstages⟩, hstep, hwalk⟩
  | _ => cases h

/-! ## Every block is met -/

theorem length_metIds_targetFindings {check : BlockId} {t : Option Block}
    (h : issues (targetFindings check t) = []) :
    (metIds (targetFindings check t)).length = (walkSlot t).length := by
  obtain ⟨id, r, rfl⟩ := (issues_targetFindings check t).mp h
  rfl

theorem length_metIds_executorFindings {scenario : BlockId} {e : Option Block}
    (h : issues (executorFindings scenario e) = []) :
    (metIds (executorFindings scenario e)).length = (walkSlot e).length := by
  obtain ⟨⟨id, shape, rfl⟩, -⟩ := issues_executorFindings.mp h
  rfl

mutual

theorem length_metIds_stepFindings : ∀ b : Block, b.kind.isStep = true →
    issues (stepFindings b) = [] → (metIds (stepFindings b)).length = b.walk.length
  | .group id _ s n, _, h => by
    simp only [stepFindings, issues_met, issues_append, List.append_eq_nil_iff] at h
    have hs := length_metIds_chainFindings id .step rfl s h.2.1
    have hn := length_metIds_chainFindings id .next rfl n h.2.2
    simp only [stepFindings, metIds_met, metIds_append, Block.walk, List.length_cons,
      List.length_append, hs, hn]
  | .request id _ n, _, h | .library id _ n, _, h | .sleep id _ n, _, h => by
    simp only [stepFindings, issues_met, List.append_eq_nil_iff] at h
    have hn := length_metIds_chainFindings id .next rfl n h.2
    simp only [stepFindings, metIds_met, Block.walk, List.length_cons, hn]
  | .check id _ t n, _, h => by
    simp only [stepFindings, issues_met, issues_append, List.append_eq_nil_iff] at h
    have ht := length_metIds_targetFindings h.2.1
    have hn := length_metIds_chainFindings id .next rfl n h.2.2
    simp only [stepFindings, metIds_met, metIds_append, Block.walk, List.length_cons,
      List.length_append, ht, hn]
    omega

theorem length_metIds_chainFindings (owner : BlockId) (slot : Slot) (hslot : slot.isChain = true) :
    ∀ x : Option Block, issues (chainFindings owner slot x) = [] →
      (metIds (chainFindings owner slot x)).length = (walkSlot x).length
  | none, _ => by
    rw [chainFindings]
    rfl
  | some b, h => by
    have hb : b.kind.isStep = true :=
      ((issues_chainFindings owner slot hslot (some b)).mp h).1 b rfl
    have haccepts : slot.accepts b.kind = true := by rwa [Slot.accepts_of_isChain hslot]
    rw [chainFindings, if_pos haccepts] at h ⊢
    exact length_metIds_stepFindings b hb h

end

/-- Where there is no issue to find, every block is met. -/
theorem perm_metIds_scenarioFindings {b : Block} (hb : b.kind = .scenario)
    (h : issues (scenarioFindings b) = []) : (metIds (scenarioFindings b)).Perm b.ids := by
  refine (metIds_scenarioFindings b).perm_of_length_le (Nat.le_of_eq ?_)
  cases b with
  | scenario id name e s =>
    simp only [scenarioFindings, issues_met, issues_append, List.append_eq_nil_iff] at h
    have he := length_metIds_executorFindings h.2.1
    have hs := length_metIds_chainFindings id .step rfl s h.2.2
    simp only [scenarioFindings, metIds_met, metIds_append, Block.ids, Block.walk,
      List.length_map, List.length_cons, List.length_append, he, hs]
  | _ => cases hb

/-! ## What is spelled out -/

theorem exists_target {check : BlockId} {t : Option Block}
    (h : issues (targetFindings check t) = []) : ∃ found, target? t = some found := by
  obtain ⟨id, r, rfl⟩ := (issues_targetFindings check t).mp h
  exact ⟨(id, r), rfl⟩

theorem exists_executor {scenario : BlockId} {e : Option Block}
    (h : issues (executorFindings scenario e) = []) : ∃ found, executor? e = some found := by
  obtain ⟨⟨id, shape, rfl⟩, hstages⟩ := issues_executorFindings.mp h
  refine ⟨(id, shape), if_neg ?_⟩
  cases shape with
  | constant vus duration => exact Bool.false_ne_true
  | ramping startVus stages =>
    cases stages with
    | nil => exact absurd rfl (hstages id startVus)
    | cons stage stages => exact Bool.false_ne_true

mutual

theorem exists_steps : ∀ b : Block, b.kind.isStep = true → issues (stepFindings b) = [] →
    ∃ steps, steps? b = some steps
  | .group id _ s n, _, h => by
    simp only [stepFindings, issues_met, issues_append, List.append_eq_nil_iff] at h
    obtain ⟨steps, hs⟩ := exists_chain id .step rfl s h.2.1
    obtain ⟨rest, hn⟩ := exists_chain id .next rfl n h.2.2
    rw [steps?, hs, hn]
    exact ⟨_, rfl⟩
  | .request id _ n, _, h | .library id _ n, _, h | .sleep id _ n, _, h => by
    simp only [stepFindings, issues_met, List.append_eq_nil_iff] at h
    obtain ⟨rest, hn⟩ := exists_chain id .next rfl n h.2
    rw [steps?, hn]
    exact ⟨_, rfl⟩
  | .check id _ t n, _, h => by
    simp only [stepFindings, issues_met, issues_append, List.append_eq_nil_iff] at h
    obtain ⟨target, ht⟩ := exists_target h.2.1
    obtain ⟨rest, hn⟩ := exists_chain id .next rfl n h.2.2
    rw [steps?, ht, hn]
    exact ⟨_, rfl⟩

theorem exists_chain (owner : BlockId) (slot : Slot) (hslot : slot.isChain = true) :
    ∀ x : Option Block, issues (chainFindings owner slot x) = [] →
      ∃ steps, chain? slot x = some steps
  | none, _ => ⟨[], rfl⟩
  | some b, h => by
    have hb : b.kind.isStep = true :=
      ((issues_chainFindings owner slot hslot (some b)).mp h).1 b rfl
    have haccepts : slot.accepts b.kind = true := by rwa [Slot.accepts_of_isChain hslot]
    rw [chainFindings, if_pos haccepts] at h
    obtain ⟨steps, hsteps⟩ := exists_steps b hb h
    exact ⟨steps, by rw [chain?, if_pos haccepts, hsteps]⟩

end

theorem exists_scenario {b : Block} (hb : b.kind = .scenario)
    (h : issues (scenarioFindings b) = []) : ∃ found, scenario? b = some found := by
  cases b with
  | scenario id name e s =>
    simp only [scenarioFindings, issues_met, issues_append, List.append_eq_nil_iff] at h
    obtain ⟨executor, he⟩ := exists_executor h.2.1
    obtain ⟨steps, hs⟩ := exists_chain id .step rfl s h.2.2
    rw [scenario?, he, hs]
    exact ⟨_, rfl⟩
  | _ => cases hb

/-- A complete scenario keeps its name. -/
theorem scenarioName?_of_scenario? {b : Block} {found : Complete.Scenario}
    (h : scenario? b = some found) : b.scenarioName? = some found.name := by
  cases b with
  | scenario id name e s =>
    simp only [scenario?, Option.bind_eq_bind, Option.bind_eq_some_iff] at h
    obtain ⟨executor, -, steps, -, hfound⟩ := h
    cases hfound
    rfl
  | _ => cases h

/-! ## Names that clash -/

theorem nameClashesFrom_eq_nil_iff {resolve : String → String} {known : List (String × BlockId)}
    {scenarios : List Complete.Scenario} :
    nameClashesFrom resolve known scenarios = [] ↔
      (scenarios.map fun s => Script.functionName (resolve s.name)).Nodup ∧
        ∀ s ∈ scenarios, known.lookup (Script.functionName (resolve s.name)) = none := by
  induction scenarios generalizing known with
  | nil => simp [nameClashesFrom]
  | cons s r ih =>
    rw [nameClashesFrom, List.map_cons, List.nodup_cons, List.forall_mem_cons]
    cases hknown : known.lookup (Script.functionName (resolve s.name)) with
    | some first => simp
    | none =>
      have hlookup : ∀ k, ((Script.functionName (resolve s.name), s.id) :: known).lookup k = none ↔
          k ≠ Script.functionName (resolve s.name) ∧ known.lookup k = none := by
        intro k
        rw [List.lookup_cons]
        by_cases hk : k = Script.functionName (resolve s.name)
        · simp [hk]
        · have hbeq : (k == Script.functionName (resolve s.name)) = false := by simpa using hk
          simp only [hbeq, ne_eq, hk, not_false_eq_true, true_and]
      simp only [ih, hlookup, List.mem_map, not_exists, not_and]
      constructor
      · rintro ⟨hnodup, hnew⟩
        exact ⟨⟨fun s' hs' => (hnew s' hs').1, hnodup⟩, trivial, fun s' hs' => (hnew s' hs').2⟩
      · rintro ⟨⟨hfirst, hnodup⟩, -, hnew⟩
        exact ⟨hnodup, fun s' hs' => ⟨hfirst s' hs', hnew s' hs'⟩⟩

theorem nameClashes_eq_nil_iff {resolve : String → String} {scenarios : List Complete.Scenario} :
    nameClashes resolve scenarios = [] ↔
      (scenarios.map fun s => Script.functionName (resolve s.name)).Nodup := by
  rw [nameClashes, nameClashesFrom_eq_nil_iff]
  simp

/-! ## The canvas -/

theorem issues_rootsFindings {rs : List Root} :
    issues (rootsFindings rs) = [] ↔ ∀ r ∈ rs, issues (scenarioFindings r.block) = [] := by
  induction rs with
  | nil => simp [rootsFindings]
  | cons r rs ih =>
    rw [rootsFindings_cons, issues_append, List.append_eq_nil_iff, ih, List.forall_mem_cons]

theorem metIds_rootsFindings (rs : List Root) :
    (metIds (rootsFindings rs)).Subperm ((rs.flatMap fun r => r.block.walk).map Block.id) := by
  induction rs with
  | nil => exact List.nil_subperm
  | cons r rs ih =>
    rw [rootsFindings_cons, metIds_append, List.flatMap_cons, List.map_append]
    exact (metIds_scenarioFindings r.block).append ih

theorem perm_metIds_rootsFindings {rs : List Root} (hkind : ∀ r ∈ rs, r.block.kind = .scenario)
    (h : issues (rootsFindings rs) = []) :
    (metIds (rootsFindings rs)).Perm ((rs.flatMap fun r => r.block.walk).map Block.id) := by
  induction rs with
  | nil => exact List.Perm.refl _
  | cons r rs ih =>
    rw [rootsFindings_cons, issues_append, List.append_eq_nil_iff] at h
    rw [List.forall_mem_cons] at hkind
    rw [rootsFindings_cons, metIds_append, List.flatMap_cons, List.map_append]
    exact (perm_metIds_scenarioFindings hkind.1 h.1).append (ih hkind.2 h.2)

theorem exists_roots {rs : List Root} (hkind : ∀ r ∈ rs, r.block.kind = .scenario)
    (h : issues (rootsFindings rs) = []) : ∃ roots, roots? rs = some roots := by
  induction rs with
  | nil => exact ⟨[], rfl⟩
  | cons r rs ih =>
    rw [rootsFindings_cons, issues_append, List.append_eq_nil_iff] at h
    rw [List.forall_mem_cons] at hkind
    obtain ⟨found, hfound⟩ := exists_scenario hkind.1 h.1
    obtain ⟨roots, hroots⟩ := ih hkind.2 h.2
    rw [roots?, hfound, hroots]
    exact ⟨_, rfl⟩

theorem names_of_roots? {rs : List Root} {roots : List Complete.Root} (h : roots? rs = some roots) :
    (roots.map fun r => r.scenario.name) = rs.filterMap fun r => r.block.scenarioName? := by
  induction rs generalizing roots with
  | nil =>
    cases h
    rfl
  | cons r rs ih =>
    simp only [roots?, Option.bind_eq_bind, Option.bind_eq_some_iff] at h
    obtain ⟨found, hfound, rest, hrest, hroots⟩ := h
    cases hroots
    rw [List.map_cons, List.filterMap_cons, scenarioName?_of_scenario? hfound, ih hrest]

end Completeness
namespace Test

open Completeness

theorem kind_of_mem_scenarioRoots {t : Test} {r : Root} (h : r ∈ t.scenarioRoots) :
    r.block.kind = .scenario := by
  simpa [isScenario] using (List.mem_filter.mp h).2

theorem forall_mem_scenarioBlocks {t : Test} {P : Block → Prop} :
    (∀ b ∈ t.scenarioBlocks, P b) ↔ ∀ r ∈ t.scenarioRoots, ∀ b ∈ r.block.walk, P b := by
  simp only [scenarioBlocks, List.mem_flatMap, forall_exists_index, and_imp]
  exact ⟨fun h r hr b hb => h b r hr hb, fun h b r hr hb => h r hr b hb⟩

/-- What is asked of the slots is what a reading has an issue with. -/
theorem issues_eq_nil_iff {t : Test} : issues (rootsFindings t.scenarioRoots) = [] ↔
    (∀ r ∈ t.scenarioRoots, ∃ id shape, r.block.child? .executor = some (.executor id shape)) ∧
      (∀ r ∈ t.scenarioRoots, ∀ id startVus,
        r.block.child? .executor ≠ some (.executor id (.ramping startVus []))) ∧
          ∀ b ∈ t.scenarioBlocks, b.Ready := by
  rw [issues_rootsFindings, forall_mem_scenarioBlocks]
  constructor
  · intro h
    have hr := fun r hr => (issues_scenarioFindings (kind_of_mem_scenarioRoots hr)).mp (h r hr)
    exact ⟨fun r h => (hr r h).1, fun r h => (hr r h).2.1, fun r h => (hr r h).2.2⟩
  · rintro ⟨hexecutor, hstages, hready⟩ r hr
    exact (issues_scenarioFindings (kind_of_mem_scenarioRoots hr)).mpr
      ⟨hexecutor r hr, hstages r hr, hready r hr⟩

theorem complete_eq (t : Test) : t.complete =
    (let ((roots, all), p) := (readRoots t.scenarioRoots).run .start
     let issues := p.issues ++ nameClashes (fun name => name) (roots.map Complete.Root.scenario)
     if all && issues.isEmpty then .ok ⟨t.library, roots⟩ else .error issues) :=
  rfl

/-- If no id is met twice and nothing is reported, only names can clash. -/
theorem complete_of_allNew {t : Test} {roots : List Complete.Root}
    (hnew : AllNew Progress.start.seen (metIds (rootsFindings t.scenarioRoots)))
    (hissues : issues (rootsFindings t.scenarioRoots) = [])
    (hroots : roots? t.scenarioRoots = some roots) :
    t.complete =
      (let clashes := nameClashes (fun name => name) (roots.map Complete.Root.scenario)
       if clashes.isEmpty then .ok ⟨t.library, roots⟩ else .error clashes) := by
  rw [complete_eq, run_readRoots_of_allNew hnew hroots]
  simp only [issues_noteAll_of_allNew hnew, hissues]
  rfl

/-- Without an issue but for names that clash, the scenarios on the canvas are found. -/
theorem complete_of_issues_eq_nil {t : Test}
    (h : (noteAll .start (rootsFindings t.scenarioRoots)).issues = []) :
    (t.scenarioBlocks.map Block.id).Nodup ∧ issues (rootsFindings t.scenarioRoots) = [] ∧
      ∃ roots : List Complete.Root,
        (roots.map fun r => r.scenario.name) = t.scenarioNames ∧
        t.complete =
          (let clashes := nameClashes (fun name => name) (roots.map Complete.Root.scenario)
           if clashes.isEmpty then .ok ⟨t.library, roots⟩ else .error clashes) := by
  have hnew : AllNew Progress.start.seen (metIds (rootsFindings t.scenarioRoots)) := by
    by_contra hnot
    exact issues_noteAll_ne_nil (fun hr => absurd rfl hr) hnot h
  rw [issues_noteAll_of_allNew hnew, List.append_eq_nil_iff] at h
  have hkind := fun r => kind_of_mem_scenarioRoots (t := t) (r := r)
  obtain ⟨roots, hroots⟩ := exists_roots hkind h.2
  exact ⟨(perm_metIds_rootsFindings hkind h.2).nodup_iff.mp hnew.1, h.2, roots,
    names_of_roots? hroots, complete_of_allNew hnew h.2 hroots⟩

theorem complete_of_issues_ne_nil {t : Test}
    (h : (noteAll .start (rootsFindings t.scenarioRoots)).issues ≠ []) :
    ∃ i is, t.complete = .error (i :: is) := by
  rw [← run_readRoots_snd] at h
  rw [complete_eq]
  obtain ⟨⟨⟨roots, all⟩, p⟩, hrun⟩ : ∃ x, (readRoots t.scenarioRoots).run .start = x := ⟨_, rfl⟩
  rw [hrun] at h ⊢
  obtain ⟨i, is, his⟩ := List.exists_cons_of_ne_nil h
  refine ⟨i, is ++ nameClashes (fun name => name) (roots.map Complete.Root.scenario), ?_⟩
  simp only [show p.issues = i :: is from his, List.cons_append, List.isEmpty_cons,
    Bool.and_false, Bool.false_eq_true, if_false]

/-- A test is complete or has an issue, and what is on the canvas besides scenarios has no part
in it. -/
theorem complete_iff (t : Test) :
    ((∃ c, t.complete = .ok c) ↔ t.Completable) ∧
      ((∃ i is, t.complete = .error (i :: is)) ↔ ¬ t.Completable) ∧
        t.complete = { t with roots := t.scenarioRoots }.complete := by
  have hfilter : t.complete = { t with roots := t.scenarioRoots }.complete := by
    rw [complete_eq, complete_eq]
    simp only [scenarioRoots, List.filter_filter, Bool.and_self]
  have hcases : (t.Completable ∧ ∃ c, t.complete = .ok c) ∨
      (¬ t.Completable ∧ ∃ i is, t.complete = .error (i :: is)) := by
    by_cases hissues : (noteAll .start (rootsFindings t.scenarioRoots)).issues = []
    · obtain ⟨hids, hfindings, roots, hnames, hcomplete⟩ := complete_of_issues_eq_nil hissues
      obtain ⟨hexecutor, hstages, hready⟩ := issues_eq_nil_iff.mp hfindings
      have hclash : nameClashes (fun name => name) (roots.map Complete.Root.scenario) = [] ↔
          (t.scenarioNames.map Script.functionName).Nodup := by
        rw [nameClashes_eq_nil_iff, ← hnames, List.map_map, List.map_map]
        rfl
      rw [hcomplete]
      cases hlist : nameClashes (fun name => name) (roots.map Complete.Root.scenario) with
      | nil => exact Or.inl ⟨⟨hexecutor, hstages, hready, hids, hclash.mp hlist⟩, _, rfl⟩
      | cons i is =>
        refine Or.inr ⟨fun h => ?_, i, is, rfl⟩
        rw [hclash.mpr h.names] at hlist
        cases hlist
    · refine Or.inr ⟨fun h => hissues ?_, complete_of_issues_ne_nil hissues⟩
      have hfindings := issues_eq_nil_iff.mpr ⟨h.executor, h.stages, h.ready⟩
      have hnew : AllNew Progress.start.seen (metIds (rootsFindings t.scenarioRoots)) := by
        have hkind := fun r => kind_of_mem_scenarioRoots (t := t) (r := r)
        refine ⟨(perm_metIds_rootsFindings hkind hfindings).nodup_iff.mpr h.ids, fun i _ => ?_⟩
        exact List.not_mem_nil
      rw [issues_noteAll_of_allNew hnew, hfindings]
      rfl
  refine ⟨?_, ?_, hfilter⟩
  · rcases hcases with ⟨h, hok⟩ | ⟨h, i, is, herror⟩
    · exact ⟨fun _ => h, fun _ => hok⟩
    · rw [herror]
      exact ⟨nofun, fun hc => absurd hc h⟩
  · rcases hcases with ⟨h, c, hok⟩ | ⟨h, herror⟩
    · rw [hok]
      exact ⟨nofun, fun hc => absurd h hc⟩
    · exact ⟨fun _ => h, fun _ => herror⟩

end Test
end LoadTest

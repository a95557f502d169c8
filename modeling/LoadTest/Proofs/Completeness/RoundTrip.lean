import LoadTest.Proofs.Completeness.Acceptance

/-!
Complete tests by their blocks.

`toBlock` and `chainOf` put back the blocks that a reading has taken apart, and a reading takes
apart what they have put together.  So `t` is complete as `c` exactly if the blocks of `c` are the
scenarios of `t` and `c` is admissible.
-/

namespace LoadTest
namespace Complete

/-- All ids differ, no scenario becomes the function of another one, and every load has a shape. -/
structure Test.Admissible (c : Test) : Prop where
  stages : ∀ s ∈ c.scenarios, s.executor.isStageless = false
  ids : (c.toTest.blocks.map Block.id).Nodup
  names : (c.scenarios.map fun s => Script.functionName s.name).Nodup

theorem isStep_toBlock (s : Step) (next : Option Block) : (s.toBlock next).kind.isStep = true := by
  cases s <;> rw [Step.toBlock] <;> rfl

end Complete

namespace Completeness

open Complete (chainOf)

/-! ## Putting blocks back -/

theorem target?_eq_some_iff {t : Option Block} {id : BlockId} {r : Request} :
    target? t = some (id, r) ↔ t = some (.request id r none) := by
  constructor
  · intro h
    unfold target? at h
    split at h
    · cases h
      rfl
    · cases h
  · rintro rfl
    rfl

theorem executor?_eq_some_iff {e : Option Block} {id : BlockId} {shape : Executor} :
    executor? e = some (id, shape) ↔
      e = some (.executor id shape) ∧ shape.isStageless = false := by
  constructor
  · intro h
    unfold executor? at h
    split at h
    · split_ifs at h with hshape
      cases h
      exact ⟨rfl, by simpa using hshape⟩
    · cases h
  · rintro ⟨rfl, hshape⟩
    rw [executor?, if_neg (by simp [hshape])]

mutual

theorem chainOf_of_steps? : ∀ (b : Block) {steps : List Complete.Step},
    steps? b = some steps → chainOf steps = some b
  | .group id name s n, steps, h => by
    simp only [steps?, Option.bind_eq_bind, Option.bind_eq_some_iff] at h
    obtain ⟨inner, hs, rest, hn, hsteps⟩ := h
    cases hsteps
    rw [chainOf, Complete.Step.toBlock, chainOf_of_chain? s hs, chainOf_of_chain? n hn]
  | .request id r n, steps, h | .library id r n, steps, h | .sleep id r n, steps, h => by
    simp only [steps?, Option.bind_eq_bind, Option.bind_eq_some_iff] at h
    obtain ⟨rest, hn, hsteps⟩ := h
    cases hsteps
    rw [chainOf, Complete.Step.toBlock, chainOf_of_chain? n hn]
  | .check id es t n, steps, h => by
    simp only [steps?, Option.bind_eq_bind, Option.bind_eq_some_iff] at h
    obtain ⟨⟨target, r⟩, ht, rest, hn, hsteps⟩ := h
    cases hsteps
    rw [chainOf, Complete.Step.toBlock, chainOf_of_chain? n hn, target?_eq_some_iff.mp ht]
  | .scenario .., steps, h | .executor .., steps, h => by
    rw [steps?] at h
    cases h

theorem chainOf_of_chain? : ∀ (x : Option Block) {slot : Slot} {steps : List Complete.Step},
    chain? slot x = some steps → chainOf steps = x
  | none, slot, steps, h => by
    rw [chain?] at h
    cases h
    rfl
  | some b, slot, steps, h => by
    rw [chain?] at h
    split_ifs at h
    exact chainOf_of_steps? b h

end

/-! ## Taking them apart again -/

mutual

theorem steps?_toBlock : ∀ (s : Complete.Step) {rest : List Complete.Step},
    chain? .next (chainOf rest) = some rest → steps? (s.toBlock (chainOf rest)) = some (s :: rest)
  | .group id name steps, rest, h => by
    rw [Complete.Step.toBlock, steps?, chain?_chainOf rfl steps, h]
    rfl
  | .request id r, rest, h | .library id r, rest, h | .sleep id r, rest, h => by
    rw [Complete.Step.toBlock, steps?, h]
    rfl
  | .check id es target r, rest, h => by
    rw [Complete.Step.toBlock, steps?, target?_eq_some_iff.mpr rfl, h]
    rfl

theorem chain?_chainOf {slot : Slot} (hslot : slot.isChain = true) :
    ∀ steps : List Complete.Step, chain? slot (chainOf steps) = some steps
  | [] => by
    rw [chainOf, chain?]
  | s :: rest => by
    rw [chainOf, chain?, Slot.accepts_of_isChain hslot, if_pos (Complete.isStep_toBlock s _)]
    exact steps?_toBlock s (chain?_chainOf rfl rest)

end

theorem chain?_eq_some_iff {slot : Slot} (hslot : slot.isChain = true) {x : Option Block}
    {steps : List Complete.Step} : chain? slot x = some steps ↔ chainOf steps = x := by
  constructor
  · exact chainOf_of_chain? x
  · rintro rfl
    exact chain?_chainOf hslot steps

/-- What a scenario spells out is what it is put together from. -/
theorem scenario?_eq_some_iff {b : Block} {s : Complete.Scenario} :
    scenario? b = some s ↔ s.toBlock = b ∧ s.executor.isStageless = false := by
  constructor
  · intro h
    cases b with
    | scenario id name e st =>
      simp only [scenario?, Option.bind_eq_bind, Option.bind_eq_some_iff] at h
      obtain ⟨⟨executorId, shape⟩, he, steps, hsteps, hs⟩ := h
      cases hs
      obtain ⟨rfl, hshape⟩ := executor?_eq_some_iff.mp he
      rw [chain?_eq_some_iff rfl] at hsteps
      exact ⟨by rw [Complete.Scenario.toBlock, hsteps], hshape⟩
    | _ => cases h
  · rintro ⟨rfl, hshape⟩
    rw [Complete.Scenario.toBlock, scenario?, executor?_eq_some_iff.mpr ⟨rfl, hshape⟩,
      chain?_chainOf rfl]
    rfl

theorem roots?_eq_some_iff {rs : List Root} {roots : List Complete.Root} :
    roots? rs = some roots ↔ roots.map Complete.Root.toRoot = rs ∧
      ∀ r ∈ roots, r.scenario.executor.isStageless = false := by
  induction rs generalizing roots with
  | nil =>
    rw [roots?, Option.some.injEq, List.map_eq_nil_iff]
    constructor
    · rintro rfl
      exact ⟨rfl, List.forall_mem_nil _⟩
    · exact fun h => h.1.symm
  | cons r rs ih =>
    simp only [roots?, Option.bind_eq_bind, Option.bind_eq_some_iff, scenario?_eq_some_iff, ih]
    constructor
    · rintro ⟨s, ⟨hs, hshape⟩, rest, ⟨hrest, hshapes⟩, hroots⟩
      cases hroots
      rw [List.map_cons, List.forall_mem_cons, hrest, Complete.Root.toRoot, hs]
      exact ⟨rfl, hshape, hshapes⟩
    · rintro ⟨hroots, hshapes⟩
      obtain ⟨root, rest, rfl, hr, hrest⟩ := List.map_eq_cons_iff.mp hroots
      rw [List.forall_mem_cons] at hshapes
      subst hr
      exact ⟨root.scenario, ⟨rfl, hshapes.1⟩, rest, ⟨hrest, hshapes.2⟩, rfl⟩

/-! ## Nothing to report -/

mutual

theorem issues_stepFindings_toBlock : ∀ (s : Complete.Step) {next : Option Block},
    issues (chainFindings (s.toBlock next).id .next next) = [] →
      issues (stepFindings (s.toBlock next)) = []
  | .group id name steps, next, h => by
    rw [Complete.Step.toBlock] at h ⊢
    rw [stepFindings, issues_met, issues_append, issues_chainFindings_chainOf rfl steps]
    exact h
  | .request id r, next, h | .library id r, next, h | .sleep id r, next, h => by
    rw [Complete.Step.toBlock] at h ⊢
    rw [stepFindings, issues_met]
    exact h
  | .check id es target r, next, h => by
    rw [Complete.Step.toBlock] at h ⊢
    rw [stepFindings, issues_met, issues_append, (issues_targetFindings id _).mpr ⟨target, r, rfl⟩]
    exact h

theorem issues_chainFindings_chainOf {slot : Slot} (hslot : slot.isChain = true)
    {owner : BlockId} : ∀ steps : List Complete.Step,
      issues (chainFindings owner slot (chainOf steps)) = []
  | [] => by
    rw [chainOf, chainFindings]
    rfl
  | s :: rest => by
    rw [chainOf, chainFindings, Slot.accepts_of_isChain hslot,
      if_pos (Complete.isStep_toBlock s _)]
    exact issues_stepFindings_toBlock s (issues_chainFindings_chainOf rfl rest)

end

theorem issues_scenarioFindings_toBlock {s : Complete.Scenario}
    (h : s.executor.isStageless = false) : issues (scenarioFindings s.toBlock) = [] := by
  rw [Complete.Scenario.toBlock, scenarioFindings, issues_met, issues_append,
    issues_chainFindings_chainOf rfl, executorFindings, if_neg (by simp [h])]
  rfl

theorem issues_of_roots? {rs : List Root} {roots : List Complete.Root}
    (h : roots? rs = some roots) : issues (rootsFindings rs) = [] := by
  obtain ⟨rfl, hshapes⟩ := roots?_eq_some_iff.mp h
  rw [issues_rootsFindings, List.forall_mem_map]
  exact fun r hr => issues_scenarioFindings_toBlock (hshapes r hr)

end Completeness

namespace Test

open Completeness

/-! ## Complete tests -/

/-- What the canvas spells out is found if no id is used twice; names may still clash. -/
theorem complete_of_roots? {t : Test} {roots : List Complete.Root}
    (hids : (t.scenarioBlocks.map Block.id).Nodup) (hroots : roots? t.scenarioRoots = some roots) :
    t.complete =
      (let clashes := nameClashes (fun name => name) (roots.map Complete.Root.scenario)
       if clashes.isEmpty then .ok ⟨t.library, roots⟩ else .error clashes) := by
  have hissues := issues_of_roots? hroots
  have hkind := fun r => kind_of_mem_scenarioRoots (t := t) (r := r)
  have hnew : AllNew Progress.start.seen (metIds (rootsFindings t.scenarioRoots)) :=
    ⟨(perm_metIds_rootsFindings hkind hissues).nodup_iff.mpr hids, fun _ _ => List.not_mem_nil⟩
  exact complete_of_allNew hnew hissues hroots

theorem roots?_of_complete {t : Test} {c : Complete.Test} (h : t.complete = .ok c) :
    (t.scenarioBlocks.map Block.id).Nodup ∧ ∃ roots, roots? t.scenarioRoots = some roots := by
  by_cases hissues : (noteAll .start (rootsFindings t.scenarioRoots)).issues = []
  · obtain ⟨hids, hfindings, -⟩ := complete_of_issues_eq_nil hissues
    exact ⟨hids, exists_roots (fun r => kind_of_mem_scenarioRoots) hfindings⟩
  · obtain ⟨i, is, herror⟩ := complete_of_issues_ne_nil hissues
    rw [h] at herror
    cases herror

/-- A test is complete as `c` exactly if its scenarios are the blocks of `c`, which is
admissible. -/
theorem complete_eq_ok_iff {t : Test} {c : Complete.Test} :
    t.complete = .ok c ↔ c.toTest = { t with roots := t.scenarioRoots } ∧ c.Admissible := by
  have hblocks (hc : c.toTest = { t with roots := t.scenarioRoots }) :
      c.toTest.blocks = t.scenarioBlocks := by
    rw [hc]
    rfl
  constructor
  · intro h
    obtain ⟨hids, roots, hroots⟩ := roots?_of_complete h
    rw [complete_of_roots? hids hroots] at h
    simp only [List.isEmpty_iff, nameClashes_eq_nil_iff] at h
    split_ifs at h with hnames
    cases h
    obtain ⟨htoRoot, hshapes⟩ := roots?_eq_some_iff.mp hroots
    have htest : (⟨t.library, roots.map Complete.Root.toRoot⟩ : Test) =
        { t with roots := t.scenarioRoots } := by rw [htoRoot]
    exact ⟨htest, List.forall_mem_map.mpr hshapes, by rwa [hblocks htest], hnames⟩
  · rintro ⟨htest, hshapes, hids, hnames⟩
    have htoRoot : c.roots.map Complete.Root.toRoot = t.scenarioRoots := congrArg Test.roots htest
    have hlibrary : c.library = t.library := congrArg Test.library htest
    rw [hblocks htest] at hids
    rw [complete_of_roots? hids
      (roots?_eq_some_iff.mpr ⟨htoRoot, List.forall_mem_map.mp hshapes⟩)]
    simp only [List.isEmpty_iff, nameClashes_eq_nil_iff]
    rw [← hlibrary]
    exact if_pos hnames

theorem scenarioRoots_toTest (c : Complete.Test) : c.toTest.scenarioRoots = c.toTest.roots := by
  rw [scenarioRoots, List.filter_eq_self]
  exact List.forall_mem_map.mpr fun r _ => rfl

/-- A complete test has the scenarios of the test that it was read from, and reads as itself. -/
theorem toTest_of_complete {t : Test} {c : Complete.Test} (h : t.complete = .ok c) :
    c.toTest = { t with roots := t.roots.filter fun r => r.block.kind = .scenario } ∧
      c.toTest.complete = .ok c := by
  obtain ⟨htest, hadmissible⟩ := complete_eq_ok_iff.mp h
  refine ⟨htest, complete_eq_ok_iff.mpr ⟨?_, hadmissible⟩⟩
  rw [scenarioRoots_toTest]

/-- A scenario with steps of every kind, and a request beside it that belongs to no scenario. -/
def browsing : Test :=
  let item : Request := ⟨"item", "get", "/items", [⟨"p", "id", "7"⟩], []⟩
  let login : Request := ⟨"", "post", "/login", [], [⟨"h", "Accept", "*/*"⟩]⟩
  let search : LibraryCall := ⟨"search", "get", "/search", Dict.empty.insert "q" (.string "x")⟩
  let tail := Block.check "c" [.status "e" 200] (some (.request "t" login none))
    (some (.library "l" search (some (.sleep "z" 1 none))))
  let group := Block.group "g" "browse" (some (.request "i" item none)) (some tail)
  let load := Block.executor "x" (.ramping (some 1) [⟨10, "30s"⟩])
  ⟨Library.empty, [⟨⟨0, 0⟩, .request "r" login none⟩,
    ⟨⟨200, 0⟩, .scenario "s" "Browse items" (some load) (some group)⟩]⟩

theorem toTest_of_complete_browsing : ∃ c, browsing.complete = .ok c ∧
    c.toTest = { browsing with roots := browsing.roots.filter fun r => r.block.kind = .scenario } ∧
      c.toTest.complete = .ok c :=
  ⟨_, rfl, toTest_of_complete rfl⟩

end Test
end LoadTest

import LoadTest.Compilation
import LoadTest.Proofs.Completeness.RoundTrip

/-!
Tests built from plans.

`Plan.Built` says which tests spell out a plan: every step is a block, every list of steps is a
chain, and ids, positions and the library are free.  If all ids differ then such a test is complete
and has that plan again, and plans of this kind are all that complete tests have.
-/

namespace LoadTest

open Complete (chainOf)

namespace Plan

/-- What the plan of a complete test satisfies. -/
structure Admissible (p : Plan) : Prop where
  names : (p.scenarios.map fun s => Script.functionName s.name).Nodup
  stages : ∀ s ∈ p.scenarios, s.executor.isStageless = false

/-! ## Building -/

/-- `v` is entered for `p`, under an id of its own. -/
structure Pair.Built (p : Pair) (v : NameValue) : Prop where
  name : v.name = p.name
  value : v.value = p.value

structure Call.Built (c : Call) (r : Request) : Prop where
  name : r.name = c.name
  method : r.method = c.method
  url : r.url = c.url
  parameters : List.Forall₂ Pair.Built c.parameters r.parameters
  headers : List.Forall₂ Pair.Built c.headers r.headers

inductive Assertion.Built : Assertion → Expectation → Prop
  | hasStatus (id : String) (status : UInt16) : Built (hasStatus status) (.status id status)
  | bodyContains (id text : String) : Built (bodyContains text) (.contains id text)

mutual

/-- The block of a step, with nothing behind it. -/
inductive Step.Built : Step → Block → Prop
  | request (id : BlockId) {c : Call} {r : Request} (call : c.Built r) :
      Step.Built (.request c) (.request id r none)
  | group (id : BlockId) (name : String) {steps : List Step} {blocks : List Block}
      (inner : StepsBuilt steps blocks) :
      Step.Built (.group name steps) (.group id name (Block.chain blocks) none)
  | check (id targetId : BlockId) {c : Call} {r : Request} {as : List Assertion}
      {es : List Expectation} (call : c.Built r) (assertions : List.Forall₂ Assertion.Built as es) :
      Step.Built (.check c as) (.check id es (some (.request targetId r none)) none)
  | sleep (id : BlockId) (seconds : Float) : Step.Built (.sleep seconds) (.sleep id seconds none)

inductive StepsBuilt : List Step → List Block → Prop
  | nil : StepsBuilt [] []
  | cons {s : Step} {b : Block} {steps : List Step} {blocks : List Block} (head : s.Built b)
      (tail : StepsBuilt steps blocks) : StepsBuilt (s :: steps) (b :: blocks)

end

/-- The block of a scenario, with the chain of its steps and its load. -/
inductive Scenario.Built : Scenario → Block → Prop
  | intro (id executorId : BlockId) {s : Scenario} {blocks : List Block}
      (steps : StepsBuilt s.steps blocks) :
      Scenario.Built s (.scenario id s.name (some (.executor executorId s.executor))
        (Block.chain blocks))

/-- The test has a scenario for each one of the plan, in order, and nothing else. -/
def Built (p : Plan) (t : Test) : Prop :=
  List.Forall₂ (fun s r => Scenario.Built s r.block) p.scenarios t.roots

/-! ## What is built is complete -/

/-- A step in front of a chain. -/
theorem link_toBlock (s : Complete.Step) (next : Option Block) :
    Block.link (s.toBlock none) next = some (s.toBlock next) := by
  cases next with
  | none => rfl
  | some b => cases s <;> simp only [Complete.Step.toBlock] <;> rfl

theorem chain_map_toBlock (steps : List Complete.Step) :
    Block.chain (steps.map (Complete.Step.toBlock none)) = chainOf steps := by
  induction steps with
  | nil => rw [chainOf, List.map_nil, Block.chain_nil]
  | cons s r ih => rw [List.map_cons, Block.chain_cons, ih, link_toBlock, chainOf]

theorem map_ofNameValue_of_built {ps : List Pair} {vs : List NameValue}
    (h : List.Forall₂ Pair.Built ps vs) : vs.map Pair.ofNameValue = ps := by
  induction h with
  | nil => rfl
  | cons hpair _ ih => rw [List.map_cons, ih, Pair.ofNameValue, hpair.name, hpair.value]

theorem ofRequest_of_built {c : Call} {r : Request} (h : c.Built r) : Call.ofRequest r = c := by
  rw [Call.ofRequest, h.name, h.method, h.url, map_ofNameValue_of_built h.parameters,
    map_ofNameValue_of_built h.headers]

theorem map_ofExpectation_of_built {as : List Assertion} {es : List Expectation}
    (h : List.Forall₂ Assertion.Built as es) : es.map Assertion.ofExpectation = as := by
  induction h with
  | nil => rfl
  | cons ha _ ih =>
    rw [List.map_cons, ih]
    cases ha <;> rfl

mutual

theorem exists_step_of_built : ∀ (s : Step) {b : Block}, s.Built b →
    ∃ found : Complete.Step, found.toBlock none = b ∧ Step.ofComplete found = s
  | .request c, _, .request id (r := r) call => by
    refine ⟨.request id r, by rw [Complete.Step.toBlock], ?_⟩
    rw [Step.ofComplete, ofRequest_of_built call]
  | .group name steps, _, .group id _ inner => by
    obtain ⟨found, hchain, hsteps⟩ := exists_steps_of_built steps inner
    refine ⟨.group id name found, ?_, by rw [Step.ofComplete, hsteps]⟩
    rw [Complete.Step.toBlock, ← hchain, chain_map_toBlock]
  | .check c as, .check _ es (some (.request _ r none)) none,
      .check id targetId call assertions => by
    refine ⟨.check id es targetId r, by rw [Complete.Step.toBlock], ?_⟩
    rw [Step.ofComplete, ofRequest_of_built call, map_ofExpectation_of_built assertions]
  | .sleep x, _, .sleep id _ =>
    ⟨.sleep id x, by rw [Complete.Step.toBlock], by rw [Step.ofComplete]⟩

theorem exists_steps_of_built : ∀ (steps : List Step) {blocks : List Block},
    StepsBuilt steps blocks → ∃ found : List Complete.Step,
      found.map (Complete.Step.toBlock none) = blocks ∧ stepsOf found = steps
  | [], _, .nil => ⟨[], rfl, by rw [stepsOf]⟩
  | s :: r, _, .cons head tail => by
    obtain ⟨found, hblock, hstep⟩ := exists_step_of_built s head
    obtain ⟨rest, hblocks, hsteps⟩ := exists_steps_of_built r tail
    exact ⟨found :: rest, by rw [List.map_cons, hblock, hblocks], by rw [stepsOf, hstep, hsteps]⟩

end

theorem exists_scenario_of_built {s : Scenario} {b : Block} (h : s.Built b) :
    ∃ found : Complete.Scenario, found.toBlock = b ∧ Scenario.ofComplete found = s := by
  obtain ⟨id, executorId, steps⟩ := h
  obtain ⟨found, hblocks, hsteps⟩ := exists_steps_of_built s.steps steps
  refine ⟨⟨id, s.name, executorId, s.executor, found⟩, ?_, by rw [Scenario.ofComplete, hsteps]⟩
  rw [Complete.Scenario.toBlock, ← hblocks, chain_map_toBlock]

theorem exists_roots_of_built {ss : List Scenario} {rs : List Root}
    (h : List.Forall₂ (fun s r => Scenario.Built s r.block) ss rs) :
    ∃ roots : List Complete.Root, roots.map Complete.Root.toRoot = rs ∧
      roots.map (fun r => Scenario.ofComplete r.scenario) = ss := by
  induction h with
  | nil => exact ⟨[], rfl, rfl⟩
  | @cons s r ss rs hs _ ih =>
    obtain ⟨found, hblock, hscenario⟩ := exists_scenario_of_built hs
    obtain ⟨roots, hroots, hscenarios⟩ := ih
    refine ⟨⟨r.position, found⟩ :: roots, ?_, by rw [List.map_cons, hscenario, hscenarios]⟩
    rw [List.map_cons, hroots, Complete.Root.toRoot, hblock]

/-- What a built test is complete as. -/
theorem exists_complete_of_built {p : Plan} {t : Test} (h : p.Built t) :
    ∃ c : Complete.Test, c.toTest = t ∧ ofComplete c = p := by
  obtain ⟨roots, hroots, hscenarios⟩ := exists_roots_of_built h
  refine ⟨⟨t.library, roots⟩, by rw [Complete.Test.toTest, hroots], ?_⟩
  rw [ofComplete, Complete.Test.scenarios, List.map_map]
  exact congrArg Plan.mk hscenarios

/-- A complete test and its plan are admissible for the same reasons, ids apart. -/
theorem admissible_ofComplete_iff {c : Complete.Test} :
    (ofComplete c).Admissible ∧ (c.toTest.blocks.map Block.id).Nodup ↔ c.Admissible := by
  have hnames : ((ofComplete c).scenarios.map fun s => Script.functionName s.name) =
      c.scenarios.map fun s => Script.functionName s.name := by
    rw [ofComplete, List.map_map]
    rfl
  constructor
  · rintro ⟨⟨names, stages⟩, ids⟩
    exact ⟨List.forall_mem_map.mp stages, ids, hnames ▸ names⟩
  · rintro ⟨stages, ids, names⟩
    exact ⟨⟨hnames ▸ names, List.forall_mem_map.mpr stages⟩, ids⟩

theorem complete_of_built {p : Plan} (hp : p.Admissible) {t : Test} (h : p.Built t)
    (hids : (t.blocks.map Block.id).Nodup) : ∃ c, t.complete = .ok c ∧ ofComplete c = p := by
  obtain ⟨c, rfl, rfl⟩ := exists_complete_of_built h
  refine ⟨c, Test.complete_eq_ok_iff.mpr ⟨?_, admissible_ofComplete_iff.mp ⟨hp, hids⟩⟩, rfl⟩
  rw [Test.scenarioRoots_toTest]

/-! ## Building with numbered ids -/

def Pair.toNameValue (p : Pair) : NameValue :=
  ⟨"", p.name, p.value⟩

def Call.toRequest (c : Call) : Request where
  name := c.name
  method := c.method
  url := c.url
  parameters := c.parameters.map Pair.toNameValue
  headers := c.headers.map Pair.toNameValue

def Assertion.toExpectation : Assertion → Expectation
  | hasStatus status => .status "" status
  | bodyContains text => .contains "" text

mutual

def Step.size : Step → Nat
  | .request _ => 1
  | .group _ steps => 1 + stepsSize steps
  | .check _ _ => 2
  | .sleep _ => 1

def stepsSize : List Step → Nat
  | [] => 0
  | s :: r => s.size + stepsSize r

end

mutual

/-- The step with ids made from the numbers from `n` on. -/
def Step.numbered (id : Nat → BlockId) (n : Nat) : Step → Complete.Step
  | .request c => .request (id n) c.toRequest
  | .group name steps => .group (id n) name (stepsNumbered id (n + 1) steps)
  | .check c as => .check (id n) (as.map Assertion.toExpectation) (id (n + 1)) c.toRequest
  | .sleep x => .sleep (id n) x

def stepsNumbered (id : Nat → BlockId) (n : Nat) : List Step → List Complete.Step
  | [] => []
  | s :: r => s.numbered id n :: stepsNumbered id (n + s.size) r

end

def Scenario.numbered (id : Nat → BlockId) (n : Nat) (s : Scenario) : Complete.Scenario :=
  ⟨id n, s.name, id (n + 1), s.executor, stepsNumbered id (n + 2) s.steps⟩

def rootsNumbered (id : Nat → BlockId) (n : Nat) : List Scenario → List Complete.Root
  | [] => []
  | s :: r => ⟨⟨0, 0⟩, s.numbered id n⟩ :: rootsNumbered id (n + (2 + stepsSize s.steps)) r

theorem forall₂_map_right {α β : Type} {R : α → β → Prop} {f : α → β} (h : ∀ a, R a (f a))
    (xs : List α) : List.Forall₂ R xs (xs.map f) := by
  rw [List.forall₂_map_right_iff, List.forall₂_same]
  exact fun a _ => h a

theorem Call.built_toRequest (c : Call) : c.Built c.toRequest :=
  ⟨rfl, rfl, rfl, forall₂_map_right (fun _ => ⟨rfl, rfl⟩) _,
    forall₂_map_right (fun _ => ⟨rfl, rfl⟩) _⟩

theorem Assertion.built_toExpectation (a : Assertion) : a.Built a.toExpectation := by
  cases a with
  | hasStatus status => exact .hasStatus "" status
  | bodyContains text => exact .bodyContains "" text

section Numbered

variable (id : Nat → BlockId)

mutual

theorem built_numbered : ∀ (s : Step) (n : Nat), s.Built ((s.numbered id n).toBlock none)
  | .request c, n => by
    rw [Step.numbered, Complete.Step.toBlock]
    exact .request (id n) c.built_toRequest
  | .group name steps, n => by
    rw [Step.numbered, Complete.Step.toBlock, ← chain_map_toBlock]
    exact .group (id n) name (built_stepsNumbered steps (n + 1))
  | .check c as, n => by
    rw [Step.numbered, Complete.Step.toBlock]
    exact .check (id n) (id (n + 1)) c.built_toRequest
      (forall₂_map_right Assertion.built_toExpectation as)
  | .sleep x, n => by
    rw [Step.numbered, Complete.Step.toBlock]
    exact .sleep (id n) x

theorem built_stepsNumbered : ∀ (steps : List Step) (n : Nat),
    StepsBuilt steps ((stepsNumbered id n steps).map (Complete.Step.toBlock none))
  | [], n => by
    rw [stepsNumbered]
    exact .nil
  | s :: r, n => by
    rw [stepsNumbered, List.map_cons]
    exact .cons (built_numbered s n) (built_stepsNumbered r (n + s.size))

end

theorem built_scenarioNumbered (s : Scenario) (n : Nat) : s.Built (s.numbered id n).toBlock := by
  rw [Scenario.numbered, Complete.Scenario.toBlock, ← chain_map_toBlock]
  exact .intro (id n) (id (n + 1)) (built_stepsNumbered id s.steps (n + 2))

theorem built_rootsNumbered (ss : List Scenario) (n : Nat) :
    List.Forall₂ (fun s r => Scenario.Built s r.block) ss
      ((rootsNumbered id n ss).map Complete.Root.toRoot) := by
  induction ss generalizing n with
  | nil => exact .nil
  | cons s r ih => exact .cons (built_scenarioNumbered id s n) (ih _)

theorem map_range'_add (n a b : Nat) :
    (List.range' n (a + b)).map id =
      (List.range' n a).map id ++ (List.range' (n + a) b).map id := by
  rw [← List.map_append, List.range'_append_1]

open Block (walkSlot)

mutual

/-- A check looks at what comes next before its target, so the numbers are not in order. -/
theorem perm_ids_numbered : ∀ (s : Step) (n : Nat) (next : Option Block),
    (((s.numbered id n).toBlock next).walk.map Block.id).Perm
      ((List.range' n s.size).map id ++ (walkSlot next).map Block.id)
  | .request c, n, next | .sleep c, n, next => by
    rw [Step.numbered, Complete.Step.toBlock, Block.walk, Step.size]
    exact List.Perm.refl _
  | .group name steps, n, next => by
    rw [Step.numbered, Complete.Step.toBlock, Block.walk, Step.size, map_range'_add,
      List.map_cons, List.map_append, List.append_assoc]
    exact ((perm_ids_stepsNumbered steps (n + 1)).append_right _).cons (id n)
  | .check c as, n, next => by
    rw [Step.numbered, Complete.Step.toBlock, Block.walk, Step.size, List.map_cons,
      List.map_append]
    exact List.perm_append_comm.cons (id n)

theorem perm_ids_stepsNumbered : ∀ (steps : List Step) (n : Nat),
    ((walkSlot (chainOf (stepsNumbered id n steps))).map Block.id).Perm
      ((List.range' n (stepsSize steps)).map id)
  | [], n => by
    rw [stepsNumbered, chainOf, stepsSize]
    exact List.Perm.refl _
  | s :: r, n => by
    rw [stepsNumbered, chainOf, stepsSize, map_range'_add]
    exact (perm_ids_numbered s n _).trans
      ((perm_ids_stepsNumbered r (n + s.size)).append_left _)

end

theorem perm_ids_rootsNumbered (ss : List Scenario) (n : Nat) :
    ∃ m, ((((rootsNumbered id n ss).map Complete.Root.toRoot).flatMap fun r =>
      r.block.walk).map Block.id).Perm ((List.range' n m).map id) := by
  induction ss generalizing n with
  | nil => exact ⟨0, List.Perm.refl _⟩
  | cons s r ih =>
    obtain ⟨m, hm⟩ := ih (n + (2 + stepsSize s.steps))
    refine ⟨2 + stepsSize s.steps + m, ?_⟩
    have hsteps := perm_ids_stepsNumbered id s.steps (n + 2)
    rw [rootsNumbered, List.map_cons, List.flatMap_cons, List.map_append, map_range'_add,
      map_range'_add]
    exact ((hsteps.cons (id (n + 1))).cons (id n)).append hm

end Numbered

/-- The id of `n` strokes. -/
def strokes (n : Nat) : BlockId :=
  String.ofList (List.replicate n '|')

theorem strokes_injective : Function.Injective strokes := by
  intro m n h
  simpa [strokes] using congrArg String.length h

/-- There is always a way to build. -/
theorem exists_built (p : Plan) : ∃ t, p.Built t ∧ (t.blocks.map Block.id).Nodup := by
  refine ⟨⟨Library.empty, (rootsNumbered strokes 0 p.scenarios).map Complete.Root.toRoot⟩,
    built_rootsNumbered strokes p.scenarios 0, ?_⟩
  obtain ⟨m, hm⟩ := perm_ids_rootsNumbered strokes p.scenarios 0
  exact hm.nodup_iff.mpr (List.Nodup.map strokes_injective (List.nodup_range' 1))

/-- Complete tests have the admissible plans and no others: an admissible plan can be built, and
however it is built the test is complete and has that plan. -/
theorem admissible_complete :
    (∀ p : Plan, p.Admissible →
      (∃ t, p.Built t ∧ (t.blocks.map Block.id).Nodup) ∧
        ∀ t, p.Built t → (t.blocks.map Block.id).Nodup →
          ∃ c, t.complete = .ok c ∧ ofComplete c = p) ∧
      ∀ (t : Test) (c : Complete.Test), t.complete = .ok c → (ofComplete c).Admissible := by
  refine ⟨fun p hp => ⟨p.exists_built, fun t h hids => complete_of_built hp h hids⟩, ?_⟩
  intro t c h
  exact (admissible_ofComplete_iff.mpr (Test.complete_eq_ok_iff.mp h).2).1

/-- Two scenarios, one with a check in a group and a step behind the group. -/
def shopping : Plan :=
  let cart : Call := ⟨"", "get", "/cart", [⟨"id", "7"⟩], [⟨"Accept", "*/*"⟩]⟩
  ⟨[⟨"Fill cart", .ramping none [⟨5, "1m"⟩],
      [.group "cart" [.check cart [.hasStatus 200, .bodyContains "7"], .sleep 1], .request cart]⟩,
    ⟨"Idle", .constant 1 "1m", []⟩]⟩

/-- The plan as somebody might have entered it. -/
def shoppingTest : Test :=
  let cart : Request := ⟨"", "get", "/cart", [⟨"p", "id", "7"⟩], [⟨"h", "Accept", "*/*"⟩]⟩
  let check := Block.check "c" [.status "e" 200, .contains "f" "7"]
    (some (.request "t" cart none)) none
  let group := Block.group "g" "cart" (Block.chain [check, .sleep "z" 1 none]) none
  ⟨Library.empty,
    [⟨⟨0, 0⟩, .scenario "s" "Fill cart" (some (.executor "x" (.ramping none [⟨5, "1m"⟩])))
        (Block.chain [group, .request "r" cart none])⟩,
      ⟨⟨0, 200⟩, .scenario "i" "Idle" (some (.executor "y" (.constant 1 "1m")))
        (Block.chain [])⟩]⟩

theorem admissible_shopping : shopping.Admissible :=
  ⟨by decide, by decide⟩

theorem built_shoppingTest : shopping.Built shoppingTest := by
  have hpair (id name value : String) : Pair.Built ⟨name, value⟩ ⟨id, name, value⟩ := ⟨rfl, rfl⟩
  have hcart : Call.Built ⟨"", "get", "/cart", [⟨"id", "7"⟩], [⟨"Accept", "*/*"⟩]⟩
      ⟨"", "get", "/cart", [⟨"p", "id", "7"⟩], [⟨"h", "Accept", "*/*"⟩]⟩ :=
    ⟨rfl, rfl, rfl, .cons (hpair ..) .nil, .cons (hpair ..) .nil⟩
  have hcheck := Step.Built.check "c" "t" hcart
    (.cons (.hasStatus "e" 200) (.cons (.bodyContains "f" "7") .nil))
  have hgroup := Step.Built.group "g" "cart" (.cons hcheck (.cons (.sleep "z" 1) .nil))
  exact .cons (.intro "s" "x" (.cons hgroup (.cons (.request "r" hcart) .nil)))
    (.cons (.intro "i" "y" .nil) .nil)

theorem admissible_complete_shopping : shopping.Admissible ∧ shopping.Built shoppingTest ∧
    (shoppingTest.blocks.map Block.id).Nodup ∧
      ∃ c, shoppingTest.complete = .ok c ∧ ofComplete c = shopping ∧ (ofComplete c).Admissible := by
  have hids : (shoppingTest.blocks.map Block.id).Nodup := by decide
  obtain ⟨c, hc, hplan⟩ :=
    (admissible_complete.1 shopping admissible_shopping).2 shoppingTest built_shoppingTest hids
  exact ⟨admissible_shopping, built_shoppingTest, hids, c, hc, hplan, admissible_complete.2 _ c hc⟩

end Plan
end LoadTest

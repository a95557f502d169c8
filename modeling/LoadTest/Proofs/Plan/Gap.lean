import LoadTest.Plan.OfComplete
import LoadTest.Proofs.Block.Spine
import LoadTest.Proofs.Completeness.RoundTrip

/-!
Gaps between the steps of a complete test, and between those of its plan.

A gap is in a list of steps, and that list is the one of a scenario or of a group at any depth.
Filling a gap puts steps there and leaves everything else as it is; the blocks of the test that
results are those of a tree with a hole (`fill_trail`), and its plan is the plan with the same gap
filled (`ofComplete_fill`).
-/

namespace LoadTest

open Block (Frame walkSlot)

namespace Complete

/-- A list of steps without the steps of one of its groups. -/
structure Level where
  before : List Step
  id : BlockId
  name : String
  after : List Step

def Level.fill (v : Level) (steps : List Step) : List Step :=
  v.before ++ .group v.id v.name steps :: v.after

/-- The steps of a scenario around those of the innermost group, the outermost level first. -/
def fillLevels (levels : List Level) (steps : List Step) : List Step :=
  levels.foldr Level.fill steps

/-- A gap in the list of steps of a scenario, or of a group somewhere in it. -/
structure Gap where
  library : Library
  rootsBefore : List Root
  position : Position
  id : BlockId
  name : String
  executorId : BlockId
  executor : Executor
  levels : List Level
  before : List Step
  after : List Step
  rootsAfter : List Root

namespace Gap

def scenario (g : Gap) (new : List Step) : Scenario :=
  ⟨g.id, g.name, g.executorId, g.executor, fillLevels g.levels (g.before ++ new ++ g.after)⟩

def fill (g : Gap) (new : List Step) : Test :=
  ⟨g.library, g.rootsBefore ++ ⟨g.position, g.scenario new⟩ :: g.rootsAfter⟩

/-- The scenario or the group that has the list with the gap. -/
def owner (g : Gap) : BlockId :=
  (g.levels.getLast?.map Level.id).getD g.id

/-- The gap is right behind the step that `o` is, with what comes next. -/
def Behind (g : Gap) (o : Block) : Prop :=
  ∃ before step, g.before = before ++ [step] ∧ step.toBlock (chainOf g.after) = o

/-- The gap is in front of all steps of `o`. -/
structure Leads (g : Gap) (o : Block) : Prop where
  owner : g.owner = o.id
  before : g.before = []
  after : chainOf g.after = o.child? .step

end Gap
end Complete

namespace Plan

structure Level where
  before : List Step
  name : String
  after : List Step

def Level.fill (v : Level) (steps : List Step) : List Step :=
  v.before ++ .group v.name steps :: v.after

def fillLevels (levels : List Level) (steps : List Step) : List Step :=
  levels.foldr Level.fill steps

structure Gap where
  scenariosBefore : List Scenario
  name : String
  executor : Executor
  levels : List Level
  before : List Step
  after : List Step
  scenariosAfter : List Scenario

def Gap.fill (g : Gap) (new : List Step) : Plan :=
  ⟨g.scenariosBefore ++
    ⟨g.name, g.executor, fillLevels g.levels (g.before ++ new ++ g.after)⟩ :: g.scenariosAfter⟩

def Level.ofComplete (v : Complete.Level) : Level :=
  ⟨stepsOf v.before, v.name, stepsOf v.after⟩

end Plan

namespace Complete

open Plan (stepsOf)

/-! ## The plan of a filled gap -/

def Gap.plan (g : Gap) : Plan.Gap where
  scenariosBefore := g.rootsBefore.map fun r => Plan.Scenario.ofComplete r.scenario
  name := g.name
  executor := g.executor
  levels := g.levels.map Plan.Level.ofComplete
  before := stepsOf g.before
  after := stepsOf g.after
  scenariosAfter := g.rootsAfter.map fun r => Plan.Scenario.ofComplete r.scenario

theorem stepsOf_append (l r : List Step) : stepsOf (l ++ r) = stepsOf l ++ stepsOf r := by
  simp only [Plan.stepsOf_eq_map, List.map_append]

theorem stepsOf_level (v : Level) (steps : List Step) :
    stepsOf (v.fill steps) = (Plan.Level.ofComplete v).fill (stepsOf steps) := by
  rw [Level.fill, stepsOf_append, stepsOf, Plan.Step.ofComplete]
  rfl

theorem stepsOf_fillLevels (levels : List Level) (steps : List Step) :
    stepsOf (fillLevels levels steps) =
      Plan.fillLevels (levels.map Plan.Level.ofComplete) (stepsOf steps) := by
  induction levels with
  | nil => rfl
  | cons v levels ih =>
    show stepsOf (v.fill (fillLevels levels steps)) = _
    rw [stepsOf_level, ih]
    rfl

/-- The plan of a filled gap is the plan with the same gap filled. -/
theorem ofComplete_fill (g : Gap) (new : List Step) :
    Plan.ofComplete (g.fill new) = g.plan.fill (stepsOf new) := by
  have hsteps : stepsOf (fillLevels g.levels (g.before ++ new ++ g.after)) =
      Plan.fillLevels g.plan.levels (g.plan.before ++ stepsOf new ++ g.plan.after) := by
    rw [stepsOf_fillLevels, stepsOf_append, stepsOf_append]
    rfl
  rw [Plan.ofComplete, Plan.Gap.fill, Test.scenarios, Gap.fill, List.map_append, List.map_cons,
    List.map_append, List.map_cons, List.map_map, List.map_map, ← hsteps]
  rfl

/-! ## The blocks of a filled gap -/

theorem setChild_toBlock (s : Step) (next : Option Block) :
    (s.toBlock none).setChild .next next = s.toBlock next := by
  cases s <;> rw [Step.toBlock, Step.toBlock] <;> rfl

theorem child?_toBlock (s : Step) (next : Option Block) : (s.toBlock next).child? .next = next := by
  cases s <;> rw [Step.toBlock] <;> rfl

/-- A step with its `next` slot open. -/
def Step.frame (s : Step) : Frame :=
  (s.toBlock none).frameAt .next (by rw [Kind.hasSlot_next]; exact isStep_toBlock s none)

theorem Step.fill_frame (s : Step) (x : Option Block) : s.frame.fill x = s.toBlock x :=
  setChild_toBlock s x

/-- A group with its `step` slot open, and the steps behind it. -/
def Level.frame (v : Level) : Frame :=
  (Block.group v.id v.name none (chainOf v.after)).frameAt .step rfl

def Level.trail (v : Level) : List Frame :=
  v.before.map Step.frame ++ [v.frame]

theorem fill_steps (l r : List Step) :
    Block.fill (l.map Step.frame) (chainOf r) = chainOf (l ++ r) := by
  induction l with
  | nil => rfl
  | cons s l ih =>
    rw [List.map_cons, Block.fill_cons, ih, Step.fill_frame, List.cons_append, chainOf]

theorem Level.fill_trail (v : Level) (steps : List Step) :
    Block.fill v.trail (chainOf steps) = chainOf (v.fill steps) := by
  have hgroup : some (v.frame.fill (chainOf steps)) =
      chainOf (.group v.id v.name steps :: v.after) := by
    rw [chainOf, Step.toBlock]
    rfl
  rw [Level.trail, Block.fill_append, Block.fill_cons, Block.fill_nil, hgroup, fill_steps,
    Level.fill]

def levelsTrail (levels : List Level) : List Frame :=
  levels.flatMap Level.trail

theorem fill_levelsTrail (levels : List Level) (steps : List Step) :
    Block.fill (levelsTrail levels) (chainOf steps) = chainOf (fillLevels levels steps) := by
  induction levels with
  | nil => rfl
  | cons v levels ih =>
    show Block.fill (v.trail ++ levelsTrail levels) _ = chainOf (v.fill (fillLevels levels steps))
    rw [Block.fill_append, ih, Level.fill_trail]

namespace Gap

/-- The scenario with its `step` slot open. -/
def scenarioFrame (g : Gap) : Frame :=
  (Block.scenario g.id g.name (some (.executor g.executorId g.executor)) none).frameAt .step rfl

/-- The way to the gap, which ends in the slot that holds what comes behind it. -/
def trail (g : Gap) : List Frame :=
  g.scenarioFrame :: (levelsTrail g.levels ++ g.before.map Step.frame)

theorem fill_trail (g : Gap) (new : List Step) :
    Block.fill g.trail (chainOf (new ++ g.after)) = some (g.scenario new).toBlock := by
  rw [trail, Block.fill_cons, Block.fill_append, fill_steps, ← List.append_assoc,
    fill_levelsTrail, Scenario.toBlock]
  rfl

/-! ## What a hole holds -/

end Gap

theorem chainOf_injective {l r : List Step} (h : chainOf l = chainOf r) : l = r := by
  have hl : Completeness.chain? .next (chainOf l) = some l := Completeness.chain?_chainOf rfl l
  rw [h, Completeness.chain?_chainOf rfl r, Option.some.injEq] at hl
  exact hl.symm

/-- If a chain with a hole spells out steps, then what is in the hole does. -/
theorem exists_chainOf_of_fill {l steps : List Step} {x : Option Block}
    (h : Block.fill (l.map Step.frame) x = chainOf steps) : ∃ rest, chainOf rest = x := by
  induction l generalizing steps with
  | nil => exact ⟨steps, h.symm⟩
  | cons s l ih =>
    cases steps with
    | nil => cases h
    | cons z rest =>
      rw [List.map_cons, Block.fill_cons, Step.fill_frame, chainOf, Option.some.injEq] at h
      have hnext := congrArg (fun b => b.child? .next) h
      simp only [child?_toBlock] at hnext
      exact ih hnext

theorem exists_chainOf_of_levels {levels : List Level} {steps : List Step} {x : Option Block}
    (h : Block.fill (levelsTrail levels) x = chainOf steps) : ∃ rest, chainOf rest = x := by
  induction levels generalizing steps with
  | nil => exact ⟨steps, h.symm⟩
  | cons v levels ih =>
    have hcons : levelsTrail (v :: levels) = v.before.map Step.frame ++ v.frame :: levelsTrail levels :=
      List.append_assoc _ [v.frame] _
    rw [hcons, Block.fill_append] at h
    obtain ⟨rest, hrest⟩ := exists_chainOf_of_fill h
    cases rest with
    | nil => cases hrest
    | cons z rest =>
      rw [Block.fill_cons, chainOf, Option.some.injEq] at hrest
      -- The block with the hole is a group, so it is one of the group's steps that is in the hole.
      cases z with
      | group id name inner =>
        rw [Step.toBlock] at hrest
        have hstep := congrArg (fun b => b.child? .step) hrest
        exact ih hstep.symm
      | _ =>
        rw [Step.toBlock] at hrest
        cases hrest

namespace Gap

theorem exists_chainOf_of_trail {g : Gap} {s : Scenario} {x : Option Block}
    (h : Block.fill g.trail x = some s.toBlock) : ∃ rest, chainOf rest = x := by
  rw [trail, Block.fill_cons, Option.some.injEq, Scenario.toBlock, Block.fill_append] at h
  have hstep := congrArg (fun b => b.child? .step) h
  obtain ⟨rest, hrest⟩ := exists_chainOf_of_levels hstep
  exact exists_chainOf_of_fill hrest.symm

/-! ## Where there are gaps -/

/-- The same list of steps with the gap between `before` and `after`. -/
def shift (g : Gap) (before after : List Step) : Gap :=
  { g with before, after }

theorem fill_shift {g : Gap} {before after : List Step} (h : before ++ after = g.before ++ g.after) :
    (g.shift before after).fill [] = g.fill [] := by
  rw [fill, fill, scenario, scenario, shift]
  simp only [List.append_nil, h]

end Gap

/-- What is left of a chain from one of its blocks on is a step and the steps behind it. -/
theorem exists_split_of_mem_spine {l : List Step} {o : Block}
    (h : o ∈ Block.spineSlot (chainOf l)) :
    ∃ before step after, l = before ++ step :: after ∧ step.toBlock (chainOf after) = o := by
  induction l with
  | nil => cases h
  | cons s l ih =>
    rw [chainOf, Block.spineSlot, Block.spine_eq, child?_toBlock, List.mem_cons] at h
    rcases h with rfl | h
    · exact ⟨[], s, l, rfl, rfl⟩
    · obtain ⟨before, step, after, rfl, ho⟩ := ih h
      exact ⟨s :: before, step, after, rfl, ho⟩

/-- The levels lead from the list `steps` to the list `inner`, which is the one of `b`. -/
structure Reaches (levels : List Level) (steps inner : List Step) (b : Block) : Prop where
  fill : fillLevels levels inner = steps
  owner : levels.getLast?.map Level.id = some b.id
  inner : chainOf inner = b.child? .step

theorem Reaches.cons {levels : List Level} {rest inner : List Step} {b : Block}
    (h : Reaches levels rest inner b) (s : Step) : ∃ levels', Reaches levels' (s :: rest) inner b := by
  obtain ⟨hfill, howner, hinner⟩ := h
  cases levels with
  | nil => cases howner
  | cons v levels =>
    refine ⟨⟨s :: v.before, v.id, v.name, v.after⟩ :: levels, congrArg (s :: ·) hfill, ?_, hinner⟩
    cases levels with
    | nil => exact howner
    | cons w levels => exact howner

theorem Reaches.inside {levels : List Level} {steps inner : List Step} {b : Block}
    (h : Reaches levels steps inner b) (id : BlockId) (name : String) (rest : List Step) :
    ∃ levels', Reaches levels' (.group id name steps :: rest) inner b := by
  obtain ⟨hfill, howner, hinner⟩ := h
  refine ⟨⟨[], id, name, rest⟩ :: levels, ?_, ?_, hinner⟩
  · show Level.fill _ (fillLevels levels inner) = _
    rw [hfill]
    rfl
  · cases levels with
    | nil => cases howner
    | cons v levels => exact howner

mutual

theorem exists_reaches_toBlock : ∀ (s : Step) {rest : List Step} {b : Block},
    b.kind.hasSlot .step = true → b ∈ (s.toBlock (chainOf rest)).walk →
      (b ∈ walkSlot (chainOf rest) → ∃ levels inner, Reaches levels rest inner b) →
        ∃ levels inner, Reaches levels (s :: rest) inner b
  | .group id name steps, rest, b, hb, h, hrest => by
    rw [Step.toBlock, Block.walk, List.mem_cons, List.mem_append] at h
    rcases h with rfl | h | h
    · exact ⟨[⟨[], id, name, rest⟩], steps, rfl, rfl, rfl⟩
    · obtain ⟨levels, inner, hreaches⟩ := exists_reaches steps hb h
      obtain ⟨levels', hreaches'⟩ := hreaches.inside id name rest
      exact ⟨levels', inner, hreaches'⟩
    · obtain ⟨levels, inner, hreaches⟩ := hrest h
      obtain ⟨levels', hreaches'⟩ := hreaches.cons (.group id name steps)
      exact ⟨levels', inner, hreaches'⟩
  | .request id r, rest, b, hb, h, hrest | .library id r, rest, b, hb, h, hrest
  | .sleep id r, rest, b, hb, h, hrest => by
    rw [Step.toBlock, Block.walk, List.mem_cons] at h
    rcases h with rfl | h
    · cases hb
    · obtain ⟨levels, inner, hreaches⟩ := hrest h
      obtain ⟨levels', hreaches'⟩ := hreaches.cons _
      exact ⟨levels', inner, hreaches'⟩
  | .check id es target r, rest, b, hb, h, hrest => by
    rw [Step.toBlock, Block.walk, List.mem_cons, List.mem_append] at h
    rcases h with rfl | h | h
    · cases hb
    · obtain ⟨levels, inner, hreaches⟩ := hrest h
      obtain ⟨levels', hreaches'⟩ := hreaches.cons (.check id es target r)
      exact ⟨levels', inner, hreaches'⟩
    · simp only [walkSlot, Block.walk, List.mem_singleton] at h
      subst h
      cases hb

/-- A block below a chain that has steps of its own is reached through the groups around it. -/
theorem exists_reaches : ∀ (steps : List Step) {b : Block}, b.kind.hasSlot .step = true →
    b ∈ walkSlot (chainOf steps) → ∃ levels inner, Reaches levels steps inner b
  | [], b, hb, h => by
    rw [chainOf] at h
    cases h
  | s :: rest, b, hb, h => by
    rw [chainOf] at h
    exact exists_reaches_toBlock s hb h (exists_reaches rest hb)

end

/-- There is a gap in front of the steps of every block that may have some. -/
theorem exists_gap_leads {c : Test} {b : Block} (h : b ∈ c.toTest.blocks)
    (hb : b.kind.hasSlot .step = true) : ∃ g : Gap, g.fill [] = c ∧ g.Leads b := by
  obtain ⟨root, hroot, hwalk⟩ := List.mem_flatMap.mp h
  obtain ⟨r, hr, rfl⟩ := List.mem_map.mp hroot
  obtain ⟨before, after, hroots⟩ := List.append_of_mem hr
  -- The gap is in the scenario of this root; what remains is the way through its groups.
  have hgap : ∀ (levels : List Level) (inner : List Step),
      fillLevels levels inner = r.scenario.steps →
      (levels.getLast?.map Level.id).getD r.scenario.id = b.id →
      chainOf inner = b.child? .step → ∃ g : Gap, g.fill [] = c ∧ g.Leads b := by
    intro levels inner hfill howner hinner
    let s := r.scenario
    refine ⟨⟨c.library, before, r.position, s.id, s.name, s.executorId, s.executor, levels, [],
      inner, after⟩, ?_, howner, rfl, hinner⟩
    show (⟨c.library, before ++ ⟨r.position, ⟨s.id, s.name, s.executorId, s.executor,
      fillLevels levels inner⟩⟩ :: after⟩ : Test) = c
    rw [hfill, ← hroots]
  rw [Root.toRoot, Scenario.toBlock, Block.walk, List.mem_cons, List.mem_append] at hwalk
  rcases hwalk with rfl | hwalk | hwalk
  · exact hgap [] r.scenario.steps rfl rfl rfl
  · simp only [walkSlot, Block.walk, List.mem_singleton] at hwalk
    subst hwalk
    cases hb
  · obtain ⟨levels, inner, hreaches⟩ := exists_reaches r.scenario.steps hb hwalk
    refine hgap levels inner hreaches.fill ?_ hreaches.inner
    rw [hreaches.owner, Option.getD_some]

/-- There is a gap behind every block of a chain of steps. -/
theorem exists_gap_behind {c : Test} {b o : Block} (h : b ∈ c.toTest.blocks)
    (ho : o ∈ Block.spineSlot (b.child? .step)) : ∃ g : Gap, g.fill [] = c ∧ g.Behind o := by
  have hb : b.kind.hasSlot .step = true := by
    cases hc : b.child? .step with
    | none =>
      rw [hc] at ho
      cases ho
    | some head => exact Block.hasSlot_of_child? hc
  obtain ⟨g, hfill, hleads⟩ := exists_gap_leads h hb
  rw [← hleads.after] at ho
  obtain ⟨before, step, after, hsplit, hstep⟩ := exists_split_of_mem_spine ho
  refine ⟨g.shift (before ++ [step]) after, ?_, before, step, rfl, hstep⟩
  rw [Gap.fill_shift, hfill]
  rw [hleads.before, hsplit, List.append_assoc]
  rfl

end Complete
end LoadTest

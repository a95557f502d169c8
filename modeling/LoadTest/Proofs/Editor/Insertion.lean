import LoadTest.Compilation
import LoadTest.Proofs.Editor.Soundness
import LoadTest.Proofs.Plan.Gap

/-!
Inserting into a chain of blocks is inserting into a list of steps.

Where a complete test has a gap, the slot that holds what comes behind it is a place of the test.
Joining what is dropped to what that slot holds puts the steps of the one in front of the steps of
the other, so the test is complete again as the same test with the gap filled.
-/

namespace LoadTest

open Block (Frame walkSlot idsSlot)
open Complete (chainOf Gap)

namespace Block

/-- The chain of `b`, with the chain that a slot holds behind it. -/
def join (b : Block) : Option Block → Except Fault Block
  | none => .ok b
  | some tail => b.concat tail

theorem concat_toBlock (s : Complete.Step) (next : Option Block) (tail : Block) :
    (s.toBlock next).concat tail = do return s.toBlock (some (← concatNext next tail)) := by
  rw [concat_of_isStep (Complete.isStep_toBlock s next), Complete.child?_toBlock]
  refine bind_congr fun n => ?_
  rw [← Complete.setChild_toBlock s next, setChild_setChild, Complete.setChild_toBlock]

/-- Joining two chains of complete steps. -/
theorem exists_concat_chainOf {l r : List Complete.Step} {b tail : Block}
    (hl : chainOf l = some b) (hr : chainOf r = some tail) :
    ∃ x, b.concat tail = .ok x ∧ chainOf (l ++ r) = some x := by
  induction l generalizing b with
  | nil => cases hl
  | cons s l ih =>
    rw [chainOf, Option.some.injEq] at hl
    subst hl
    rw [concat_toBlock, List.cons_append, chainOf]
    cases hnext : chainOf l with
    | none =>
      have hnil : l = [] := Complete.chainOf_injective (hnext.trans (by rw [chainOf]))
      subst hnil
      exact ⟨s.toBlock (some tail), rfl, by rw [List.nil_append, hr]⟩
    | some n =>
      obtain ⟨x, hx, hchain⟩ := ih hnext
      refine ⟨s.toBlock (some x), ?_, by rw [hchain]⟩
      rw [concatNext, hx]
      rfl

/-- If two joined chains spell out steps and the second one does, then so does the first. -/
theorem exists_of_concat {zs r : List Complete.Step} {b tail x : Block}
    (hx : b.concat tail = .ok x) (hzs : chainOf zs = some x) (hr : chainOf r = some tail) :
    ∃ l, chainOf l = some b ∧ zs = l ++ r := by
  induction zs generalizing b x with
  | nil => cases hzs
  | cons z rest ih =>
    rw [chainOf, Option.some.injEq] at hzs
    have hstep : b.kind.isStep = true := by
      by_contra hnot
      rw [concat_of_not_isStep (by simpa using hnot)] at hx
      cases hx
    have hslot : b.kind.hasSlot .next = true := by rw [Kind.hasSlot_next]; exact hstep
    rw [concat_of_isStep hstep] at hx
    cases hnext : concatNext (b.child? .next) tail with
    | error e =>
      rw [hnext] at hx
      cases hx
    | ok n =>
      rw [hnext] at hx
      have hb : b.setChild .next (some n) = z.toBlock (chainOf rest) :=
        (Except.ok.inj hx).trans hzs.symm
      have hrest : chainOf rest = some n := by
        rw [← Complete.child?_toBlock z (chainOf rest), ← hb, child?_setChild_self hslot]
      have hself : z.toBlock (b.child? .next) = b := by
        rw [← Complete.setChild_toBlock, ← setChild_setChild _ .next (chainOf rest),
          Complete.setChild_toBlock, ← hb, setChild_setChild, setChild_child?]
      cases hchild : b.child? .next with
      | none =>
        rw [hchild] at hnext hself
        have htail : tail = n := Except.ok.inj hnext
        refine ⟨[z], ?_, ?_⟩
        · rw [chainOf, chainOf, hself]
        · rw [Complete.chainOf_injective (hrest.trans (by rw [hr, htail]))]
          rfl
      | some d =>
        rw [hchild] at hnext hself
        obtain ⟨l, hl, hsplit⟩ := ih hnext hrest
        refine ⟨z :: l, ?_, by rw [hsplit, List.cons_append]⟩
        rw [chainOf, hl, hself]

theorem join_chainOf_iff {b : Block} {r zs : List Complete.Step} :
    (∃ x, b.join (chainOf r) = .ok x ∧ chainOf zs = some x) ↔
      ∃ l, chainOf l = some b ∧ zs = l ++ r := by
  cases hr : chainOf r with
  | none =>
    have hnil : r = [] := Complete.chainOf_injective (hr.trans (by rw [chainOf]))
    subst hnil
    constructor
    · intro h
      obtain ⟨x, hx, hzs⟩ := h
      cases hx
      exact ⟨zs, hzs, (List.append_nil zs).symm⟩
    · intro h
      obtain ⟨l, hl, hzs⟩ := h
      exact ⟨b, rfl, by rw [hzs, List.append_nil, hl]⟩
  | some tail =>
    constructor
    · intro h
      obtain ⟨x, hx, hzs⟩ := h
      exact exists_of_concat hx hzs hr
    · intro h
      obtain ⟨l, hl, hzs⟩ := h
      obtain ⟨x, hx, hchain⟩ := exists_concat_chainOf hl hr
      exact ⟨x, hx, by rw [hzs, hchain]⟩

end Block

/-! ## The place of a gap -/

/-- The place `p` is the slot with what comes behind the gap `g`, in a test with the scenarios of
`g` and possibly more on the canvas. -/
structure Place.Spans (p : Place) (g : Gap) : Prop where
  library : p.library = g.library
  before : p.before.filter Completeness.isScenario = g.rootsBefore.map Complete.Root.toRoot
  position : p.position = g.position
  trail : p.trail = g.trail
  after : p.after.filter Completeness.isScenario = g.rootsAfter.map Complete.Root.toRoot

theorem Place.fill_of_trail {p : Place} {trail : List Frame} {f : Frame}
    (h : p.trail = trail ++ [f]) (x : Option Block) :
    p.fill x = { p with trail }.fill (some (f.fill x)) := by
  rw [Place.fill, h, Block.fill_append]
  rfl

namespace Place.Spans

variable {p : Place} {g : Gap}

theorem shift (h : p.Spans g) (zs : List Complete.Step) : p.Spans (g.shift g.before zs) :=
  ⟨h.library, h.before, h.position, h.trail, h.after⟩

theorem toTest_fill (h : p.Spans g) :
    (g.fill []).toTest =
      { p.fill (chainOf g.after) with roots := (p.fill (chainOf g.after)).scenarioRoots } := by
  have htrail : Block.fill p.trail (chainOf g.after) = some (g.scenario []).toBlock := by
    rw [h.trail]
    exact g.fill_trail []
  have hroots : (p.fill (chainOf g.after)).scenarioRoots =
      g.rootsBefore.map Complete.Root.toRoot ++
        ⟨g.position, (g.scenario []).toBlock⟩ :: g.rootsAfter.map Complete.Root.toRoot := by
    rw [Test.scenarioRoots, fill, htrail, List.filter_append, List.filter_append, h.before, h.after,
      h.position, List.append_assoc]
    rfl
  rw [hroots, Gap.fill, Complete.Test.toTest, List.map_append, List.map_cons]
  show (⟨g.library, _⟩ : Test) = ⟨p.library, _⟩
  rw [h.library]
  rfl

/-- What is read of a filled place is what is in the gap. -/
theorem exists_chainOf (h : p.Spans g) {x : Block} {c : Complete.Test}
    (hc : (p.fill (some x)).complete = .ok c) : ∃ zs, chainOf zs = some x := by
  obtain ⟨htest, -⟩ := Test.complete_eq_ok_iff.mp hc
  have hroots : c.roots.map Complete.Root.toRoot = (p.fill (some x)).scenarioRoots :=
    congrArg Test.roots htest
  obtain ⟨b, hb⟩ : ∃ b, Block.fill p.trail (some x) = some b := by
    rw [h.trail, Gap.trail]
    exact ⟨_, rfl⟩
  have hkind : b.kind = .scenario := by
    rw [h.trail, Gap.trail, Block.fill_cons, Option.some.injEq] at hb
    rw [← hb, Frame.fill, Block.kind_setChild]
    rfl
  have hmem : (⟨p.position, b⟩ : Root) ∈ (p.fill (some x)).scenarioRoots := by
    rw [Test.scenarioRoots, List.mem_filter, fill, hb]
    exact ⟨by simp, by simp [Completeness.isScenario, hkind]⟩
  rw [← hroots] at hmem
  obtain ⟨r, -, hr⟩ := List.mem_map.mp hmem
  have hblock : r.scenario.toBlock = b := congrArg Root.block hr
  rw [← hblock, h.trail] at hb
  exact Gap.exists_chainOf_of_trail hb

/-- The names and the loads do not depend on where a gap is in a list or what is in it. -/
theorem admissible_shift {before after new : List Complete.Step} (h : (g.fill []).Admissible)
    (hids : (((g.shift before after).fill new).toTest.blocks.map Block.id).Nodup) :
    ((g.shift before after).fill new).Admissible := by
  have hstages := h.stages
  have hnames := h.names
  refine ⟨?_, hids, ?_⟩
  · rw [Complete.Test.scenarios, List.forall_mem_map, Gap.fill, List.forall_mem_append,
      List.forall_mem_cons] at hstages ⊢
    exact hstages
  · rw [Complete.Test.scenarios, Gap.fill, List.map_append, List.map_append, List.map_cons,
      List.map_cons] at hnames ⊢
    exact hnames

/-- A place that is filled makes a complete test exactly if complete steps are put there and no id
is used twice. -/
theorem complete_fill_iff (h : p.Spans g) (hg : (g.fill []).Admissible) {x : Block}
    {c : Complete.Test} :
    (p.fill (some x)).complete = .ok c ↔
      ((p.fill (some x)).scenarioBlocks.map Block.id).Nodup ∧
        ∃ zs, chainOf zs = some x ∧ c = (g.shift g.before zs).fill [] := by
  have hfill : ∀ zs, chainOf zs = some x → ((p.fill (some x)).scenarioBlocks.map Block.id).Nodup →
      (p.fill (some x)).complete = .ok ((g.shift g.before zs).fill []) := by
    intro zs hzs hids
    have htest := (h.shift zs).toTest_fill
    have hafter : chainOf (g.shift g.before zs).after = some x := hzs
    rw [hafter] at htest
    refine Test.complete_eq_ok_iff.mpr ⟨htest, admissible_shift hg ?_⟩
    rw [htest]
    exact hids
  constructor
  · intro hc
    obtain ⟨zs, hzs⟩ := h.exists_chainOf hc
    have hids := (Test.roots?_of_complete hc).1
    rw [hfill zs hzs hids, Except.ok.injEq] at hc
    exact ⟨hids, zs, hzs, hc.symm⟩
  · intro hc
    obtain ⟨hids, zs, hzs, hzc⟩ := hc
    rw [hzc]
    exact hfill zs hzs hids

end Place.Spans

/-! ## The owner of a gap -/

namespace Complete.Gap

variable {g : Gap} {o : Block}

theorem Behind.exists_trail (h : g.Behind o) :
    ∃ trail f, g.trail = trail ++ [f] ∧ f.block.id = o.id ∧ f.slot = .next := by
  obtain ⟨before, step, hbefore, hstep⟩ := h
  refine ⟨g.scenarioFrame :: (levelsTrail g.levels ++ before.map Step.frame), step.frame, ?_, ?_, rfl⟩
  · rw [trail, hbefore, List.map_append, List.map_singleton, List.cons_append, List.append_assoc]
  · rw [← hstep, ← Step.fill_frame, Frame.id_fill]

theorem Leads.exists_trail (h : g.Leads o) :
    ∃ trail f, g.trail = trail ++ [f] ∧ f.block.id = o.id ∧ f.slot = .step := by
  have howner := h.owner
  rw [Gap.owner] at howner
  rw [trail, h.before, List.map_nil, List.append_nil]
  rcases List.eq_nil_or_concat g.levels with hnil | ⟨init, v, hlast⟩
  · rw [hnil] at howner ⊢
    exact ⟨[], g.scenarioFrame, rfl, howner, rfl⟩
  · rw [List.concat_eq_append] at hlast
    rw [hlast, List.getLast?_concat] at howner
    refine ⟨g.scenarioFrame :: (levelsTrail init ++ v.before.map Step.frame), v.frame, ?_, howner, rfl⟩
    rw [hlast, levelsTrail, List.flatMap_append, List.flatMap_singleton, Level.trail,
      ← List.append_assoc]
    rfl

end Complete.Gap

namespace Test

/-! ## Taking a root off the canvas -/

theorem complete_congr {t t' : Test} (hlibrary : t.library = t'.library)
    (hroots : t.scenarioRoots = t'.scenarioRoots) : t.complete = t'.complete := by
  rw [complete_eq, complete_eq, hlibrary, hroots]

/-- A root that is no scenario can be taken off the canvas without a scenario being changed. -/
theorem exists_rootPlace {t : Test} {r : Root} (hr : r ∈ t.roots)
    (hkind : r.block.kind ≠ .scenario) :
    ∃ q : Place, q.fill (some r.block) = t ∧ (q.fill none).library = t.library ∧
      (q.fill none).scenarioRoots = t.scenarioRoots := by
  obtain ⟨before, after, hroots⟩ := List.append_of_mem hr
  have hpassed : Completeness.isScenario r = false := decide_eq_false hkind
  refine ⟨⟨t.library, before, r.position, [], after⟩, ?_, rfl, ?_⟩
  · show (⟨t.library, before ++ [r] ++ after⟩ : Test) = t
    rw [List.append_assoc, List.singleton_append, ← hroots]
  · show ((before ++ [] ++ after).filter Completeness.isScenario) = t.scenarioRoots
    rw [List.append_nil, scenarioRoots, hroots, List.filter_append, List.filter_append,
      List.filter_cons_of_neg (by simp [hpassed])]

/-- A gap in what a test is complete as is a place of the test. -/
theorem exists_spans {t : Test} {g : Gap} (h : t.complete = .ok (g.fill [])) :
    ∃ p : Place, p.Spans g ∧ p.fill (chainOf g.after) = t := by
  obtain ⟨htest, -⟩ := complete_eq_ok_iff.mp h
  have hroots : g.rootsBefore.map Complete.Root.toRoot ++
      ⟨g.position, (g.scenario []).toBlock⟩ :: g.rootsAfter.map Complete.Root.toRoot =
        t.roots.filter Completeness.isScenario := by
    have hmap := congrArg Test.roots htest
    rw [Complete.Test.toTest, Gap.fill, List.map_append, List.map_cons] at hmap
    exact hmap
  obtain ⟨left, rest, hsplit, hleft, hrest⟩ := List.filter_eq_append_iff.mp hroots.symm
  obtain ⟨skipped, after, hcons, hskipped, -, hafter⟩ := List.filter_eq_cons_iff.mp hrest
  refine ⟨⟨t.library, left ++ skipped, g.position, g.trail, after⟩, ⟨?_, ?_, rfl, rfl, hafter⟩, ?_⟩
  · exact (congrArg Test.library htest).symm
  · rw [List.filter_append, hleft, List.filter_eq_nil_iff.mpr hskipped, List.append_nil]
  · have hfill := g.fill_trail []
    rw [List.nil_append] at hfill
    rw [Place.fill, hfill, Option.toList_some, List.map_singleton, List.append_assoc,
      List.append_assoc, List.singleton_append, ← hcons, ← hsplit]

/-! ## Inserting -/

theorem putInto_of_isChain {o b : Block} {slot : Slot} (hslot : o.kind.hasSlot slot = true)
    (hchain : slot.isChain = true) :
    putInto o slot b = do return o.setChild slot (some (← b.join (o.child? slot))) := by
  rw [putInto, if_pos hslot]
  cases o.child? slot with
  | none => rfl
  | some old =>
    simp only [if_pos hchain]
    rfl

/-- The block at the last frame of a place is known by its id. -/
theorem fill_eq_of_id_eq {p : Place} {trail : List Frame} {f : Frame} {o : Block}
    {x : Option Block} (htrail : p.trail = trail ++ [f]) (hids : (p.fill x).ids.Nodup)
    (ho : o ∈ (p.fill x).blocks) (hid : f.block.id = o.id) : f.fill x = o := by
  have hmem := ({ p with trail } : Place).mem_blocks_fill_self (f.fill x)
  rw [← Place.fill_of_trail htrail] at hmem
  exact eq_of_id_eq hids hmem ho (by rw [Frame.id_fill, hid])

/-- Writing that block with something else in its slot fills the place with that. -/
theorem update_setChild {p : Place} {trail : List Frame} {f : Frame} {x : Option Block}
    (htrail : p.trail = trail ++ [f]) (hids : (p.fill x).ids.Nodup) (y : Option Block) :
    (p.fill x).update ((f.fill x).setChild f.slot y) = p.fill y := by
  have hout : (f.fill x).id ∉ (({ p with trail } : Place).fill none).ids := by
    refine Place.not_mem_ids_of_nodup ?_ (f.fill x).id_mem_ids
    rw [← Place.fill_of_trail htrail]
    exact hids
  have hset : (f.fill x).setChild f.slot y = f.fill y := by
    rw [Frame.fill, Frame.fill, Block.setChild_setChild]
  rw [hset, Place.fill_of_trail htrail x,
    Place.update_fill hout (by rw [Frame.id_fill, Frame.id_fill]), ← Place.fill_of_trail htrail]

/-- Dropping a block that is elsewhere joins it to what the slot holds. -/
theorem attach_join {q p : Place} {b o : Block} {trail : List Frame} {f : Frame} {x : Option Block}
    (hids : (q.fill (some b)).ids.Nodup) (ho : o ∈ (q.fill (some b)).blocks)
    (ho₁ : o ∈ (q.fill none).blocks) (hid : f.block.id = o.id) (hchain : f.slot.isChain = true)
    (htrail : p.trail = trail ++ [f]) (hfill : p.fill x = q.fill none) (s : Supply) :
    ((q.fill (some b)).attach o.id f.slot (.block b)).run s = do
      return (p.fill (some (← b.join x)), s) := by
  have hids₁ : (q.fill none).ids.Nodup := (Place.nodup_ids_fill.mp hids).1
  have hb := Place.not_mem_ids_of_nodup hids b.id_mem_ids
  have howner : f.fill x = o := fill_eq_of_id_eq htrail (hfill ▸ hids₁) (hfill ▸ ho₁) hid
  have hchild : o.child? f.slot = x := by rw [← howner, Frame.child?_fill]
  have hslot : o.kind.hasSlot f.slot = true := by
    rw [← howner, Frame.fill, Block.kind_setChild]
    exact f.hasSlot
  have hnew : (o.child? f.slot).map Block.id ≠ some (Dropped.block b).id := by
    intro h
    obtain ⟨c, hc, hcid⟩ := Option.map_eq_some_iff.mp h
    have hmem : c ∈ (q.fill none).blocks :=
      mem_blocks_of_mem_walk ho₁ (Block.mem_walk_of_child? hc (Block.mem_walk_self c))
    exact hb (mem_ids.mpr ⟨c, hmem, hcid⟩)
  have hdetach : ((q.fill (some b)).detachDropped (.block b)).run s = ((q.fill none, b), s) := by
    rw [detachDropped, Place.take_fill hb]
    rfl
  rw [attach_run_bind (find?_of_mem hids ho) hnew hdetach (find?_of_mem hids₁ ho₁),
    putInto_of_isChain hslot hchain, hchild]
  cases b.join x with
  | ok y =>
    show Except.ok ((q.fill none).update (o.setChild f.slot (some y)), s) =
      .ok (p.fill (some y), s)
    rw [← howner, ← hfill, update_setChild htrail (hfill ▸ hids₁)]
  | error e => rfl

/-- Joining keeps the ids of both chains. -/
theorem perm_ids_chainOf_append (new rest : List Complete.Step) :
    (Block.idsSlot (chainOf (new ++ rest))).Perm
      (Block.idsSlot (chainOf new) ++ Block.idsSlot (chainOf rest)) := by
  have hfill := (Block.perm_bare_fill (new.map Complete.Step.frame) (chainOf rest)).map Block.id
  have hnew := Complete.fill_steps new []
  rw [List.append_nil, chainOf] at hnew
  rw [Complete.fill_steps, hnew, List.map_append, Block.map_id_map_bare, Block.map_id_map_bare,
    Block.map_id_map_bare] at hfill
  exact hfill

/-- Steps that move from one place in front of those at another keep their ids. -/
theorem perm_ids_fill_append {p q : Place} {new rest : List Complete.Step}
    (hfill : p.fill (chainOf rest) = q.fill none) :
    (p.fill (chainOf (new ++ rest))).ids.Perm (q.fill (chainOf new)).ids := by
  refine (Place.perm_ids_fill p (chainOf (new ++ rest))).trans ?_
  refine List.Perm.trans ?_ (Place.perm_ids_fill q (chainOf new)).symm
  rw [← hfill]
  refine ((perm_ids_chainOf_append new rest).append_left _).trans ?_
  refine (List.perm_append_comm.append_left _).trans ?_
  rw [← List.append_assoc]
  exact (Place.perm_ids_fill p (chainOf rest)).symm.append_right _

theorem fill_shift_append (g : Gap) (new : List Complete.Step) :
    (g.shift g.before (new ++ g.after)).fill [] = g.fill new := by
  rw [Gap.fill, Gap.scenario, Gap.shift]
  simp only [List.append_nil, ← List.append_assoc]
  rfl

/-- A drop at a gap makes a complete test exactly if the block heads a chain of complete steps, and
then the steps are in the gap. -/
theorem plan_attach_iff {t : Test} (hids : t.ids.Nodup) {r : Root} (hr : r ∈ t.roots)
    (hkind : r.block.kind ≠ .scenario) {g : Gap} (hc : t.complete = .ok (g.fill []))
    {o : Block} (ho : o ∈ t.scenarioBlocks) {slot : Slot} (hchain : slot.isChain = true)
    (htrail : ∃ trail f, g.trail = trail ++ [f] ∧ f.block.id = o.id ∧ f.slot = slot)
    (s : Supply) (p' : Plan) :
    (∃ t' s', (t.attach o.id slot (.block r.block)).run s = .ok (t', s') ∧ t'.plan = .ok p') ↔
      ∃ new, chainOf new = some r.block ∧ p' = g.plan.fill (Plan.stepsOf new) := by
  obtain ⟨q, rfl, hlibrary, hroots⟩ := exists_rootPlace hr hkind
  have hc₁ : (q.fill none).complete = .ok (g.fill []) := by
    rw [complete_congr hlibrary hroots, hc]
  have hadmissible := (complete_eq_ok_iff.mp hc).2
  obtain ⟨p, hspans, hfill⟩ := exists_spans hc₁
  obtain ⟨trail, f, hlast, hid, rfl⟩ := htrail
  have ho₁ : o ∈ (q.fill none).blocks := by
    refine (scenarioBlocks_sublist _).subset ?_
    rw [scenarioBlocks, hroots]
    exact ho
  rw [← hspans.trail] at hlast
  rw [attach_join hids ((scenarioBlocks_sublist _).subset ho) ho₁ hid hchain hlast hfill s]
  constructor
  · intro h
    obtain ⟨t', s', hrun, hplan⟩ := h
    cases hjoin : r.block.join (chainOf g.after) with
    | error e =>
      rw [hjoin] at hrun
      cases hrun
    | ok x =>
      rw [hjoin] at hrun
      cases hrun
      rw [plan] at hplan
      split at hplan
      · rename_i c hcomplete
        obtain ⟨-, zs, hzs, rfl⟩ := (hspans.complete_fill_iff hadmissible).mp hcomplete
        obtain ⟨new, hnew, rfl⟩ := Block.join_chainOf_iff.mp ⟨x, hjoin, hzs⟩
        refine ⟨new, hnew, ?_⟩
        rw [fill_shift_append, Complete.ofComplete_fill] at hplan
        exact (Except.ok.inj hplan).symm
      · cases hplan
  · intro h
    obtain ⟨new, hnew, rfl⟩ := h
    obtain ⟨x, hjoin, hx⟩ := Block.join_chainOf_iff.mpr ⟨new, hnew, rfl⟩
    -- No id is used twice: the ids are those of the test before.
    have hperm : (p.fill (some x)).ids.Perm (q.fill (some r.block)).ids := by
      rw [← hx, ← hnew]
      exact perm_ids_fill_append hfill
    have hnodup : ((p.fill (some x)).scenarioBlocks.map Block.id).Nodup :=
      (hperm.nodup_iff.mpr hids).sublist ((scenarioBlocks_sublist _).map Block.id)
    refine ⟨p.fill (some x), s, by rw [hjoin]; rfl, ?_⟩
    rw [plan, (hspans.complete_fill_iff hadmissible).mpr ⟨hnodup, _, hx, rfl⟩,
      fill_shift_append]
    simp only [Complete.ofComplete_fill]

/-- Inserting blocks is inserting steps.  A root dropped behind a block of a chain of steps has its
steps put right behind the one of that block, and dropped onto a scenario or a group it has them put
in front of the steps there, or what comes out has no plan. -/
theorem plan_insert {t : Test} (hids : t.ids.Nodup) {p : Plan} (hp : t.plan = .ok p) {r : Root}
    (hr : r ∈ t.roots) (hkind : r.block.kind ≠ .scenario) :
    (∀ b ∈ t.scenarioBlocks, ∀ o ∈ Block.spineSlot (b.child? .step),
      ∃ g : Gap, t.complete = .ok (g.fill []) ∧ p = g.plan.fill [] ∧ g.Behind o ∧
        ∀ s p', (∃ t' s', (t.insertNext o.id (.block r.block)).run s = .ok (t', s') ∧
            t'.plan = .ok p') ↔
          ∃ new, chainOf new = some r.block ∧ p' = g.plan.fill (Plan.stepsOf new)) ∧
    ∀ o ∈ t.scenarioBlocks, o.kind = .scenario ∨ o.kind = .group →
      ∃ g : Gap, t.complete = .ok (g.fill []) ∧ p = g.plan.fill [] ∧ g.Leads o ∧
        ∀ s p', (∃ t' s', (t.insertChild o.id (.block r.block)).run s = .ok (t', s') ∧
            t'.plan = .ok p') ↔
          ∃ new, chainOf new = some r.block ∧ p' = g.plan.fill (Plan.stepsOf new) := by
  obtain ⟨c, hc, rfl⟩ : ∃ c, t.complete = .ok c ∧ p = Plan.ofComplete c := by
    rw [plan] at hp
    split at hp
    · exact ⟨_, ‹_›, (Except.ok.inj hp).symm⟩
    · cases hp
  have hblocks : c.toTest.blocks = t.scenarioBlocks := by
    rw [(complete_eq_ok_iff.mp hc).1]
    rfl
  refine ⟨fun b hb o ho => ?_, fun o ho hstep => ?_⟩
  · obtain ⟨g, rfl, hbehind⟩ := Complete.exists_gap_behind (hblocks ▸ hb) ho
    have hmem : o ∈ t.scenarioBlocks := by
      rw [← hblocks] at hb ⊢
      obtain ⟨root, hroot, hwalk⟩ := mem_blocks.mp hb
      exact mem_blocks.mpr ⟨root, hroot, Block.mem_walk_of_mem_spineSlot hwalk ho⟩
    exact ⟨g, hc, Complete.ofComplete_fill g [], hbehind,
      plan_attach_iff hids hr hkind hc hmem rfl hbehind.exists_trail⟩
  · have hslot : o.kind.hasSlot .step = true := by
      rcases hstep with hstep | hstep <;> rw [hstep] <;> rfl
    obtain ⟨g, rfl, hleads⟩ := Complete.exists_gap_leads (hblocks ▸ ho) hslot
    exact ⟨g, hc, Complete.ofComplete_fill g [], hleads,
      plan_attach_iff hids hr hkind hc ho rfl hleads.exists_trail⟩

/-- A request with a pause behind it. -/
def arrival : Block :=
  .request "r" ⟨"start", "get", "/", [], []⟩ (some (.sleep "z" 1 none))

/-- A scenario with a group of one request, and a chain of two steps beside it. -/
def lingering : Test :=
  let item := Block.request "i" ⟨"item", "get", "/items", [], []⟩ none
  let load := Block.executor "x" (.constant 1 "1m")
  ⟨Library.empty, [⟨⟨0, 0⟩, .scenario "s" "Browse" (some load) (some (.group "g" "all" (some item) none))⟩,
    ⟨⟨200, 0⟩, arrival⟩]⟩

theorem plan_insert_lingering :
    let item := Block.request "i" ⟨"item", "get", "/items", [], []⟩ none
    let steps : List Plan.Step := [.request ⟨"start", "get", "/", [], []⟩, .sleep 1]
    lingering.ids.Nodup ∧
      (∃ g : Gap, lingering.plan = .ok (g.plan.fill []) ∧ g.Behind item ∧ ∀ s, ∃ t' s',
        (lingering.insertNext "i" (.block arrival)).run s = .ok (t', s') ∧
          t'.plan = .ok (g.plan.fill steps)) ∧
      ∃ g : Gap, lingering.plan = .ok (g.plan.fill []) ∧ g.Leads (.group "g" "all" (some item) none) ∧
        ∀ s, ∃ t' s', (lingering.insertChild "g" (.block arrival)).run s = .ok (t', s') ∧
          t'.plan = .ok (g.plan.fill steps) := by
  intro item steps
  have hids : lingering.ids.Nodup := by decide
  have hplan : ∃ p, lingering.plan = .ok p := ⟨_, rfl⟩
  obtain ⟨p, hp⟩ := hplan
  have hchain : chainOf [.request "r" ⟨"start", "get", "/", [], []⟩, .sleep "z" 1] = some arrival := rfl
  have hkind : arrival.kind ≠ .scenario := nofun
  obtain ⟨hnext, hchild⟩ := plan_insert hids hp (List.mem_cons_of_mem _ List.mem_cons_self) hkind
  refine ⟨hids, ?_, ?_⟩
  · obtain ⟨g, -, hfill, hbehind, hrun⟩ := hnext (.group "g" "all" (some item) none)
      (List.mem_cons_of_mem _ (List.mem_cons_of_mem _ List.mem_cons_self)) item List.mem_cons_self
    exact ⟨g, hfill ▸ hp, hbehind, fun s => (hrun s _).mpr ⟨_, hchain, rfl⟩⟩
  · obtain ⟨g, -, hfill, hleads, hrun⟩ := hchild (.group "g" "all" (some item) none)
      (List.mem_cons_of_mem _ (List.mem_cons_of_mem _ List.mem_cons_self)) (Or.inr rfl)
    exact ⟨g, hfill ▸ hp, hleads, fun s => (hrun s _).mpr ⟨_, hchain, rfl⟩⟩

end Test
end LoadTest

import LoadTest.Proofs.Editor.Moving

/-!
Dropping a template into a chain.

A drop puts a copy with fresh ids in front of the chain in the slot, and nothing else changes
(`Copied`), so a template can be dropped any number of times (`attachTimes_copied`).  But a slot
that holds a block with the id of the template counts as holding the template already, as if a block
were dropped where it is, and then nothing happens.
-/

namespace LoadTest

open Block (bare spineSlot)

namespace Block

/-- Ids have no part in what can be joined to a chain. -/
theorem onlySteps_anonymous {b : Block} : b.anonymous.OnlySteps ↔ b.OnlySteps := by
  induction b using childInduction with
  | step b ih =>
    rw [onlySteps_iff, onlySteps_iff, kind_anonymous, child?_anonymous]
    refine and_congr_right fun _ => ?_
    cases hc : b.child? .next with
    | none => simp [anonymousSlot]
    | some c =>
      rw [anonymousSlot]
      constructor
      · intro h d hd
        rw [← Option.some.inj hd]
        exact (ih .next c hc).mp (h c.anonymous rfl)
      · intro h d hd
        rw [← Option.some.inj hd]
        exact (ih .next c hc).mpr (h c rfl)

end Block

namespace Template

/-- The copy that is made of the template when ids are drawn from `s`. -/
def copy (d : Template) (s : Supply) : Block :=
  (d.instantiate.run s).1

/-- How many blocks the template has. -/
def size (d : Template) : Nat :=
  d.block.walk.length

/-- The copies that are made one after the other. -/
def copies (d : Template) (s : Supply) : Nat → List Block
  | 0 => []
  | n + 1 => d.copy s :: copies d (s.skip d.size) n

variable (d : Template) (s : Supply)

theorem ids_copy : (d.copy s).ids = s.upcoming d.size :=
  (d.instantiate_spec s).1

theorem anonymous_copy : (d.copy s).anonymous = d.block.anonymous :=
  (d.instantiate_spec s).2.2

theorem run_instantiate : d.instantiate.run s = (d.copy s, s.skip d.size) :=
  Prod.ext rfl (d.instantiate_spec s).2.1

theorem length_walk_copy : (d.copy s).walk.length = d.size := by
  have h := congrArg List.length (d.ids_copy s)
  rwa [Block.ids, List.length_map, Supply.upcoming, List.length_map, List.length_range] at h

theorem onlySteps_copy : (d.copy s).OnlySteps ↔ d.block.OnlySteps := by
  rw [← Block.onlySteps_anonymous, d.anonymous_copy s, Block.onlySteps_anonymous]

theorem id_copy_mem : (d.copy s).id ∈ s.upcoming d.size := by
  rw [← d.ids_copy s]
  exact (d.copy s).id_mem_ids

end Template

namespace Test

/-- `t'` is the test `t` with a copy of the template in front of the chain in the slot of `o`. -/
structure Copied (t : Test) (s : Supply) (o : Block) (slot : Slot) (d : Template) (t' : Test) :
    Prop where
  /-- There is one block more for every block of the template. -/
  blocks : (t'.blocks.map bare).Perm (t.blocks.map bare ++ (d.copy s).walk.map bare)
  count : t'.blocks.length = t.blocks.length + d.size
  /-- The copy is the template but for its ids, and these are new. -/
  same : (d.copy s).anonymous = d.block.anonymous
  fresh : ∀ i ∈ (d.copy s).ids, i ∉ t.ids
  nodup : t'.ids.Nodup
  /-- The slot holds the copy, and what it held is behind the chain of the copy. -/
  chain : ∃ o' ∈ t'.blocks, o'.bare = o.bare ∧ (o'.child? slot).map bare = some (d.copy s).bare ∧
    (spineSlot (o'.child? slot)).map bare =
      (d.copy s).spine.map bare ++ (spineSlot (o.child? slot)).map bare
  /-- Every other slot holds what it held, there or in the template. -/
  links : ∀ l, l ∈ t'.links ↔ (l ∈ t.links ∧ ¬ (l.owner.id = o.id ∧ l.slot = slot)) ∨
    l ∈ (d.copy s).links ∨ l = ⟨o.bare, slot, (d.copy s).bare⟩ ∨
      ∃ f, o.child? slot = some f ∧ l = ⟨(d.copy s).chainEnd.bare, .next, f.bare⟩
  roots : t'.rootKeys = t.rootKeys
  library : t'.library = t.library

/-- Dropping the template does not fault, uses up one id for each of its blocks and does what
`Copied` says. -/
def Copies (t : Test) (s : Supply) (owner : BlockId) (slot : Slot) (d : Template) : Prop :=
  ∃ t', (t.attach owner slot (.template d)).run s = .ok (t', s.skip d.size) ∧
    ∃ o ∈ t.blocks, o.id = owner ∧ t.Copied s o slot d t'

/-! ## What a slot holds -/

theorem holds_iff_child? {t : Test} (h : t.ids.Nodup) {o : Block} (ho : o ∈ t.blocks) {slot : Slot}
    {i : BlockId} : t.Holds o.id slot i ↔ (o.child? slot).map Block.id = some i := by
  rw [Option.map_eq_some_iff]
  constructor
  · intro hholds
    obtain ⟨o', ho', hid, b, hb, hi⟩ := hholds
    rw [eq_of_id_eq h ho' ho hid] at hb
    exact ⟨b, hb, hi⟩
  · intro hchild
    obtain ⟨b, hb, hi⟩ := hchild
    exact ⟨o, ho, rfl, b, hb, hi⟩

theorem exists_holds_iff {t : Test} (h : t.ids.Nodup) {o : Block} (ho : o ∈ t.blocks)
    {slot : Slot} : (∃ i, t.Holds o.id slot i) ↔ o.child? slot ≠ none := by
  simp only [holds_iff_child? h ho]
  cases o.child? slot <;> simp

theorem perm_ids_of_perm_bare {t t' : Test} {b : Block}
    (h : (t'.blocks.map bare).Perm (t.blocks.map bare ++ b.walk.map bare)) :
    t'.ids.Perm (t.ids ++ b.ids) := by
  have hids := h.map Block.id
  rw [List.map_append, Block.map_id_map_bare, Block.map_id_map_bare, Block.map_id_map_bare] at hids
  exact hids

end Test

/-! ## Filling the slot -/

/-- In a test whose ids differ, the slot of `o` is the place `q`, and `c` is the copy of the
template with what the slot holds behind it.  The ids that are drawn are new. -/
structure Copying (q : Place) (s : Supply) (d : Template) (o c : Block) (slot : Slot) : Prop where
  nodup : (q.fill (o.child? slot)).ids.Nodup
  distinct : (s.upcoming d.size).Nodup
  fresh : ∀ i ∈ s.upcoming d.size, i ∉ (q.fill (o.child? slot)).ids
  opening : Block.opening q.trail = some (o.bare, slot)
  hasSlot : o.kind.hasSlot slot = true
  mem_fill : ∀ x, o.setChild slot x ∈ (q.fill x).blocks
  continues : Block.Continues c (d.copy s) (o.child? slot)

namespace Copying

variable {q : Place} {s : Supply} {d : Template} {o c : Block} {slot : Slot}

theorem perm_blocks (h : Copying q s d o c slot) :
    ((q.fill (some c)).blocks.map bare).Perm
      ((q.fill (o.child? slot)).blocks.map bare ++ (d.copy s).walk.map bare) := by
  have hbefore := (Place.perm_bare_fill q (o.child? slot)).append_right ((d.copy s).walk.map bare)
  have hafter := (Place.perm_bare_fill q (some c)).trans
    ((h.continues.blocks.trans List.perm_append_comm).append_left _)
  rw [List.append_assoc] at hbefore
  exact hafter.trans hbefore.symm

theorem nodup_ids (h : Copying q s d o c slot) : (q.fill (some c)).ids.Nodup := by
  rw [(Test.perm_ids_of_perm_bare h.perm_blocks).nodup_iff, d.ids_copy s, List.nodup_append]
  exact ⟨h.nodup, h.distinct, fun i hi j hj he => h.fresh j hj (he ▸ hi)⟩

theorem owner_mem_open (h : Copying q s d o c slot) : o.id ∈ (q.fill none).ids :=
  Test.mem_ids.mpr ⟨_, h.mem_fill none, Block.id_setChild o slot none⟩

/-- The links around the slot and those in what it held are those of the other slots. -/
theorem mem_links_before (h : Copying q s d o c slot) {l : Block.Link} :
    l ∈ (q.fill none).links ∨ l ∈ Block.linksSlot (o.child? slot) ↔
      l ∈ (q.fill (o.child? slot)).links ∧ ¬ (l.owner.id = o.id ∧ l.slot = slot) := by
  obtain ⟨hopen, -, houtside⟩ := Place.nodup_ids_fill.mp h.nodup
  rw [Place.mem_links_fill (x := o.child? slot), h.opening]
  constructor
  · intro hl
    rcases hl with hl | hl
    · exact ⟨.inl hl, Test.not_mem_links_of_open hopen h.hasSlot (h.mem_fill none) hl⟩
    · refine ⟨.inr (.inr hl), fun howner => houtside o.id h.owner_mem_open ?_⟩
      exact howner.1 ▸ Block.owner_id_mem hl
  · intro hl
    obtain ⟨hl | hl | hl, hother⟩ := hl
    · exact .inl hl
    · obtain ⟨e, f, he, -, rfl⟩ := hl
      cases he
      exact absurd ⟨Block.id_bare o, rfl⟩ hother
    · exact .inr hl

theorem mem_links_after (h : Copying q s d o c slot) (l : Block.Link) :
    l ∈ (q.fill (some c)).links ↔
      (l ∈ (q.fill (o.child? slot)).links ∧ ¬ (l.owner.id = o.id ∧ l.slot = slot)) ∨
        l ∈ (d.copy s).links ∨ l = ⟨o.bare, slot, (d.copy s).bare⟩ ∨
          ∃ f, o.child? slot = some f ∧ l = ⟨(d.copy s).chainEnd.bare, .next, f.bare⟩ := by
  have hshuffle : ∀ a e b k f : Prop, a ∨ e ∨ b ∨ k ∨ f ↔ (a ∨ f) ∨ b ∨ e ∨ k := by tauto
  rw [← h.mem_links_before, Place.mem_links_fill, h.opening, Block.linksSlot_some,
    h.continues.links, ← h.continues.bare, ← hshuffle]
  simp

theorem copied (h : Copying q s d o c slot) :
    (q.fill (o.child? slot)).Copied s o slot d (q.fill (some c)) where
  blocks := h.perm_blocks
  count := by
    have hlength := h.perm_blocks.length_eq
    rwa [List.length_map, List.length_append, List.length_map, List.length_map,
      d.length_walk_copy] at hlength
  same := d.anonymous_copy s
  fresh := by
    rw [d.ids_copy s]
    exact h.fresh
  nodup := h.nodup_ids
  chain := by
    refine ⟨o.setChild slot (some c), h.mem_fill (some c), Block.bare_setChild o slot (some c), ?_⟩
    rw [Block.child?_setChild_self h.hasSlot, Option.map_some, h.continues.bare]
    exact ⟨rfl, h.continues.spine⟩
  links := h.mem_links_after
  roots := Place.rootKeys_fill_eq h.opening _ _
  library := rfl

end Copying

namespace Test

variable {t : Test} {s : Supply} {o : Block} {slot : Slot} {d : Template}

/-! ## One drop -/

theorem run_detachDropped_template (t : Test) (s : Supply) (d : Template) :
    (t.detachDropped (.template d)).run s = ((t, d.copy s), s.skip d.size) := by
  have hrun : (t.detachDropped (.template d)).run s =
      ((t, (d.instantiate.run s).1), (d.instantiate.run s).2) := rfl
  rw [hrun, d.run_instantiate]

/-- A chain slot that does not hold a block with the id of the template takes a copy, if what it
holds can be joined to that. -/
theorem exists_copied (h : t.ids.Nodup) (ho : o ∈ t.blocks) (hslot : o.kind.hasSlot slot = true)
    (hchain : slot.isChain = true) (hsteps : o.child? slot ≠ none → d.block.OnlySteps)
    (hnew : (o.child? slot).map Block.id ≠ some d.id) (hdistinct : (s.upcoming d.size).Nodup)
    (hfresh : ∀ i ∈ s.upcoming d.size, i ∉ t.ids) :
    ∃ t', (t.attach o.id slot (.template d)).run s = .ok (t', s.skip d.size) ∧
      t.Copied s o slot d t' := by
  have hfind := find?_of_mem h ho
  have hjoin : slot.kept o ≠ none → (d.copy s).OnlySteps := by
    rw [Slot.kept_of_isChain hchain, d.onlySteps_copy s]
    exact hsteps
  obtain ⟨c, hput, hc⟩ := exists_putInto_of_onlySteps hslot hjoin
  rw [Slot.kept_of_isChain hchain] at hc
  obtain ⟨q, hopen, hfill, hq⟩ := exists_slotPlace h ho hslot
  have hrun := attach_run hfind hnew (run_detachDropped_template t s d) hfind hput
  have hupdate := (hq (o.child? slot)).2 (some c)
  rw [hfill] at hupdate
  rw [hupdate] at hrun
  refine ⟨q.fill (some c), hrun, ?_⟩
  rw [← hfill] at h hfresh
  have hcopying : Copying q s d o c slot :=
    ⟨h, hdistinct, hfresh, hopen, hslot, fun x => (hq x).1, hc⟩
  exact hfill ▸ hcopying.copied

/-- A slot that holds a block with the id of the template gets no copy. -/
theorem not_copies_of_held {owner : BlockId} (hfind : t.find? owner = .ok (some o))
    (hheld : (o.child? slot).map Block.id = some d.id) : ¬ t.Copies s owner slot d := by
  intro hcopies
  obtain ⟨t', hrun, o', -, -, hcopied⟩ := hcopies
  rw [attach_run_of_held hfind hheld] at hrun
  have heq : t = t' := congrArg Prod.fst (Except.ok.inj hrun)
  have hsize : 0 < d.size := List.length_pos_of_mem d.block.mem_walk_self
  have hcount := hcopied.count
  rw [← heq] at hcount
  omega

/-- A chain slot gets none either if what it holds cannot be joined to the chain of the copy. -/
theorem not_copies_of_not_onlySteps {owner : BlockId} (hfind : t.find? owner = .ok (some o))
    (hslot : o.kind.hasSlot slot = true) (hchain : slot.isChain = true) {k : Block}
    (hk : o.child? slot = some k) (hnew : (o.child? slot).map Block.id ≠ some d.id)
    (hsteps : ¬ d.block.OnlySteps) : ¬ t.Copies s owner slot d := by
  intro hcopies
  obtain ⟨t', hrun, -⟩ := hcopies
  rw [← Slot.kept_of_isChain hchain] at hk
  obtain ⟨f, hfault⟩ := exists_putInto_fault hslot hk ((d.onlySteps_copy s).not.mpr hsteps)
  rw [attach_run_bind hfind hnew (run_detachDropped_template t s d) hfind, hfault] at hrun
  cases hrun

/-- Once the guard has let a template pass, dropping it on a chain slot adds a copy exactly if the
slot does not hold a block with the id of the template, and the chain of the template can go on
where the slot holds something.  If every slot of the template holds what belongs there, only the id
counts; and if it is the id of the block in the slot, then nothing happens. -/
theorem copies_iff (h : t.ids.Nodup) {owner : BlockId} (hchain : slot.isChain = true)
    (hcan : t.canAttach owner slot (.template d) = .ok true)
    (hdistinct : (s.upcoming d.size).Nodup) (hfresh : ∀ i ∈ s.upcoming d.size, i ∉ t.ids) :
    (t.Copies s owner slot d ↔
      ¬ t.Holds owner slot d.id ∧ ((∃ i, t.Holds owner slot i) → d.block.OnlySteps)) ∧
    (d.block.Typed → (t.Copies s owner slot d ↔ ¬ t.Holds owner slot d.id)) ∧
    (t.Holds owner slot d.id → (t.attach owner slot (.template d)).run s = .ok (t, s)) := by
  obtain ⟨o, hfind, hslot, hacc, -⟩ := of_canAttach hcan
  obtain ⟨ho, rfl⟩ := mem_of_find?_eq_some hfind
  have hiff : t.Copies s o.id slot d ↔
      ¬ t.Holds o.id slot d.id ∧ ((∃ i, t.Holds o.id slot i) → d.block.OnlySteps) := by
    rw [holds_iff_child? h ho, exists_holds_iff h ho]
    constructor
    · intro hcopies
      refine ⟨fun hheld => not_copies_of_held hfind hheld hcopies, fun hne => ?_⟩
      by_contra hsteps
      obtain ⟨k, hk⟩ := Option.ne_none_iff_exists'.mp hne
      have hnew : (o.child? slot).map Block.id ≠ some d.id :=
        fun hheld => not_copies_of_held hfind hheld hcopies
      exact not_copies_of_not_onlySteps hfind hslot hchain hk hnew hsteps hcopies
    · intro hfits
      obtain ⟨hnew, hsteps⟩ := hfits
      obtain ⟨t', hrun, hcopied⟩ :=
        exists_copied h ho hslot hchain hsteps hnew hdistinct hfresh
      exact ⟨t', hrun, o, ho, rfl, hcopied⟩
  refine ⟨hiff, fun htyped => ?_, fun hheld => ?_⟩
  · rw [hiff, and_iff_left]
    intro _
    rw [Slot.accepts_of_isChain hchain] at hacc
    exact htyped.onlySteps hacc
  · exact attach_run_of_held hfind ((holds_iff_child? h ho).mp hheld) s

/-- A template may have the id of a block of the test: behind the first request its copy is put in
front of the second, but on the slot that holds the first request it is not. -/
theorem copies_iff_twoRequests :
    let d : Template := ⟨plainRequest "a" none⟩
    (twoRequests "a" "b").Copies ⟨Nat.repr, 0⟩ "a" .next d ∧
      ¬ (twoRequests "a" "b").Copies ⟨Nat.repr, 0⟩ "s" .step d := by
  intro d
  have hids : (twoRequests "a" "b").ids.Nodup := by decide
  have hdistinct : ((⟨Nat.repr, 0⟩ : Supply).upcoming d.size).Nodup := by decide
  have hfresh : ∀ i ∈ (⟨Nat.repr, 0⟩ : Supply).upcoming d.size, i ∉ (twoRequests "a" "b").ids := by
    decide
  have htyped : d.block.Typed := Block.typed_iff_links.mpr (by decide)
  have hnext : (twoRequests "a" "b").canAttach "a" .next (.template d) = .ok true := rfl
  have hstep : (twoRequests "a" "b").canAttach "s" .step (.template d) = .ok true := rfl
  have hheld : (twoRequests "a" "b").Holds "s" .step "a" := holds_iff.mpr (by decide)
  have hother : ¬ (twoRequests "a" "b").Holds "a" .next "a" := holds_iff.not.mpr (by decide)
  constructor
  · exact ((copies_iff hids (by rfl) hnext hdistinct hfresh).2.1 htyped).mpr hother
  · exact fun h => ((copies_iff hids (by rfl) hstep hdistinct hfresh).1.mp h).1 hheld

/-! ## Many drops -/

/-- The template dropped on the same slot `n` times. -/
def attachTimes (owner : BlockId) (slot : Slot) (d : Template) : Nat → Test → Edit Test
  | 0, t => return t
  | n + 1, t => do attachTimes owner slot d n (← t.attach owner slot (.template d))

theorem attachTimes_succ_run {t' : Test} {s' : Supply} {owner : BlockId} (n : Nat)
    (h : (t.attach owner slot (.template d)).run s = .ok (t', s')) :
    (attachTimes owner slot d (n + 1) t).run s = (attachTimes owner slot d n t').run s' := by
  rw [attachTimes, StateT.run_bind, h]
  rfl

theorem Copied.mem_ids {t' : Test} (h : t.Copied s o slot d t') {i : BlockId} :
    i ∈ t'.ids ↔ i ∈ t.ids ∨ i ∈ s.upcoming d.size := by
  rw [(perm_ids_of_perm_bare h.blocks).mem_iff, d.ids_copy s, List.mem_append]

/-- After a drop the slot holds a block with a new id. -/
theorem Copied.exists_owner {t' : Test} (h : t.Copied s o slot d t')
    (hid : d.id ∉ s.upcoming d.size) : ∃ o' ∈ t'.blocks, o'.bare = o.bare ∧
      (o'.child? slot).map Block.id ≠ some d.id ∧ (spineSlot (o'.child? slot)).map bare =
        (d.copy s).spine.map bare ++ (spineSlot (o.child? slot)).map bare := by
  obtain ⟨o', ho', hbare, hhead, hspine⟩ := h.chain
  refine ⟨o', ho', hbare, fun hheld => hid ?_, hspine⟩
  obtain ⟨f, hf, hfbare⟩ := Option.map_eq_some_iff.mp hhead
  rw [hf, Option.map_some, Option.some.injEq, Block.id_eq_of_bare_eq hfbare] at hheld
  exact hheld ▸ d.id_copy_mem s

/-- A template can be dropped any number of times on a slot that does not hold a block with its id:
the copies stand in front of what was there, the last of them first. -/
theorem attachTimes_copied (n : Nat) (h : t.ids.Nodup) (ho : o ∈ t.blocks)
    (hslot : o.kind.hasSlot slot = true) (hchain : slot.isChain = true)
    (hsteps : d.block.OnlySteps) (hnew : (o.child? slot).map Block.id ≠ some d.id)
    (hdistinct : (s.upcoming (n * d.size)).Nodup)
    (hfresh : ∀ i ∈ s.upcoming (n * d.size), i ∉ t.ids ∧ i ≠ d.id) :
    ∃ t', (attachTimes o.id slot d n t).run s = .ok (t', s.skip (n * d.size)) ∧ t'.ids.Nodup ∧
      (t'.blocks.map bare).Perm
        (t.blocks.map bare ++ ((d.copies s n).flatMap Block.walk).map bare) ∧
      ∃ o' ∈ t'.blocks, o'.bare = o.bare ∧ (spineSlot (o'.child? slot)).map bare =
        ((d.copies s n).reverse.flatMap Block.spine).map bare ++
          (spineSlot (o.child? slot)).map bare := by
  induction n generalizing t s o with
  | zero =>
    rw [Nat.zero_mul]
    exact ⟨t, rfl, h, by simp [Template.copies], o, ho, rfl, by simp [Template.copies]⟩
  | succ n ih =>
    rw [Nat.succ_mul, Nat.add_comm, Supply.upcoming_add] at hdistinct hfresh
    obtain ⟨hfirst, hrest, hdisjoint⟩ := List.nodup_append.mp hdistinct
    obtain ⟨hfreshFirst, hfreshRest⟩ := List.forall_mem_append.mp hfresh
    obtain ⟨t₁, hrun, hcopied⟩ := exists_copied h ho hslot hchain (fun _ => hsteps) hnew hfirst
      fun i hi => (hfreshFirst i hi).1
    obtain ⟨o₁, ho₁, hbare, hnew₁, hspine⟩ :=
      hcopied.exists_owner fun hid => (hfreshFirst _ hid).2 rfl
    have hslot₁ : o₁.kind.hasSlot slot = true := by rwa [Block.kind_eq_of_bare_eq hbare]
    have hfresh₁ : ∀ i ∈ (s.skip d.size).upcoming (n * d.size), i ∉ t₁.ids ∧ i ≠ d.id := by
      intro i hi
      rw [hcopied.mem_ids, not_or]
      exact ⟨⟨(hfreshRest i hi).1, fun hcopy => hdisjoint i hcopy i hi rfl⟩, (hfreshRest i hi).2⟩
    obtain ⟨t', hrun', hnodup, hblocks, o', ho', hbare', hspine'⟩ :=
      ih hcopied.nodup ho₁ hslot₁ hnew₁ hrest hfresh₁
    refine ⟨t', ?_, hnodup, ?_, o', ho', hbare'.trans hbare, ?_⟩
    · rw [attachTimes_succ_run n hrun, ← Block.id_eq_of_bare_eq hbare, hrun', Supply.skip_skip,
        Nat.succ_mul, Nat.add_comm]
    · rw [Template.copies, List.flatMap_cons, List.map_append, ← List.append_assoc]
      exact hblocks.trans (hcopied.blocks.append_right _)
    · rw [hspine', hspine, Template.copies, List.reverse_cons, List.flatMap_append,
        List.flatMap_singleton, List.map_append, List.append_assoc]

/-- On a slot that holds a block with its id nothing happens, however often it is dropped. -/
theorem attachTimes_of_held {owner : BlockId} (hfind : t.find? owner = .ok (some o))
    (hheld : (o.child? slot).map Block.id = some d.id) (n : Nat) :
    (attachTimes owner slot d n t).run s = .ok (t, s) := by
  induction n with
  | zero => rfl
  | succ n ih => rw [attachTimes_succ_run n (attach_run_of_held hfind hheld s), ih]

end Test
end LoadTest

import LoadTest.Proofs.Editor.Moving

/-!
What the guard of a drop promises.

A dropped block stands for the block of the test that has its id, and may be an old copy of it.
`attach` moves the block of the test, and `canAttach` looks for the owner in that block as well, but
it asks the slot about the copy.  So a slot that accepts the copy may be given a block that it does
not accept, and a chain may be asked to go on behind a block that has no `next` slot.
-/

namespace LoadTest
namespace Test

/-! ## The block that is moved -/

/-- The block that a drop of `b` moves: the one of the test with the id of `b`, and `b` itself if
there is none. -/
def current (t : Test) (b : Block) : Block :=
  (t.blocks.find? (·.id == b.id)).getD b

theorem current_of_mem {t : Test} (h : t.ids.Nodup) {b x : Block} (hx : x ∈ t.blocks)
    (hid : x.id = b.id) : t.current b = x := by
  have hfound := find?_of_mem h hx
  rw [find?_of_nodup h, Except.ok.injEq, hid] at hfound
  rw [current, hfound, Option.getD_some]

theorem current_of_not_mem {t : Test} {b : Block} (h : b.id ∉ t.ids) : t.current b = b := by
  have hnone : t.blocks.find? (·.id == b.id) = none := by
    rw [List.find?_eq_none]
    intro x hx he
    exact h (mem_ids.mpr ⟨x, hx, by simpa using he⟩)
  rw [current, hnone, Option.getD_none]

/-- The block that is moved is in the test if its id is. -/
theorem current_mem {t : Test} (h : t.ids.Nodup) {b : Block} (hb : b.id ∈ t.ids) :
    t.current b ∈ t.blocks ∧ (t.current b).id = b.id := by
  obtain ⟨x, hx, hid⟩ := mem_ids.mp hb
  rw [current_of_mem h hx hid]
  exact ⟨hx, hid⟩

theorem run_detachDropped {t : Test} (h : t.ids.Nodup) (b : Block) (s : Supply) :
    (t.detachDropped (.block b)).run s = ((t.detach b.id, t.current b), s) := by
  by_cases hb : b.id ∈ t.ids
  · obtain ⟨x, hx, hid⟩ := mem_ids.mp hb
    obtain ⟨p, rfl⟩ := Place.exists_place hx
    have hout := Place.not_mem_ids_of_nodup h x.id_mem_ids
    rw [current_of_mem h hx hid]
    simp only [detachDropped, detach, ← hid, Place.take_fill hout]
    rfl
  · rw [current_of_not_mem hb]
    simp only [detachDropped, detach, take_of_not_mem hb]
    rfl

/-- A block that is no part of what is moved stays, but for what its slots hold. -/
theorem Sound.exists_mem_detach {t : Test} (h : t.Sound) {b o : Block} (ho : o ∈ t.blocks)
    (hout : o.id ∉ (t.current b).ids) : ∃ o₁ ∈ (t.detach b.id).blocks, o₁.bare = o.bare := by
  by_cases hb : b.id ∈ t.ids
  · obtain ⟨x, hx, hid⟩ := mem_ids.mp hb
    rw [current_of_mem h.nodup hx hid] at hout
    obtain ⟨p, rfl⟩ := Place.exists_place hx
    rw [← hid, Place.detach_fill (Place.not_mem_ids_of_nodup h.nodup x.id_mem_ids)]
    exact Place.exists_mem_fill_none ho hout
  · rw [Test.detach, take_of_not_mem hb]
    exact ⟨o, ho, rfl⟩

/-! ## The slot that is filled -/

/-- A slot of a block is filled with a block that does not have that block in it. -/
theorem find?_update_setChild {t : Test} (h : t.ids.Nodup) {o c : Block} (ho : o ∈ t.blocks)
    {slot : Slot} (hslot : o.kind.hasSlot slot = true) (hout : o.id ∉ c.ids) :
    (t.update (o.setChild slot (some c))).find? o.id = .ok (some (o.setChild slot (some c))) := by
  obtain ⟨q, -, hfill, hq⟩ := exists_slotPlace h ho hslot
  have hupdate := (hq (o.child? slot)).2 (some c)
  have hcount : (q.fill (some c)).ids.count o.id ≤ 1 := by
    rw [(Place.perm_ids_fill q (some c)).count_eq, List.count_append, Block.idsSlot_some,
      List.count_eq_zero_of_not_mem hout]
    rw [← hfill] at h
    exact List.nodup_iff_count_le_one.mp (Place.nodup_ids_fill.mp h).1 o.id
  have hfind := find?_of_count_le_one (hq (some c)).1 (by rwa [Block.id_setChild])
  rwa [Block.id_setChild, ← hupdate, hfill] at hfind

/-- What a slot keeps does not have the owner of the slot in it. -/
theorem owner_not_mem_kept {t : Test} (h : t.ids.Nodup) {o : Block} (ho : o ∈ t.blocks)
    {slot : Slot} (hslot : o.kind.hasSlot slot = true) : o.id ∉ Block.idsSlot (slot.kept o) := by
  intro hkept
  obtain ⟨q, -, hfill, hq⟩ := exists_slotPlace h ho hslot
  rw [← hfill] at h
  refine (Place.nodup_ids_fill.mp h).2.2 o.id ?_ (Slot.mem_ids_kept hkept).2
  exact mem_ids.mpr ⟨_, (hq none).1, Block.id_setChild o slot none⟩

/-! ## A guarded drop -/

/-- Dropping `b` does not fault, and then the slot holds a block that it accepts. -/
def Attached (t : Test) (s : Supply) (owner : BlockId) (slot : Slot) (b : Block) : Prop :=
  ∃ t' s', (t.attach owner slot (.block b)).run s = .ok (t', s') ∧
    ∃ o c, t'.find? owner = .ok (some o) ∧ o.child? slot = some c ∧ slot.accepts c.kind = true

/-- What is known of the block that is moved when the guard has let a copy of it pass. -/
theorem Sound.of_canAttach_block {t : Test} (h : t.Sound) {owner : BlockId} {slot : Slot}
    {b : Block} (hcan : t.canAttach owner slot (.block b) = .ok true) :
    ∃ o ∈ t.blocks, o.id = owner ∧ o.kind.hasSlot slot = true ∧ slot.accepts b.kind = true ∧
      owner ∉ (t.current b).ids := by
  obtain ⟨o, hfind, hslot, hacc, hblock⟩ := of_canAttach hcan
  obtain ⟨ho, hid⟩ := mem_of_find?_eq_some hfind
  obtain ⟨current, hcurrent, hout⟩ := hblock b rfl
  rw [find?_of_nodup h.nodup, Except.ok.injEq] at hcurrent
  rw [← hcurrent] at hout
  exact ⟨o, ho, hid, hslot, hacc, hout⟩

/-- What is kept behind the block that is moved can be joined to its chain. -/
def Joins (t : Test) (owner : BlockId) (slot : Slot) (b : Block) : Prop :=
  ∀ o ∈ (t.detach b.id).blocks, o.id = owner → slot.kept o ≠ none → (t.current b).OnlySteps

/-- A block of the test that fits into a slot has a chain that can go on. -/
theorem Sound.joins_of_mem {t : Test} (h : t.Sound) {owner : BlockId} {slot : Slot} {b : Block}
    (hb : b.id ∈ t.ids) (hacc : slot.accepts (t.current b).kind = true) :
    t.Joins owner slot b := by
  intro o _ _ hkept
  have hmem := (current_mem h.nodup hb).1
  have htyped : (t.current b).Typed := fun x hx => h.typed x (mem_blocks_of_mem_walk hmem hx)
  obtain ⟨k, hk⟩ := Option.ne_none_iff_exists'.mp hkept
  refine htyped.onlySteps ?_
  rwa [← Slot.accepts_of_isChain (Slot.child?_of_kept hk).1]

/-- A slot that holds the block already is left as it is. -/
theorem Sound.attached_of_holds {t : Test} (h : t.Sound) (s : Supply) {o b x : Block} {slot : Slot}
    (ho : o ∈ t.blocks) (hx : o.child? slot = some x) (hid : x.id = b.id) :
    t.Attached s o.id slot b := by
  have hfind := find?_of_mem h.nodup ho
  have hheld : (o.child? slot).map Block.id = some (Dropped.block b).id := by
    rw [hx, Option.map_some, hid]
    rfl
  exact ⟨t, s, attach_run_of_held hfind hheld s, o, x, hfind, hx, h.typed o ho slot x hx⟩

/-- Elsewhere the slot of the owner is filled, once the block has been taken out. -/
theorem Sound.attach_run_current {t : Test} (h : t.Sound) (s : Supply) {o b : Block} {slot : Slot}
    (ho : o ∈ t.blocks) (hslot : o.kind.hasSlot slot = true) (hout : o.id ∉ (t.current b).ids)
    (hnew : (o.child? slot).map Block.id ≠ some b.id) :
    ∃ o₁ ∈ (t.detach b.id).blocks, o₁.id = o.id ∧ o₁.kind.hasSlot slot = true ∧
      (t.attach o.id slot (.block b)).run s =
        do return ((t.detach b.id).update (← putInto o₁ slot (t.current b)), s) := by
  obtain ⟨o₁, ho₁, hbare⟩ := h.exists_mem_detach ho hout
  have hid : o₁.id = o.id := Block.id_eq_of_bare_eq hbare
  have hfind₁ : (t.detach b.id).find? o.id = .ok (some o₁) := by
    rw [← hid]
    exact find?_of_mem (h.detach b.id).nodup ho₁
  refine ⟨o₁, ho₁, hid, by rwa [Block.kind_eq_of_bare_eq hbare], ?_⟩
  exact attach_run_bind (find?_of_mem h.nodup ho) hnew (run_detachDropped h.nodup b s) hfind₁

/-- If the drop fills the slot, then everything depends on the kind of what is in it. -/
theorem attached_iff_of_run {t t₁ : Test} {s s₁ : Supply} {slot : Slot} {o b c : Block}
    (h : t₁.ids.Nodup) (ho : o ∈ t₁.blocks) (hslot : o.kind.hasSlot slot = true)
    (hout : o.id ∉ c.ids) (hrun : (t.attach o.id slot (.block b)).run s =
      .ok (t₁.update (o.setChild slot (some c)), s₁)) :
    t.Attached s o.id slot b ↔ slot.accepts c.kind = true := by
  have hfind := find?_update_setChild h ho hslot hout
  have hchild : (o.setChild slot (some c)).child? slot = some c :=
    Block.child?_setChild_self hslot (some c)
  constructor
  · rintro ⟨t', s', hrun', o', c', hfind', hchild', hacc⟩
    rw [hrun] at hrun'
    cases hrun'
    rw [hfind] at hfind'
    cases hfind'
    rw [hchild] at hchild'
    cases hchild'
    exact hacc
  · intro hacc
    exact ⟨_, s₁, hrun, _, c, hfind, hchild, hacc⟩

/-- Once the guard has let a copy of a block pass, dropping it goes well exactly if the slot accepts
the block that is moved and what the slot keeps can be joined to that block. -/
theorem Sound.attached_iff {t : Test} (h : t.Sound) {owner : BlockId} {slot : Slot} {b : Block}
    (hcan : t.canAttach owner slot (.block b) = .ok true) (s : Supply) :
    t.Attached s owner slot b ↔
      slot.accepts (t.current b).kind = true ∧ t.Joins owner slot b := by
  obtain ⟨o, ho, rfl, hslot, -, hout⟩ := h.of_canAttach_block hcan
  by_cases hheld : (o.child? slot).map Block.id = some b.id
  · obtain ⟨x, hx, hid⟩ := Option.map_eq_some_iff.mp hheld
    have hmem : x ∈ t.blocks :=
      mem_blocks_of_mem_walk ho (Block.mem_walk_of_child? hx (Block.mem_walk_self x))
    have hacc : slot.accepts (t.current b).kind = true := by
      rw [current_of_mem h.nodup hmem hid]
      exact h.typed o ho slot x hx
    have hjoins : t.Joins o.id slot b := h.joins_of_mem (mem_ids.mpr ⟨x, hmem, hid⟩) hacc
    exact iff_of_true (h.attached_of_holds s ho hx hid) ⟨hacc, hjoins⟩
  · obtain ⟨o₁, ho₁, hid, hslot₁, hrun⟩ := h.attach_run_current s ho hslot hout hheld
    have hnodup := (h.detach b.id).nodup
    rw [← hid] at hout hrun ⊢
    -- The owner has its id for itself, so the chain is joined to what this one block keeps.
    have hjoins : t.Joins o₁.id slot b ↔ (slot.kept o₁ ≠ none → (t.current b).OnlySteps) :=
      ⟨fun hall => hall o₁ ho₁ rfl, fun hone o₂ ho₂ hid₂ => eq_of_id_eq hnodup ho₂ ho₁ hid₂ ▸ hone⟩
    rw [hjoins]
    by_cases hjoin : slot.kept o₁ ≠ none → (t.current b).OnlySteps
    · obtain ⟨c, hput, hc⟩ := exists_putInto_of_onlySteps hslot₁ hjoin
      have hfree : o₁.id ∉ c.ids := by
        rw [hc.perm_ids.mem_iff, List.mem_append, not_or]
        exact ⟨hout, owner_not_mem_kept hnodup ho₁ hslot₁⟩
      rw [hput] at hrun
      rw [attached_iff_of_run hnodup ho₁ hslot₁ hfree hrun, hc.kind_eq, and_iff_left hjoin]
    · refine iff_of_false ?_ fun hboth => hjoin hboth.2
      push Not at hjoin
      obtain ⟨k, hk⟩ := Option.ne_none_iff_exists'.mp hjoin.1
      obtain ⟨f, hfault⟩ := exists_putInto_fault hslot₁ hk hjoin.2
      rw [hfault] at hrun
      rintro ⟨t', s', hrun', -⟩
      rw [hrun] at hrun'
      cases hrun'

/-- The guard is sound but for what it overlooks.  A drop that it lets pass goes well exactly if the
slot accepts the block that is moved and can go on behind it.  If that block is in the test only
its kind counts, so all is well if the copy is of that kind; and all is well with a block from
elsewhere whose slots hold what belongs there. -/
theorem attached_of_canAttach {t : Test} (h : t.Sound) {owner : BlockId} {slot : Slot} {b : Block}
    (hcan : t.canAttach owner slot (.block b) = .ok true) (s : Supply) :
    (t.Attached s owner slot b ↔
      slot.accepts (t.current b).kind = true ∧ t.Joins owner slot b) ∧
    (b.id ∈ t.ids → (t.Attached s owner slot b ↔ slot.accepts (t.current b).kind = true)) ∧
    (b.id ∈ t.ids → (t.current b).kind = b.kind → t.Attached s owner slot b) ∧
    (b.id ∉ t.ids → b.Typed → t.Attached s owner slot b) := by
  obtain ⟨-, -, -, -, hcopy, -⟩ := h.of_canAttach_block hcan
  have hiff := h.attached_iff hcan s
  have hmem (hb : b.id ∈ t.ids) :
      t.Attached s owner slot b ↔ slot.accepts (t.current b).kind = true :=
    hiff.trans (and_iff_left_of_imp (h.joins_of_mem hb))
  refine ⟨hiff, hmem, fun hb hkind => (hmem hb).mpr (hkind ▸ hcopy), fun hb htyped => ?_⟩
  rw [hiff, Joins, current_of_not_mem hb]
  refine ⟨hcopy, fun o _ _ hkept => htyped.onlySteps ?_⟩
  obtain ⟨k, hk⟩ := Option.ne_none_iff_exists'.mp hkept
  rwa [← Slot.accepts_of_isChain (Slot.child?_of_kept hk).1]

/-- A scenario with a request and an executor. -/
def oneRequest : Test :=
  let executor := Block.executor "x" (.constant 1 "1m")
  ⟨Library.empty, [⟨⟨0, 0⟩, .scenario "s" "" (some executor) (some (plainRequest "p" none))⟩]⟩

/-- The guard lets a request pass that stands for the executor. -/
theorem attached_of_canAttach_stale :
    oneRequest.Sound ∧
      oneRequest.canAttach "s" .step (.block (plainRequest "x" none)) = .ok true ∧
      ¬ oneRequest.Attached ⟨Nat.repr, 0⟩ "s" .step (plainRequest "x" none) := by
  have hsound : oneRequest.Sound := ⟨by decide, typed_iff_links.mpr (by decide)⟩
  have hcan : oneRequest.canAttach "s" .step (.block (plainRequest "x" none)) = .ok true := rfl
  refine ⟨hsound, hcan, ?_⟩
  rw [(attached_of_canAttach hsound hcan ⟨Nat.repr, 0⟩).2.1 (by decide)]
  decide

end Test
end LoadTest

import LoadTest.Proofs.Block.Spine
import LoadTest.Proofs.Editor.Sound

/-!
Attaching: the dropped block is taken out, what its new slot keeps is joined to the end of its
chain, and the slot is filled with that.
-/

namespace LoadTest

/-- What the slot of `o` keeps behind a block that is put there. -/
def Slot.kept (s : Slot) (o : Block) : Option Block :=
  if s.isChain then o.child? s else none

namespace Slot

theorem kept_of_isChain {s : Slot} (h : s.isChain = true) (o : Block) :
    s.kept o = o.child? s :=
  if_pos h

theorem kept_of_not_isChain {s : Slot} (h : s.isChain = false) (o : Block) :
    s.kept o = none :=
  if_neg (by simp [h])

/-- Only a chain slot keeps anything, and what it keeps is what it holds. -/
theorem child?_of_kept {s : Slot} {o k : Block} (h : s.kept o = some k) :
    s.isChain = true ∧ o.child? s = some k := by
  rw [kept] at h
  split at h
  · exact ⟨‹_›, h⟩
  · cases h

theorem mem_walk_kept {s : Slot} {o b : Block} (h : b ∈ Block.walkSlot (s.kept o)) :
    s.isChain = true ∧ b ∈ Block.walkSlot (o.child? s) := by
  cases hk : s.kept o with
  | none =>
    rw [hk] at h
    cases h
  | some k =>
    obtain ⟨hchain, hc⟩ := child?_of_kept hk
    rw [hc, ← hk]
    exact ⟨hchain, h⟩

theorem mem_ids_kept {s : Slot} {o : Block} {i : BlockId} (h : i ∈ Block.idsSlot (s.kept o)) :
    s.isChain = true ∧ i ∈ Block.idsSlot (o.child? s) := by
  obtain ⟨b, hb, rfl⟩ := List.mem_map.mp h
  obtain ⟨hchain, hb⟩ := mem_walk_kept hb
  exact ⟨hchain, List.mem_map_of_mem hb⟩

theorem mem_links_kept {s : Slot} {o : Block} {l : Block.Link}
    (h : l ∈ Block.linksSlot (s.kept o)) :
    s.isChain = true ∧ l ∈ Block.linksSlot (o.child? s) := by
  obtain ⟨b, hb, hl⟩ := List.mem_flatMap.mp h
  obtain ⟨hchain, hb⟩ := mem_walk_kept hb
  exact ⟨hchain, List.mem_flatMap.mpr ⟨b, hb, hl⟩⟩

end Slot

namespace Block

/-- `c` is `b` with the chain `kept` behind its own. -/
structure Continues (c b : Block) (kept : Option Block) : Prop where
  bare : c.bare = b.bare
  blocks : (c.walk.map Block.bare).Perm (b.walk.map Block.bare ++ (walkSlot kept).map Block.bare)
  spine : c.spine.map Block.bare = b.spine.map Block.bare ++ (spineSlot kept).map Block.bare
  links : ∀ l, l ∈ c.links ↔ l ∈ b.links ∨
    (∃ k, kept = some k ∧ l = ⟨b.chainEnd.bare, .next, k.bare⟩) ∨ l ∈ linksSlot kept

theorem continues_none (b : Block) : Continues b b none where
  bare := rfl
  blocks := by simp [walkSlot]
  spine := by simp [spineSlot]
  links l := by simp [linksSlot, walkSlot]

theorem Continues.id_eq {c b : Block} {kept : Option Block} (h : Continues c b kept) :
    c.id = b.id :=
  id_eq_of_bare_eq h.bare

theorem Continues.kind_eq {c b : Block} {kept : Option Block} (h : Continues c b kept) :
    c.kind = b.kind :=
  kind_eq_of_bare_eq h.bare

theorem Continues.perm_ids {c b : Block} {kept : Option Block} (h : Continues c b kept) :
    c.ids.Perm (b.ids ++ idsSlot kept) := by
  have hids := h.blocks.map id
  rw [List.map_append, map_id_map_bare, map_id_map_bare, map_id_map_bare] at hids
  exact hids

theorem Continues.typed {c b : Block} {kept : Option Block} (h : Continues c b kept)
    (hb : b.Typed) (hkept : ∀ k, kept = some k → k.Typed ∧ k.kind.isStep = true) : c.Typed := by
  refine typed_iff_links.mpr fun l hl => ?_
  rcases (h.links l).mp hl with hl | ⟨k, hk, rfl⟩ | hl
  · exact typed_iff_links.mp hb l hl
  · simpa [Slot.accepts] using (hkept k hk).2
  · cases kept with
    | none => simp [linksSlot, walkSlot] at hl
    | some k => exact typed_iff_links.mp (hkept k rfl).1 l hl

/-- Joining a chain to a chain of steps. -/
theorem OnlySteps.exists_concat {b : Block} (h : b.OnlySteps) (tail : Block) :
    ∃ c, b.concat tail = .ok c ∧ Continues c b (some tail) := by
  obtain ⟨trail, halong, hne, hfill, hjoin⟩ := h.exists_chainEnd
  obtain ⟨c, hc, hconcat⟩ := hjoin tail
  have hopen := opening_of_alongNext halong hne hfill
  refine ⟨c, hconcat, ?_, ?_, ?_, fun l => ?_⟩
  · cases trail with
    | nil => exact absurd rfl hne
    | cons f trail =>
      rw [fill_cons, Option.some.injEq] at hc hfill
      rw [← hc, ← hfill, Frame.bare_fill, Frame.bare_fill]
  · have h := perm_bare_fill trail (some tail)
    rwa [hc, hfill] at h
  · have h := spine_fill halong (some tail)
    have hb := spine_fill halong none
    rw [hfill, spineSlot, spineSlot, List.map_nil, List.append_nil] at hb
    rwa [hc, ← hb] at h
  · have h := @mem_links_fill trail (some tail) l
    rw [hc, hfill, hopen, linksSlot_some, linksSlot_some] at h
    rw [h]
    simp

end Block

namespace Test

open Block (Continues)

/-- Putting a block into a slot does not fault if what the slot keeps can be joined to its chain. -/
theorem exists_putInto_of_onlySteps {o b : Block} {slot : Slot} (hslot : o.kind.hasSlot slot = true)
    (hb : slot.kept o ≠ none → b.OnlySteps) :
    ∃ c, putInto o slot b = .ok (o.setChild slot (some c)) ∧ Continues c b (slot.kept o) := by
  rw [putInto, if_pos hslot]
  cases hold : o.child? slot with
  | none =>
    have hkept : slot.kept o = none := by
      rw [Slot.kept, hold, ite_self]
    exact ⟨b, rfl, hkept ▸ Block.continues_none b⟩
  | some old =>
    by_cases hchain : slot.isChain = true
    · have hkept : slot.kept o = some old := by rw [Slot.kept_of_isChain hchain, hold]
      obtain ⟨c, hconcat, hc⟩ := (hb (by simp [hkept])).exists_concat old
      refine ⟨c, ?_, hkept ▸ hc⟩
      simp only [if_pos hchain, hconcat]
      rfl
    · refine ⟨b, ?_, Slot.kept_of_not_isChain (by simpa using hchain) o ▸ Block.continues_none b⟩
      simp only [if_neg hchain]
      rfl

/-- Putting a block into a slot that accepts it does not fault. -/
theorem exists_putInto {o b : Block} {slot : Slot} (hslot : o.kind.hasSlot slot = true)
    (hb : b.Typed) (hacc : slot.accepts b.kind = true) :
    ∃ c, putInto o slot b = .ok (o.setChild slot (some c)) ∧ Continues c b (slot.kept o) := by
  refine exists_putInto_of_onlySteps hslot fun hkept => hb.onlySteps ?_
  obtain ⟨k, hk⟩ := Option.ne_none_iff_exists'.mp hkept
  rwa [← Slot.accepts_of_isChain (Slot.child?_of_kept hk).1]

/-- It faults if the slot keeps something that cannot be joined to the chain of the block. -/
theorem exists_putInto_fault {o b k : Block} {slot : Slot} (hslot : o.kind.hasSlot slot = true)
    (hkept : slot.kept o = some k) (hb : ¬ b.OnlySteps) : ∃ f, putInto o slot b = .error f := by
  obtain ⟨hchain, hold⟩ := Slot.child?_of_kept hkept
  obtain ⟨f, hf⟩ := Block.exists_concat_fault hb k
  refine ⟨f, ?_⟩
  rw [putInto, if_pos hslot, hold]
  simp only [if_pos hchain, hf]
  rfl

/-- A slot of a block of the test is a place of its own, and what it holds is changed by updating
the block. -/
theorem exists_slotPlace {t : Test} (h : t.ids.Nodup) {o : Block} (ho : o ∈ t.blocks) {slot : Slot}
    (hslot : o.kind.hasSlot slot = true) :
    ∃ q : Place, Block.opening q.trail = some (o.bare, slot) ∧ q.fill (o.child? slot) = t ∧
      ∀ x, o.setChild slot x ∈ (q.fill x).blocks ∧
        ∀ y, (q.fill x).update (o.setChild slot y) = q.fill y := by
  obtain ⟨p, rfl⟩ := Place.exists_place ho
  have hid := Place.not_mem_ids_of_nodup h o.id_mem_ids
  let q : Place := { p with trail := p.trail ++ [o.frameAt slot hslot] }
  have hq : ∀ x, q.fill x = p.fill (some (o.setChild slot x)) := by
    intro x
    simp only [q, Place.fill, Block.fill_append]
    rfl
  refine ⟨q, Block.opening_concat _ _, ?_, fun x => ⟨?_, fun y => ?_⟩⟩
  · rw [hq, Block.setChild_child?]
  · rw [hq]
    exact Place.mem_blocks_fill_self p _
  · rw [hq, hq, Place.update_fill (by rwa [Block.id_setChild])]
    rw [Block.id_setChild, Block.id_setChild]

/-- An open slot holds nothing. -/
theorem not_mem_links_of_open {q : Place} {o : Block} {slot : Slot}
    (hnodup : (q.fill none).ids.Nodup) (hslot : o.kind.hasSlot slot = true)
    (hmem : o.setChild slot none ∈ (q.fill none).blocks) {l : Block.Link}
    (hl : l ∈ (q.fill none).links) : ¬ (l.owner.id = o.id ∧ l.slot = slot) := by
  rintro ⟨hid, hs⟩
  obtain ⟨o', ho', hl⟩ := mem_links.mp hl
  obtain ⟨s, d, hd, rfl⟩ := Block.mem_ownLinks.mp hl
  have heq : o' = o.setChild slot none := by
    refine eq_of_id_eq hnodup ho' hmem ?_
    rw [Block.id_setChild, ← hid, Block.id_bare]
  rw [heq, show s = slot from hs, Block.child?_setChild_self hslot] at hd
  cases hd

/-- What is known when the guard has let a block pass. -/
theorem of_canAttach {t : Test} {owner : BlockId} {slot : Slot} {d : Dropped}
    (h : t.canAttach owner slot d = .ok true) :
    ∃ o, t.find? owner = .ok (some o) ∧ o.kind.hasSlot slot = true ∧
      slot.accepts d.kind = true ∧
      ∀ b, d = .block b → ∃ current, t.find? b.id = .ok current ∧
        owner ∉ (current.getD b).ids := by
  unfold canAttach at h
  cases hfind : t.find? owner with
  | error e => rw [hfind] at h; cases h
  | ok found =>
    rw [hfind] at h
    cases found with
    | none => cases h
    | some o =>
      by_cases hfit : (o.kind.hasSlot slot && slot.accepts d.kind) = true
      · have hboth := Bool.and_eq_true_iff.mp hfit
        refine ⟨o, rfl, hboth.1, hboth.2, ?_⟩
        rintro b rfl
        cases hcur : t.find? b.id with
        | error e =>
          simp only [bind, Except.bind, hfit, if_true, hcur] at h
          cases h
        | ok current =>
          refine ⟨current, rfl, ?_⟩
          simp only [bind, Except.bind, hfit, if_true, hcur, pure, Except.pure, Except.ok.injEq,
            Bool.not_eq_true', Block.contains_eq_decide, decide_eq_false_iff_not] at h
          exact h
      · simp only [bind, Except.bind, hfit] at h
        cases h

theorem run_liftM_ok {α : Type} (a : α) (s : Supply) :
    (liftM (Except.ok a : Except Fault α) : Edit α).run s = .ok (a, s) := rfl

theorem run_modifyGet {α : Type} (f : Supply → α × Supply) (s : Supply) :
    (modifyGet f : Edit α).run s = .ok (f s) := rfl

theorem ok_bind {α β : Type} (a : α) (f : α → Except Fault β) : (Except.ok a >>= f) = f a := rfl

/-- A slot that holds a block with the id of what is dropped is left as it is. -/
theorem attach_run_of_held {t : Test} {owner : BlockId} {slot : Slot} {d : Dropped} {o : Block}
    (hfind : t.find? owner = .ok (some o)) (hheld : (o.child? slot).map Block.id = some d.id)
    (s : Supply) : (t.attach owner slot d).run s = .ok (t, s) := by
  unfold attach
  simp only [hfind, StateT.run_bind, run_liftM_ok, ok_bind, if_pos hheld]
  rfl

/-- Attaching as its steps: take out, look the owner up again, fill its slot. -/
theorem attach_run_bind {t t₁ : Test} {owner : BlockId} {slot : Slot} {d : Dropped}
    {o o₁ b : Block} {s s₁ : Supply} (hfind : t.find? owner = .ok (some o))
    (hnew : (o.child? slot).map Block.id ≠ some d.id)
    (hdetach : (t.detachDropped d).run s = ((t₁, b), s₁))
    (hfind₁ : t₁.find? owner = .ok (some o₁)) :
    (t.attach owner slot d).run s = do return (t₁.update (← putInto o₁ slot b), s₁) := by
  unfold attach
  simp only [hfind, StateT.run_bind, run_liftM_ok, run_modifyGet, ok_bind, if_neg hnew, hdetach,
    hfind₁]
  cases putInto o₁ slot b <;> rfl

theorem attach_run {t t₁ : Test} {owner : BlockId} {slot : Slot} {d : Dropped} {o o₁ b c : Block}
    {s s₁ : Supply} (hfind : t.find? owner = .ok (some o))
    (hnew : (o.child? slot).map Block.id ≠ some d.id)
    (hdetach : (t.detachDropped d).run s = ((t₁, b), s₁))
    (hfind₁ : t₁.find? owner = .ok (some o₁)) (hput : putInto o₁ slot b = .ok c) :
    (t.attach owner slot d).run s = .ok (t₁.update c, s₁) := by
  rw [attach_run_bind hfind hnew hdetach hfind₁, hput]
  rfl

/-- The owner of a slot that lets a block pass is not part of that block. -/
theorem owner_not_mem_of_canAttach {t : Test} (h : t.Sound) {s : Supply} {owner : BlockId}
    {slot : Slot} {b : Block} (hb : t.Droppable s (.block b))
    (hcan : t.canAttach owner slot (.block b) = .ok true) : owner ∉ b.ids := by
  obtain ⟨-, -, -, -, hblock⟩ := of_canAttach hcan
  obtain ⟨current, hcurrent, howner⟩ := hblock b rfl
  rcases hb with hmem | ⟨-, -, hdisjoint⟩
  · rw [find?_of_mem h.nodup hmem] at hcurrent
    cases hcurrent
    exact howner
  · have hid : b.id ∉ t.ids := hdisjoint b.id b.id_mem_ids
    rw [find?_of_not_mem hid] at hcurrent
    cases hcurrent
    exact howner

/-- What attaching comes to: the block `b` is taken out, the slot of the owner is a place `q` of
the test that is left, and it is filled with `b` and what it keeps. -/
structure Attaches (t : Test) (s : Supply) (o : Block) (slot : Slot) (d : Dropped) (t₁ : Test)
    (b : Block) (o₁ : Block) (q : Place) (c : Block) (t' : Test) (s' : Supply) : Prop where
  detached : (t.detachDropped d).run s = ((t₁, b), s')
  sound : t₁.Sound
  typed : b.Typed
  nodup : b.ids.Nodup
  disjoint : ∀ i ∈ b.ids, i ∉ t₁.ids
  accepts : slot.accepts b.kind = true
  owner_mem : o₁ ∈ t₁.blocks
  owner_id : o₁.id = o.id
  hasSlot : o₁.kind.hasSlot slot = true
  opening : Block.opening q.trail = some (o₁.bare, slot)
  refill : q.fill (o₁.child? slot) = t₁
  mem_fill : ∀ x, o₁.setChild slot x ∈ (q.fill x).blocks
  continues : Continues c b (slot.kept o₁)
  result : t' = q.fill (some c)

/-- A guarded drop onto a slot that does not hold the block already takes its course. -/
theorem Sound.exists_attaches {t : Test} (h : t.Sound) {s : Supply} {o : Block}
    (ho : o ∈ t.blocks) {slot : Slot} {d : Dropped} (hd : t.Droppable s d)
    (hcan : t.canAttach o.id slot d = .ok true)
    (hnew : (o.child? slot).map Block.id ≠ some d.id) :
    ∃ t₁ b o₁ q c t' s', Attaches t s o slot d t₁ b o₁ q c t' s' ∧
      (t.attach o.id slot d).run s = .ok (t', s') := by
  have hfind := find?_of_mem h.nodup ho
  obtain ⟨o', hfind', hslot, hacc, -⟩ := of_canAttach hcan
  rw [hfind] at hfind'
  cases hfind'
  obtain ⟨t₁, b, s₁, hdetach, hsound, htyped, hnodup, hdisjoint, hkind, hstays⟩ :=
    h.detachDropped hd
  have houtside : ∀ c, d = .block c → o.id ∉ c.ids := by
    rintro c rfl
    exact owner_not_mem_of_canAttach h hd hcan
  obtain ⟨o₁, ho₁, hbare⟩ := hstays o ho houtside
  have hid : o₁.id = o.id := Block.id_eq_of_bare_eq hbare
  have hslot₁ : o₁.kind.hasSlot slot = true := by rwa [Block.kind_eq_of_bare_eq hbare]
  rw [← hkind] at hacc
  obtain ⟨c, hput, hc⟩ := exists_putInto hslot₁ htyped hacc
  obtain ⟨q, hopen, hfill, hq⟩ := exists_slotPlace hsound.nodup ho₁ hslot₁
  have hfind₁ : t₁.find? o.id = .ok (some o₁) := by
    rw [← hid]
    exact find?_of_mem hsound.nodup ho₁
  refine ⟨t₁, b, o₁, q, c, q.fill (some c), s₁, ?_, ?_⟩
  · exact ⟨hdetach, hsound, htyped, hnodup, hdisjoint, hacc, ho₁, hid, hslot₁, hopen,
      hfill, fun x => (hq x).1, hc, rfl⟩
  · have hupdate := (hq (o₁.child? slot)).2 (some c)
    rw [hfill] at hupdate
    rw [attach_run hfind hnew hdetach hfind₁ hput, hupdate]

end Test
end LoadTest

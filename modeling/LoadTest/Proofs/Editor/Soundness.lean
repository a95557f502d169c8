import LoadTest.Proofs.Completeness.Acceptance
import LoadTest.Proofs.Completeness.Causes
import LoadTest.Proofs.Editor.Attaching
import Mathlib.Data.List.Flatten

/-!
Editing keeps a test sound.

`Reached` are the tests that a sound one can be edited into, as long as `canAttach` is asked before
a block is put into a slot.  All of them are sound, so no edit of them faults and none of them has
an id that is used twice or a slot with a block that does not belong there.
-/

namespace LoadTest

/-- A step of an editor. -/
inductive Editing where
  | detach (id : BlockId)
  | drop (dropped : Dropped) (position : Position)
  | attach (owner : BlockId) (slot : Slot) (dropped : Dropped)
  | insertChild (owner : BlockId) (dropped : Dropped)
  | insertNext (owner : BlockId) (dropped : Dropped)

namespace Editing

/-- The test after the step. -/
def apply (t : Test) : Editing → Edit Test
  | detach id => return t.detach id
  | drop d p => modifyGet (t.dropOnCanvas d p).run
  | attach owner slot d => t.attach owner slot d
  | insertChild owner d => t.insertChild owner d
  | insertNext owner d => t.insertNext owner d

/-- The step is one that may be taken: what is dropped may be dropped, and a slot is asked before
something is put into it. -/
def Allowed (t : Test) (s : Supply) : Editing → Prop
  | detach _ => True
  | drop d _ => t.Droppable s d
  | attach owner slot d => t.Droppable s d ∧ t.canAttach owner slot d = .ok true
  | insertChild owner d => t.Droppable s d ∧ t.canAttach owner .step d = .ok true
  | insertNext owner d => t.Droppable s d ∧ t.canAttach owner .next d = .ok true

end Editing

/-- The tests, each with the supply that is left, that `t₀` becomes by steps that may be taken. -/
inductive Reached (t₀ : Test) (s₀ : Supply) : Test → Supply → Prop
  | start : Reached t₀ s₀ t₀ s₀
  | step {t t' : Test} {s s' : Supply} (e : Editing) : Reached t₀ s₀ t s → e.Allowed t s →
      (e.apply t).run s = .ok (t', s') → Reached t₀ s₀ t' s'

namespace Place

open Block (idsSlot)

/-- A slot that is filled with a block and what it kept is as sound as it was. -/
theorem sound_of_continues {q : Place} {o b c : Block} {slot : Slot}
    (h : (q.fill (o.child? slot)).Sound) (hopen : Block.opening q.trail = some (o.bare, slot))
    (hb : b.Typed) (hnodup : b.ids.Nodup)
    (hdisjoint : ∀ i ∈ b.ids, i ∉ (q.fill (o.child? slot)).ids)
    (hacc : slot.accepts b.kind = true) (hc : Block.Continues c b (slot.kept o)) :
    (q.fill (some c)).Sound := by
  obtain ⟨hempty, hheld, houtside, hfits⟩ := sound_fill.mp h
  have hkept : (idsSlot (slot.kept o)).Nodup := by
    rw [Slot.kept]
    split
    · exact hheld
    · exact List.nodup_nil
  refine sound_fill.mpr ⟨hempty, ?_, ?_, ?_⟩
  · rw [Block.idsSlot_some, hc.perm_ids.nodup_iff, List.nodup_append]
    -- What is kept was in the slot, and the block has no id of the test that it was in.
    refine ⟨hnodup, hkept, fun i hi j hj e => hdisjoint i hi ?_⟩
    rw [e, mem_ids_fill]
    exact Or.inr (Slot.mem_ids_kept hj).2
  · intro i hi hmem
    rw [Block.idsSlot_some, hc.perm_ids.mem_iff, List.mem_append] at hmem
    rcases hmem with hmem | hmem
    · exact hdisjoint i hmem (mem_ids_fill.mpr (Or.inl hi))
    · exact houtside i hi (Slot.mem_ids_kept hmem).2
  · rintro c' hc'
    cases hc'
    refine ⟨hc.typed hb fun k hk => ?_, fun o' ho' => ?_⟩
    · obtain ⟨hchain, hk⟩ := Slot.child?_of_kept hk
      obtain ⟨htyped, hslot⟩ := hfits k hk
      have hstep : slot.accepts k.kind = true := hslot _ hopen
      exact ⟨htyped, by rwa [← Slot.accepts_of_isChain hchain]⟩
    · rw [hopen, Option.some.injEq] at ho'
      rw [← ho', hc.kind_eq]
      exact hacc

end Place

namespace Test

/-! ## One step -/

theorem Sound.attach {t : Test} (h : t.Sound) {s : Supply} {owner : BlockId} {slot : Slot}
    {d : Dropped} (hd : t.Droppable s d) (hcan : t.canAttach owner slot d = .ok true) :
    ∃ t' s', (t.attach owner slot d).run s = .ok (t', s') ∧ t'.Sound := by
  obtain ⟨o, hfind, -⟩ := of_canAttach hcan
  obtain ⟨ho, rfl⟩ := mem_of_find?_eq_some hfind
  by_cases hheld : (o.child? slot).map Block.id = some d.id
  · exact ⟨t, s, attach_run_of_held hfind hheld s, h⟩
  · obtain ⟨t₁, b, o₁, q, c, t', s', ha, hrun⟩ := h.exists_attaches ho hd hcan hheld
    have hsound := ha.sound
    have hdisjoint := ha.disjoint
    rw [← ha.refill] at hsound hdisjoint
    refine ⟨t', s', hrun, ?_⟩
    rw [ha.result]
    exact Place.sound_of_continues hsound ha.opening ha.typed ha.nodup hdisjoint ha.accepts
      ha.continues

/-- Moving a root leaves all blocks where they are. -/
theorem blocks_of_moveRoot? {id : BlockId} {p : Position} {rs rs' : List Root}
    (h : moveRoot? id p rs = some rs') :
    (rs'.flatMap fun r => r.block.walk) = rs.flatMap fun r => r.block.walk := by
  induction rs generalizing rs' with
  | nil => cases h
  | cons r rs ih =>
    rw [moveRoot?] at h
    split at h
    · cases h
      rfl
    · obtain ⟨moved, hmoved, rfl⟩ := Option.map_eq_some_iff.mp h
      rw [List.flatMap_cons, List.flatMap_cons, ih hmoved]

theorem Sound.of_blocks_eq {t t' : Test} (h : t.Sound) (hblocks : t'.blocks = t.blocks) :
    t'.Sound := by
  constructor
  · rw [ids, hblocks]
    exact h.nodup
  · rw [hblocks]
    exact h.typed

theorem Sound.placeDropped {t : Test} (h : t.Sound) {s : Supply} {d : Dropped}
    (hd : t.Droppable s d) (p : Position) : ((t.placeDropped d p).run s).1.Sound := by
  obtain ⟨t₁, b, s₁, hdetach, hsound, htyped, hnodup, hdisjoint, -⟩ := h.detachDropped hd
  have hrun : (t.placeDropped d p).run s = (t₁.placeAt b p, s₁) := by
    unfold Test.placeDropped
    rw [StateT.run_bind, hdetach]
    rfl
  rw [hrun]
  exact hsound.placeAt htyped hnodup hdisjoint p

theorem Sound.dropOnCanvas {t : Test} (h : t.Sound) {s : Supply} {d : Dropped}
    (hd : t.Droppable s d) (p : Position) : ((t.dropOnCanvas d p).run s).1.Sound := by
  cases d with
  | template d => exact h.placeDropped hd p
  | block b =>
    cases hmove : moveRoot? b.id p t.roots with
    | none =>
      simp only [Test.dropOnCanvas, hmove]
      exact h.placeDropped hd p
    | some roots =>
      simp only [Test.dropOnCanvas, hmove]
      exact h.of_blocks_eq (blocks_of_moveRoot? hmove)

/-- A step that may be taken leads from a sound test to a sound one. -/
theorem Sound.apply {t : Test} (h : t.Sound) {s : Supply} {e : Editing} (he : e.Allowed t s) :
    ∃ t' s', (e.apply t).run s = .ok (t', s') ∧ t'.Sound := by
  cases e with
  | detach id => exact ⟨t.detach id, s, rfl, h.detach id⟩
  | drop d p => exact ⟨_, _, rfl, h.dropOnCanvas he p⟩
  | attach owner slot d => exact h.attach he.1 he.2
  | insertChild owner d => exact h.attach he.1 he.2
  | insertNext owner d => exact h.attach he.1 he.2

/-! ## All steps -/

theorem Sound.reached {t₀ : Test} {s₀ : Supply} (h : t₀.Sound) {t : Test} {s : Supply}
    (ht : Reached t₀ s₀ t s) : t.Sound := by
  induction ht with
  | start => exact h
  | step e _ he hrun ih =>
    obtain ⟨t', s', hrun', hsound⟩ := ih.apply he
    rw [hrun] at hrun'
    cases hrun'
    exact hsound

/-- Asking a slot does not fault. -/
theorem Sound.exists_canAttach {t : Test} (h : t.Sound) (owner : BlockId) (slot : Slot)
    (d : Dropped) : ∃ can, t.canAttach owner slot d = .ok can := by
  unfold canAttach
  rw [find?_of_nodup h.nodup, ok_bind]
  split
  · exact ⟨false, rfl⟩
  · next o _ =>
    split
    · cases d with
      | template d => exact ⟨true, rfl⟩
      | block b =>
        simp only [find?_of_nodup h.nodup]
        exact ⟨_, rfl⟩
    · exact ⟨false, rfl⟩

/-! ## What a reading has to say -/

theorem scenarioBlocks_sublist (t : Test) : t.scenarioBlocks.Sublist t.blocks :=
  List.Sublist.flatMap List.filter_sublist _

/-- A reading has no issue with the ids and the slots of a sound test. -/
theorem Sound.of_complete_eq_error {t : Test} (h : t.Sound) {is : List Issue}
    (herror : t.complete = .error is) : ∀ i ∈ is,
      (∀ owner slot found, i ≠ .wrongSlotKind owner slot found) ∧ ∀ id, i ≠ .duplicateId id := by
  have hids : (t.scenarioBlocks.map Block.id).Nodup :=
    h.nodup.sublist ((scenarioBlocks_sublist t).map Block.id)
  have htyped : ∀ o ∈ t.scenarioBlocks, ∀ s c, o.child? s = some c → s.accepts c.kind = true :=
    fun o ho => h.typed o ((scenarioBlocks_sublist t).subset ho)
  intro i hi
  rcases causedBy_of_complete_eq_error hids herror i hi with hcaused | ⟨_, _, _, rfl⟩
  · refine ⟨?_, ?_⟩
    · rintro owner slot found rfl
      exact hcaused.not_wrongSlotKind htyped
    · rintro id rfl
      exact hcaused
  · exact ⟨nofun, nofun⟩

/-- Whatever a sound test is edited into is sound, can be edited further without a fault, and has
no issue with its ids and its slots. -/
theorem sound_of_reached {t₀ : Test} {s₀ : Supply} (h : t₀.Sound) {t : Test} {s : Supply}
    (ht : Reached t₀ s₀ t s) :
    t.Sound ∧
      (∀ owner slot d, ∃ can, t.canAttach owner slot d = .ok can) ∧
      (∀ e : Editing, e.Allowed t s → ∃ t' s', (e.apply t).run s = .ok (t', s')) ∧
      ∀ is, t.complete = .error is → ∀ i ∈ is,
        (∀ owner slot found, i ≠ .wrongSlotKind owner slot found) ∧ ∀ id, i ≠ .duplicateId id := by
  have hsound := h.reached ht
  refine ⟨hsound, hsound.exists_canAttach, fun e he => ?_, fun is => hsound.of_complete_eq_error⟩
  obtain ⟨t', s', hrun, -⟩ := hsound.apply he
  exact ⟨t', s', hrun⟩

/-- The second request is drawn in front of the first. -/
theorem sound_of_reached_swapped :
    (twoRequests "a" "b").Sound ∧
      Reached (twoRequests "a" "b") ⟨Nat.repr, 0⟩ (twoRequests "b" "a") ⟨Nat.repr, 0⟩ ∧
      (twoRequests "b" "a").Sound := by
  have hreached : Reached (twoRequests "a" "b") ⟨Nat.repr, 0⟩ (twoRequests "b" "a") ⟨Nat.repr, 0⟩ :=
    .step (.insertChild "s" (.block (plainRequest "b" none))) .start
      ⟨Or.inl (second_mem_twoRequests "a" "b"), rfl⟩ rfl
  exact ⟨sound_twoRequests, hreached, (sound_of_reached sound_twoRequests hreached).1⟩

end Test
end LoadTest

import LoadTest.Proofs.Editor.Moving

/-!
Dragging a block out of its slot and dropping it back.

On the canvas the block becomes the last root, which leaves its slot empty.  Dropped onto that slot
again it is taken from the canvas and put back where it was.
-/

namespace LoadTest
namespace Test

theorem moveRoot?_eq_none {i : BlockId} {p : Position} {rs : List Root}
    (h : ∀ r ∈ rs, r.block.id ≠ i) : moveRoot? i p rs = none := by
  induction rs with
  | nil => rfl
  | cons r rs ih =>
    rw [List.forall_mem_cons] at h
    rw [moveRoot?, if_neg h.1, ih h.2]
    rfl

/-- A block in a slot is no root. -/
theorem id_root_ne {q : Place} {b : Block} (h : (q.fill (some b)).ids.Nodup) {e : Block × Slot}
    (hopen : Block.opening q.trail = some e) {r : Root} (hr : r ∈ (q.fill (some b)).roots) :
    r.block.id ≠ b.id := by
  intro hid
  have hkey : (r.position, r.block.id) ∈ (q.fill none).rootKeys := by
    rw [Place.rootKeys_fill_eq hopen none (some b)]
    exact List.mem_map_of_mem hr
  obtain ⟨r', hr', heq⟩ := List.mem_map.mp hkey
  refine Place.not_mem_ids_of_nodup h b.id_mem_ids (mem_ids.mpr ⟨r'.block, ?_, ?_⟩)
  · exact mem_blocks.mpr ⟨r', hr', Block.mem_walk_self r'.block⟩
  · rw [← hid]
    exact congrArg Prod.snd heq

/-- Dragged out, a block is the last root, and its slot is empty. -/
theorem run_dropOnCanvas {q : Place} {b : Block} (h : (q.fill (some b)).ids.Nodup)
    {e : Block × Slot} (hopen : Block.opening q.trail = some e) (p : Position) (s : Supply) :
    ((q.fill (some b)).dropOnCanvas (.block b) p).run s = ((q.fill none).placeAt b p, s) := by
  have hmove : moveRoot? b.id p (q.fill (some b)).roots = none :=
    moveRoot?_eq_none fun r hr => id_root_ne h hopen hr
  have hout := Place.not_mem_ids_of_nodup h b.id_mem_ids
  simp only [dropOnCanvas, hmove, placeDropped, detachDropped, Place.take_fill hout]
  rfl

theorem perm_ids_placeAt (t : Test) (b : Block) (p : Position) :
    (t.placeAt b p).ids.Perm (t.ids ++ b.ids) := by
  have hperm := (t.lastPlace p).perm_ids_fill (some b)
  rwa [fill_lastPlace_some, fill_lastPlace_none, Block.idsSlot_some] at hperm

/-- Taken from the canvas, a block leaves what was there before it. -/
theorem detachDropped_placeAt {t : Test} {b : Block} (h : b.id ∉ t.ids) (p : Position)
    (s : Supply) : ((t.placeAt b p).detachDropped (.block b)).run s = ((t, b), s) := by
  have hout : b.id ∉ ((t.lastPlace p).fill none).ids := by rwa [fill_lastPlace_none]
  have htake : (t.placeAt b p).take b.id = (t, some b) := by
    rw [← fill_lastPlace_some, Place.take_fill hout, fill_lastPlace_none]
  rw [detachDropped, htake]
  rfl

/-- A block that is dragged out of a slot and dropped back is where it was, and so is everything
else. -/
theorem attach_dropOnCanvas {t : Test} (h : t.ids.Nodup) {o b : Block} (ho : o ∈ t.blocks)
    {slot : Slot} (hb : o.child? slot = some b) (p : Position) (s : Supply) :
    ∃ t', (t.dropOnCanvas (.block b) p).run s = (t', s) ∧
      (t'.attach o.id slot (.block b)).run s = .ok (t, s) := by
  have hslot := Block.hasSlot_of_child? hb
  obtain ⟨q, hopen, hfill, hq⟩ := exists_slotPlace h ho hslot
  rw [hb] at hfill
  subst hfill
  refine ⟨(q.fill none).placeAt b p, run_dropOnCanvas h hopen p s, ?_⟩
  have hempty : (q.fill none).ids.Nodup := (Place.nodup_ids_fill.mp h).1
  have hout := Place.not_mem_ids_of_nodup h b.id_mem_ids
  have hcanvas : ((q.fill none).placeAt b p).ids.Nodup :=
    ((perm_ids_placeAt _ b p).trans (q.perm_ids_fill (some b)).symm).nodup_iff.mpr h
  -- The owner is found with its slot empty, beside the block on the canvas and then without it.
  have howner : o.setChild slot none ∈ (q.fill none).blocks := (hq none).1
  have hchild : (o.setChild slot none).child? slot = none := Block.child?_setChild_self hslot none
  have hfind₁ : (q.fill none).find? o.id = .ok (some (o.setChild slot none)) := by
    rw [← Block.id_setChild o slot none]
    exact find?_of_mem hempty howner
  have hfind : ((q.fill none).placeAt b p).find? o.id = .ok (some (o.setChild slot none)) := by
    rw [← Block.id_setChild o slot none]
    refine find?_of_mem hcanvas ?_
    rw [placeAt, blocks, List.flatMap_append]
    exact List.mem_append_left _ howner
  have hput : putInto (o.setChild slot none) slot b = .ok (o.setChild slot (some b)) := by
    rw [putInto, Block.kind_setChild, if_pos hslot, hchild]
    exact congrArg Except.ok (Block.setChild_setChild o slot none (some b))
  rw [attach_run hfind (by simp [hchild]) (detachDropped_placeAt hout p s) hfind₁ hput,
    (hq none).2 (some b)]

/-- A check whose target is a group, which does not belong there, between two other roots. -/
def misfit : Test :=
  let group := Block.group "g" "" (some (plainRequest "a" none)) (some (plainRequest "b" none))
  let check := Block.check "c" [] (some group) (some (.sleep "z" 1 none))
  ⟨Library.empty, [⟨⟨0, 0⟩, plainRequest "p" none⟩, ⟨⟨200, 0⟩, .scenario "s" "" none (some check)⟩,
    ⟨⟨400, 0⟩, plainRequest "q" none⟩]⟩

/-- The group is dragged out of the target and dropped back. -/
theorem attach_dropOnCanvas_misfit :
    let group := Block.group "g" "" (some (plainRequest "a" none)) (some (plainRequest "b" none))
    let check := Block.check "c" [] (some group) (some (.sleep "z" 1 none))
    misfit.ids.Nodup ∧ check ∈ misfit.blocks ∧ check.child? .target = some group ∧
      ∀ s, ∃ t', (misfit.dropOnCanvas (.block group) ⟨50, 80⟩).run s = (t', s) ∧
        (t'.attach "c" .target (.block group)).run s = .ok (misfit, s) := by
  intro group check
  have hids : misfit.ids.Nodup := by decide
  have hcheck : check ∈ misfit.blocks := by
    simp [misfit, check, group, blocks, Block.walk, Block.walkSlot, plainRequest]
  exact ⟨hids, hcheck, rfl, fun s => attach_dropOnCanvas hids hcheck rfl ⟨50, 80⟩ s⟩

end Test
end LoadTest

import LoadTest.Proofs.Block.Order
import LoadTest.Proofs.Editor.Sound

/-!
Modifying the block with an id.

The function is applied to the first block with the id that a walk meets, and to no other, even if
more blocks have the id (`modify_first`).
-/

namespace LoadTest

open Block (bare walkSlot)

namespace Place

/-- What a walk of the test meets ahead of the place, each block by itself. -/
def ahead (p : Place) : List Block :=
  (p.before.flatMap fun r => r.block.walk).map bare ++ Block.ahead p.trail

/-- What a walk of the test meets behind the place. -/
def behind (p : Place) : List Block :=
  Block.behind p.trail ++ (p.after.flatMap fun r => r.block.walk).map bare

theorem exists_blocks_fill (p : Place) (x : Option Block) :
    ∃ before after, (p.fill x).blocks = before ++ walkSlot x ++ after ∧
      before.map bare = p.ahead ∧ after.map bare = p.behind := by
  obtain ⟨before, after, hwalk, hahead, hbehind⟩ := Block.exists_walk_fill p.trail x
  refine ⟨(p.before.flatMap fun r => r.block.walk) ++ before,
    after ++ p.after.flatMap fun r => r.block.walk, ?_, ?_, ?_⟩
  · rw [blocks_fill, hwalk]
    simp only [List.append_assoc]
  · rw [List.map_append, hahead, ahead]
  · rw [List.map_append, hbehind, behind]

theorem map_bare_blocks_fill (p : Place) (x : Option Block) :
    (p.fill x).blocks.map bare = p.ahead ++ (walkSlot x).map bare ++ p.behind := by
  obtain ⟨before, after, hblocks, hahead, hbehind⟩ := p.exists_blocks_fill x
  rw [hblocks, List.map_append, List.map_append, hahead, hbehind]

/-- A block whose id does not occur ahead of its place is the first with that id. -/
theorem find?_blocks_fill {p : Place} {b : Block} (h : b.id ∉ p.ahead.map Block.id) :
    (p.fill (some b)).blocks.find? (·.id == b.id) = some b := by
  obtain ⟨before, after, hblocks, hahead, -⟩ := p.exists_blocks_fill (some b)
  rw [← hahead, Block.map_id_map_bare] at h
  have hnone : before.find? (·.id == b.id) = none := by
    rw [List.find?_eq_none]
    intro x hx hid
    exact h (List.mem_map.mpr ⟨x, hx, by simpa using hid⟩)
  rw [hblocks, List.append_assoc, List.find?_append, hnone, walkSlot, Block.walk_eq]
  simp

/-- Every id that occurs in a test is met first in some place. -/
theorem exists_first {t : Test} {i : BlockId} (h : i ∈ t.ids) :
    ∃ (p : Place) (b : Block), p.fill (some b) = t ∧ b.id = i ∧ i ∉ p.ahead.map Block.id := by
  obtain ⟨x, hx, hxi⟩ := Test.mem_ids.mp h
  obtain ⟨r, hr, hx⟩ := Test.mem_blocks.mp hx
  obtain ⟨r, hfind⟩ := Option.isSome_iff_exists.mp (List.find?_isSome.mpr
    ⟨r, hr, decide_eq_true (Block.mem_ids.mpr ⟨x, hx, hxi⟩)⟩ :
      (t.roots.find? fun r => decide (i ∈ r.block.ids)).isSome = true)
  obtain ⟨hi, before, after, hroots, hbefore⟩ := List.find?_eq_some_iff_append.mp hfind
  obtain ⟨trail, b, hfill, hid, hahead⟩ := Block.exists_first (of_decide_eq_true hi)
  refine ⟨⟨t.library, before, r.position, trail, after⟩, b, ?_, hid, ?_⟩
  · rw [fill, hfill, Option.toList_some, List.map_singleton, List.append_assoc,
      List.singleton_append, ← hroots]
  · rw [ahead, List.map_append, List.mem_append, not_or, Block.map_id_map_bare, List.map_flatMap,
      List.mem_flatMap]
    refine ⟨?_, hahead⟩
    rintro ⟨s, hs, hmem⟩
    simpa [Block.ids, hmem] using hbefore s hs

/-! ## Rewrites that stop -/

variable {σ : Type} {f : Block → StateM σ Rewrite}

theorem run_rewriteRoots_of_spent {s : σ} (h : Block.Spent f s) (rs : List Root) :
    (Test.rewriteRoots f rs).run s = pure (rs, s) := by
  induction rs with
  | nil => rfl
  | cons r rs ih => simp [Test.rewriteRoots, Block.run_rewriteSlot_of_spent h, ih]

/-- The rewrite changes what stands in the place and stops there. -/
theorem run_rewrite_fill {i : BlockId} (hf : Block.Seeks f i) {s s' : σ}
    (hspent : Block.Spent f s') {p : Place} (h : i ∉ p.ahead.map Block.id) {x y : Option Block}
    (hx : (Block.rewriteSlot f x).run s = pure (y, s')) :
    ((p.fill x).rewrite f).run s = pure (p.fill y, s') := by
  rw [ahead, List.map_append, List.mem_append, not_or, Block.map_id_map_bare, List.map_flatMap,
    List.mem_flatMap] at h
  have hbefore : ∀ r ∈ p.before, i ∉ r.block.ids := fun r hr hi => h.1 ⟨r, hr, hi⟩
  have htrail := Block.run_rewriteSlot_fill hf hspent h.2 hx
  simp [Test.rewrite, fill, Test.rewriteRoots_append,
    Test.rewriteRoots_of_not_mem hf p.before hbefore, Test.rewriteRoots_toList, htrail,
    run_rewriteRoots_of_spent hspent]

end Place

namespace Test

variable {i : BlockId} {f : Block → Block}

theorem seeks_modifyStep (i : BlockId) (f : Block → Block) : Block.Seeks (modifyStep i f) i := by
  intro b hb
  rw [modifyStep]
  funext s
  simp [hb]

/-- A function that has been used is not used again. -/
theorem spent_modifyStep (i : BlockId) (f : Block → Block) : Block.Spent (modifyStep i f) 1 := by
  intro b
  by_cases hb : b.id = i <;> simp [modifyStep, hb]

theorem modify_of_not_mem {t : Test} (h : i ∉ t.ids) : t.modify i f = (t, 0) := by
  rw [modify, rewrite_of_not_mem (seeks_modifyStep i f) h]
  rfl

theorem modify_fill {p : Place} {b : Block} (h : b.id ∉ p.ahead.map Block.id) :
    (p.fill (some b)).modify b.id f = (p.fill (some (f b)), 1) := by
  have hx : (Block.rewriteSlot (modifyStep b.id f) (some b)).run 0 = pure (some (f b), 1) := by
    simp [Block.rewriteSlot, modifyStep]
  exact Place.run_rewrite_fill (seeks_modifyStep b.id f) (spent_modifyStep b.id f) h hx

/-- Modifying applies the function once if the id occurs, and not at all if it does not.  The block
that it is applied to is the first with the id, and nothing around that block changes. -/
theorem modify_first (t : Test) (i : BlockId) :
    (i ∉ t.ids → ∀ f, t.modify i f = (t, 0)) ∧
      (i ∈ t.ids → ∃ (p : Place) (b : Block), t.blocks.find? (·.id == i) = some b ∧
        p.fill (some b) = t ∧ i ∉ p.ahead.map Block.id ∧
        ∀ f, t.modify i f = (p.fill (some (f b)), 1) ∧
          (t.modify i f).1.blocks.map bare = p.ahead ++ (f b).walk.map bare ++ p.behind) ∧
      (t.ids.Nodup → i ∈ t.ids → ∃ b, t.find? i = .ok (some b) ∧
        ∀ f, (t.modify i f).1 = t.replace i (f b)) := by
  refine ⟨fun h f => modify_of_not_mem h, fun h => ?_, fun hnodup h => ?_⟩
  · obtain ⟨p, b, rfl, rfl, hahead⟩ := Place.exists_first h
    refine ⟨p, b, Place.find?_blocks_fill hahead, rfl, hahead, fun f => ?_⟩
    rw [modify_fill hahead]
    exact ⟨rfl, p.map_bare_blocks_fill (some (f b))⟩
  · obtain ⟨p, b, rfl, rfl, hahead⟩ := Place.exists_first h
    refine ⟨b, ?_, fun f => ?_⟩
    · rw [find?_of_nodup hnodup, Place.find?_blocks_fill hahead]
    · rw [modify_fill hahead, Place.replace_fill (Place.not_mem_ids_of_nodup hnodup b.id_mem_ids)]

/-- A scenario of a group with one request and another request behind the group; the id of the
requests is used twice. -/
def repeated : Test :=
  let group := Block.group "g" "" (some (plainRequest "a" none)) (some (plainRequest "a" none))
  ⟨Library.empty, [⟨⟨0, 0⟩, .scenario "s" "" none (some group)⟩]⟩

/-- The request in the group is modified, which comes first. -/
theorem modify_first_repeated :
    "b" ∉ repeated.ids ∧ "a" ∈ repeated.ids ∧ repeated.ids.count "a" = 2 ∧
      (twoRequests "a" "b").ids.Nodup ∧ "b" ∈ (twoRequests "a" "b").ids ∧
      (∀ f, repeated.modify "b" f = (repeated, 0)) ∧
      (∃ (p : Place) (b : Block), repeated.blocks.find? (·.id == "a") = some b ∧
        p.fill (some b) = repeated ∧ "a" ∉ p.ahead.map Block.id ∧
        ∀ f, repeated.modify "a" f = (p.fill (some (f b)), 1) ∧
          (repeated.modify "a" f).1.blocks.map bare =
            p.ahead ++ (f b).walk.map bare ++ p.behind) ∧
      ∃ b, (twoRequests "a" "b").find? "b" = .ok (some b) ∧
        ∀ f, ((twoRequests "a" "b").modify "b" f).1 = (twoRequests "a" "b").replace "b" (f b) := by
  have habsent : "b" ∉ repeated.ids := by decide
  have hmem : "a" ∈ repeated.ids := by decide
  have hids : (twoRequests "a" "b").ids.Nodup := by decide
  have hsecond : "b" ∈ (twoRequests "a" "b").ids := by decide
  exact ⟨habsent, hmem, by decide, hids, hsecond, (modify_first repeated "b").1 habsent,
    (modify_first repeated "a").2.1 hmem, (modify_first (twoRequests "a" "b") "b").2.2 hids hsecond⟩

end Test
end LoadTest

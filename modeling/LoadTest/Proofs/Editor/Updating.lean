import LoadTest.Proofs.Block.Site
import LoadTest.Proofs.Editor.Change

/-!
Finding a block and writing it back.

Finding and updating go together like reading and writing one field: what was found can be written
back, what was written is found, and of two writes the second counts (`update_laws`).  A write
changes the place of the block and nothing around it (`Updated`).
-/

namespace LoadTest

open Block (bare)

namespace Block

/-- A path that meets no block with the id leads where it led. -/
theorem at?_put_of_not_mem {i : BlockId} {b : Block} {path : List Slot}
    (h : i ∉ (b.along path).map id) (c : Block) :
    ((b.put i c).at? path).map bare = (b.at? path).map bare := by
  induction path generalizing b with
  | nil =>
    have hb : b.id ≠ i := fun e => h (by simp [along, e])
    exact congrArg some (bare_put hb c)
  | cons s path ih =>
    rw [along, List.map_cons, List.mem_cons, not_or] at h
    rw [at?_cons, at?_cons, child?_put (Ne.symm h.1)]
    cases hd : b.child? s with
    | none => rfl
    | some d =>
      rw [hd] at h
      exact ih h.2

/-- A path through the block with the id goes on in the new block. -/
theorem at?_put_append {b x : Block} (h : b.ids.Nodup) {path : List Slot}
    (hx : b.at? path = some x) (c : Block) (rest : List Slot) :
    (b.put x.id c).at? (path ++ rest) = c.at? rest := by
  induction path generalizing b with
  | nil => rw [put_of_eq (congrArg id (Option.some.inj hx)), List.nil_append]
  | cons s path ih =>
    obtain ⟨d, hd, hxd⟩ := Option.bind_eq_some_iff.mp hx
    obtain ⟨hout, hnodup⟩ := nodup_of_child? h hd
    have hb : b.id ≠ x.id := fun e => hout (mem_ids.mpr ⟨x, mem_walk_of_at? hxd, e.symm⟩)
    rw [List.cons_append, at?_cons, child?_put hb, hd]
    exact ih hnodup hxd

end Block

namespace Test

/-- The block at the end of a path from the root with the number `k`. -/
def at? (t : Test) (k : Nat) (path : List Slot) : Option Block :=
  t.roots[k]?.bind fun r => r.block.at? path

/-- The blocks on a path from the root with the number `k`. -/
def along (t : Test) (k : Nat) (path : List Slot) : List Block :=
  t.roots[k]?.elim [] fun r => r.block.along path

/-- `t'` is the test `t` with `b` in the place of the block that has its id. -/
structure Updated (t : Test) (b : Block) (t' : Test) : Prop where
  /-- Where that block was are `b` and what is below it. -/
  inside : ∀ k path, (t.at? k path).map Block.id = some b.id →
    ∀ rest, t'.at? k (path ++ rest) = b.at? rest
  /-- Wherever the way does not lead through it is what was there. -/
  outside : ∀ k path, b.id ∉ (t.along k path).map Block.id →
    (t'.at? k path).map bare = (t.at? k path).map bare
  positions : t'.roots.map Root.position = t.roots.map Root.position
  library : t'.library = t.library

theorem roots_replace (t : Test) (i : BlockId) (c : Block) :
    (t.replace i c).roots = t.roots.map fun r => { r with block := r.block.put i c } := by
  have hroot : Root.alter? (.only i (some c)) =
      some ∘ fun r : Root => { r with block := r.block.put i c } := by
    funext r
    rw [Root.alter?, Block.alterSlot_only_some]
    rfl
  rw [replace_eq_alter, alter, hroot, List.filterMap_eq_map]

theorem at?_replace (t : Test) (i : BlockId) (c : Block) (k : Nat) (path : List Slot) :
    (t.replace i c).at? k path = t.roots[k]?.bind fun r => (r.block.put i c).at? path := by
  rw [at?, roots_replace, List.getElem?_map]
  cases t.roots[k]? <;> rfl

theorem nodup_ids_root {t : Test} (h : t.ids.Nodup) {r : Root} (hr : r ∈ t.roots) :
    r.block.ids.Nodup := by
  obtain ⟨before, after, hroots⟩ := List.append_of_mem hr
  rw [ids, blocks, hroots, List.flatMap_append, List.flatMap_cons, List.map_append,
    List.map_append] at h
  exact (List.nodup_append.mp (List.nodup_append.mp h).2.1).1

theorem updated {t : Test} (h : t.ids.Nodup) (b : Block) : t.Updated b (t.update b) where
  inside k path hid rest := by
    obtain ⟨x, hx, hxid⟩ := Option.map_eq_some_iff.mp hid
    obtain ⟨r, hr, hpath⟩ := Option.bind_eq_some_iff.mp hx
    have hnodup := nodup_ids_root h (List.mem_of_getElem? hr)
    rw [update, at?_replace, hr, ← hxid]
    exact Block.at?_put_append hnodup hpath b rest
  outside k path hout := by
    rw [update, at?_replace, at?]
    cases hr : t.roots[k]? with
    | none => rfl
    | some r =>
      rw [along, hr] at hout
      exact Block.at?_put_of_not_mem hout b
  positions := by
    rw [update, roots_replace, List.map_map]
    rfl
  library := by rw [update, replace_eq_alter, alter]

/-- What was found can be written back. -/
theorem update_of_mem {t : Test} (h : t.ids.Nodup) {b : Block} (hb : b ∈ t.blocks) :
    t.update b = t := by
  rw [update, replace_eq_alter]
  refine alter_of_keeps fun x hx => ?_
  by_cases hid : x.id = b.id
  · rw [eq_of_id_eq h hx hb hid, Change.only_self]
    exact Or.inr rfl
  · exact Or.inl (Change.only_of_ne hid _)

theorem update_of_not_mem {t : Test} {b : Block} (h : b.id ∉ t.ids) : t.update b = t := by
  rw [update, replace_eq_alter]
  exact alter_of_keeps fun x hx =>
    Or.inl (Change.only_of_ne (fun e => h (mem_ids.mpr ⟨x, hx, e⟩)) _)

/-- Of two writes the second counts. -/
theorem update_update (t : Test) {b c : Block} (h : b.id = c.id) :
    (t.update b).update c = t.update c := by
  have hc : Block.alterSlot (.only c.id (some c)) (some b) = some c := by
    rw [Block.alterSlot_only_some, Block.put_of_eq h]
  rw [update, update, update, replace_eq_alter, replace_eq_alter, replace_eq_alter, alter_alter, h,
    Change.only_andThen_self, hc]

/-- What was written is found, if its id does not occur below it. -/
theorem find?_update {t : Test} (h : t.ids.Nodup) {b : Block} (hb : b.id ∈ t.ids)
    (honce : b.ids.count b.id = 1) : (t.update b).find? b.id = .ok (some b) := by
  obtain ⟨x, hx, hid⟩ := mem_ids.mp hb
  obtain ⟨p, rfl⟩ := Place.exists_place hx
  have hout := Place.not_mem_ids_of_nodup h x.id_mem_ids
  rw [Place.update_fill hout hid.symm]
  rw [hid] at hout
  refine find?_of_count_le_one (p.mem_blocks_fill_self b) (Nat.le_of_eq ?_)
  rw [(p.perm_ids_fill (some b)).count_eq, List.count_append, List.count_eq_zero_of_not_mem hout,
    Block.idsSlot_some, honce, Nat.zero_add]

/-- The laws of finding and writing back. -/
theorem update_laws (t : Test) :
    (t.ids.Nodup → ∀ i ∈ t.ids, ∃ b, t.find? i = .ok (some b) ∧ t.update b = t) ∧
      (t.ids.Nodup → ∀ b : Block, b.id ∈ t.ids → b.ids.count b.id = 1 →
        (t.update b).find? b.id = .ok (some b) ∧ t.Updated b (t.update b)) ∧
      (∀ b c : Block, b.id = c.id → (t.update b).update c = t.update c) ∧
      ∀ b : Block, b.id ∉ t.ids → t.update b = t := by
  refine ⟨fun h i hi => ?_, fun h b hb honce => ?_, fun b c => t.update_update,
    fun b => update_of_not_mem⟩
  · obtain ⟨b, hb, rfl⟩ := mem_ids.mp hi
    exact ⟨b, find?_of_mem h hb, update_of_mem h hb⟩
  · exact ⟨find?_update h hb honce, updated h b⟩

/-- The first of two requests is written anew, without the chain that it had. -/
theorem update_laws_twoRequests :
    let t := twoRequests "a" "b"
    let edited := Block.request "a" ⟨"first", "post", "/", [], []⟩ (some (plainRequest "c" none))
    t.ids.Nodup ∧ edited.id ∈ t.ids ∧ edited.ids.count edited.id = 1 ∧ "d" ∉ t.ids ∧
      (∃ b, t.find? edited.id = .ok (some b) ∧ t.update b = t) ∧
      (t.update edited).find? edited.id = .ok (some edited) ∧ t.Updated edited (t.update edited) ∧
      (t.update edited).update (plainRequest "a" none) = t.update (plainRequest "a" none) ∧
      t.update (plainRequest "d" none) = t := by
  intro t edited
  have hids : t.ids.Nodup := by decide
  have hmem : edited.id ∈ t.ids := by decide
  have honce : edited.ids.count edited.id = 1 := by decide
  have habsent : "d" ∉ t.ids := by decide
  obtain ⟨hfound, hwritten, htwice, hunknown⟩ := update_laws t
  obtain ⟨hfind, hupdated⟩ := hwritten hids edited hmem honce
  exact ⟨hids, hmem, honce, habsent, hfound hids edited.id hmem, hfind, hupdated,
    htwice edited (plainRequest "a" none) rfl, hunknown (plainRequest "d" none) habsent⟩

end Test
end LoadTest

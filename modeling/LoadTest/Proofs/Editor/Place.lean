import LoadTest.Editor
import LoadTest.Proofs.Block.Rewriting

/-!
Places for a block in a test.

Every block of a test stands in a place, and if the ids differ then taking the block out leaves the
place empty and replacing it fills the place anew.
-/

namespace LoadTest

/-- A place on the canvas or below it: what is around it and above it. -/
structure Place where
  library : Library
  before : List Root
  position : Position
  trail : List Block.Frame
  after : List Root

namespace Test

def ids (t : Test) : List BlockId :=
  t.blocks.map Block.id

def links (t : Test) : List Block.Link :=
  t.blocks.flatMap Block.ownLinks

theorem mem_blocks {t : Test} {b : Block} :
    b ∈ t.blocks ↔ ∃ r ∈ t.roots, b ∈ r.block.walk :=
  List.mem_flatMap

theorem mem_blocks_of_mem_walk {t : Test} {b x : Block} (hb : b ∈ t.blocks) (hx : x ∈ b.walk) :
    x ∈ t.blocks := by
  obtain ⟨r, hr, hb⟩ := mem_blocks.mp hb
  exact mem_blocks.mpr ⟨r, hr, Block.mem_walk_trans hb hx⟩

theorem mem_ids {t : Test} {i : BlockId} : i ∈ t.ids ↔ ∃ b ∈ t.blocks, b.id = i :=
  List.mem_map

theorem mem_links {t : Test} {l : Block.Link} : l ∈ t.links ↔ ∃ o ∈ t.blocks, l ∈ o.ownLinks :=
  List.mem_flatMap

theorem held_id_mem {t : Test} {l : Block.Link} (h : l ∈ t.links) : l.held.id ∈ t.ids := by
  obtain ⟨o, ho, hl⟩ := mem_links.mp h
  obtain ⟨s, c, hc, rfl⟩ := Block.mem_ownLinks.mp hl
  rw [Block.id_bare]
  exact List.mem_map_of_mem
    (mem_blocks_of_mem_walk ho (Block.mem_walk_of_child? hc (Block.mem_walk_self c)))

/-! ## Finding -/

theorem eq_of_id_eq {t : Test} (h : t.ids.Nodup) {a b : Block} (ha : a ∈ t.blocks)
    (hb : b ∈ t.blocks) (hid : a.id = b.id) : a = b :=
  List.inj_on_of_nodup_map h ha hb hid

theorem occurrences_eq_count (t : Test) (i : BlockId) : t.occurrences i = t.ids.count i := by
  rw [occurrences, ids, List.count_eq_countP, List.countP_map]
  rfl

theorem find?_of_nodup {t : Test} (h : t.ids.Nodup) (i : BlockId) :
    t.find? i = .ok (t.blocks.find? (·.id == i)) := by
  rw [find?, occurrences_eq_count, if_pos (List.nodup_iff_count_le_one.mp h i)]

/-- A block whose id is used once is found by it. -/
theorem find?_of_count_le_one {t : Test} {b : Block} (hb : b ∈ t.blocks)
    (h : t.ids.count b.id ≤ 1) : t.find? b.id = .ok (some b) := by
  have hfilter : (t.blocks.filter (·.id == b.id)).length ≤ 1 := by
    rwa [← List.countP_eq_length_filter, ← occurrences, occurrences_eq_count]
  have hself : b ∈ t.blocks.filter (·.id == b.id) :=
    List.mem_filter.mpr ⟨hb, beq_self_eq_true b.id⟩
  have hsingle : t.blocks.filter (·.id == b.id) = [b] := by
    have hone := Nat.le_antisymm hfilter (List.length_pos_of_mem hself)
    obtain ⟨x, hx⟩ := List.length_eq_one_iff.mp hone
    rw [hx, List.mem_singleton] at hself
    rw [hx, hself]
  rw [find?, occurrences_eq_count, if_pos h, ← List.head?_filter, hsingle]
  rfl

theorem find?_of_mem {t : Test} (h : t.ids.Nodup) {b : Block} (hb : b ∈ t.blocks) :
    t.find? b.id = .ok (some b) :=
  find?_of_count_le_one hb (List.nodup_iff_count_le_one.mp h b.id)

theorem find?_of_not_mem {t : Test} {i : BlockId} (h : i ∉ t.ids) : t.find? i = .ok none := by
  have hcount : t.occurrences i = 0 := by
    rw [occurrences_eq_count]
    exact List.count_eq_zero_of_not_mem h
  have hnone : t.blocks.find? (·.id == i) = none := by
    rw [List.find?_eq_none]
    intro b hb he
    exact h (mem_ids.mpr ⟨b, hb, by simpa using he⟩)
  rw [find?, hcount, if_pos (Nat.zero_le 1), hnone]

theorem mem_of_find?_eq_some {t : Test} {i : BlockId} {b : Block} (h : t.find? i = .ok (some b)) :
    b ∈ t.blocks ∧ b.id = i := by
  rw [find?] at h
  split at h
  · have hb : t.blocks.find? (·.id == i) = some b := by simpa using h
    exact ⟨List.mem_of_find?_eq_some hb, by simpa using List.find?_some hb⟩
  · cases h

/-! ## Rewriting -/

variable {σ : Type}

theorem rewriteRoots_append (f : Block → StateM σ Rewrite) (l r : List Root) :
    rewriteRoots f (l ++ r) =
      do return (← rewriteRoots f l) ++ (← rewriteRoots f r) := by
  induction l with
  | nil => simp [rewriteRoots]
  | cons x l ih =>
    simp only [List.cons_append, rewriteRoots, ih, bind_assoc]
    refine bind_congr fun y => ?_
    cases y with
    | none => rfl
    | some b => simp

theorem rewriteRoots_of_not_mem {f : Block → StateM σ Rewrite} {i : BlockId}
    (hf : Block.Seeks f i) (rs : List Root) (h : ∀ r ∈ rs, i ∉ r.block.ids) :
    rewriteRoots f rs = pure rs := by
  induction rs with
  | nil => rfl
  | cons r rs ih =>
    have hr := Block.rewriteSlot_of_not_mem hf (some r.block) (h r List.mem_cons_self)
    rw [rewriteRoots, hr, pure_bind, ih fun s hs => h s (List.mem_cons_of_mem _ hs)]
    rfl

theorem rewriteRoots_toList (f : Block → StateM σ Rewrite) (p : Position) (x : Option Block) :
    rewriteRoots f (x.toList.map (⟨p, ·⟩)) =
      do return (← Block.rewriteSlot f x).toList.map (⟨p, ·⟩) := by
  cases x with
  | none => simp [rewriteRoots, Block.rewriteSlot]
  | some b =>
    simp only [Option.toList_some, List.map_cons, List.map_nil, rewriteRoots, pure_bind]
    refine bind_congr fun y => ?_
    cases y <;> rfl

theorem rewrite_of_not_mem {f : Block → StateM σ Rewrite} {i : BlockId} (hf : Block.Seeks f i)
    {t : Test} (h : i ∉ t.ids) : t.rewrite f = pure t := by
  have hroots : ∀ r ∈ t.roots, i ∉ r.block.ids := by
    intro r hr hi
    obtain ⟨b, hb, rfl⟩ := Block.mem_ids.mp hi
    exact h (mem_ids.mpr ⟨b, mem_blocks.mpr ⟨r, hr, hb⟩, rfl⟩)
  rw [rewrite, rewriteRoots_of_not_mem hf t.roots hroots, pure_bind]

theorem seeks_takeStep (i : BlockId) : Block.Seeks (takeStep i) i := by
  intro b hb
  rw [takeStep, if_neg hb]

theorem seeks_replaceStep (i : BlockId) (c : Block) : Block.Seeks (replaceStep i c) i := by
  intro b hb
  rw [replaceStep, if_neg hb]

theorem take_of_not_mem {t : Test} {i : BlockId} (h : i ∉ t.ids) : t.take i = (t, none) := by
  rw [take, rewrite_of_not_mem (seeks_takeStep i) h]
  rfl

end Test

namespace Place

open Block (walkSlot bare)

/-- The test with `x` in the place.  A root that is left empty is not there. -/
def fill (p : Place) (x : Option Block) : Test :=
  ⟨p.library, p.before ++ (Block.fill p.trail x).toList.map (⟨p.position, ·⟩) ++ p.after⟩

/-- Every block of a test stands in a place. -/
theorem exists_place {t : Test} {b : Block} (h : b ∈ t.blocks) :
    ∃ p : Place, p.fill (some b) = t := by
  obtain ⟨r, hr, hb⟩ := Test.mem_blocks.mp h
  obtain ⟨before, after, hroots⟩ := List.append_of_mem hr
  obtain ⟨trail, htrail⟩ := Block.exists_trail hb
  refine ⟨⟨t.library, before, r.position, trail, after⟩, ?_⟩
  rw [fill, htrail, Option.toList_some, List.map_singleton, List.append_assoc,
    List.singleton_append, ← hroots]

theorem blocks_fill (p : Place) (x : Option Block) :
    (p.fill x).blocks = p.before.flatMap (fun r => r.block.walk) ++
      walkSlot (Block.fill p.trail x) ++ p.after.flatMap fun r => r.block.walk := by
  rw [Test.blocks, fill, List.flatMap_append, List.flatMap_append]
  cases Block.fill p.trail x <;> simp [walkSlot]

theorem perm_bare_fill (p : Place) (x : Option Block) :
    ((p.fill x).blocks.map bare).Perm
      ((p.fill none).blocks.map bare ++ (walkSlot x).map bare) := by
  simp only [blocks_fill, List.map_append, List.append_assoc]
  refine List.Perm.append_left _ ?_
  refine ((Block.perm_bare_fill p.trail x).append_right _).trans ?_
  rw [List.append_assoc]
  exact List.perm_append_comm.append_left _

theorem perm_ids_fill (p : Place) (x : Option Block) :
    (p.fill x).ids.Perm ((p.fill none).ids ++ Block.idsSlot x) := by
  have h := (perm_bare_fill p x).map Block.id
  rw [List.map_append, Block.map_id_map_bare, Block.map_id_map_bare, Block.map_id_map_bare] at h
  exact h

theorem nodup_ids_fill {p : Place} {x : Option Block} :
    (p.fill x).ids.Nodup ↔ (p.fill none).ids.Nodup ∧ (Block.idsSlot x).Nodup ∧
      ∀ i ∈ (p.fill none).ids, i ∉ Block.idsSlot x := by
  rw [(perm_ids_fill p x).nodup_iff, List.nodup_append]
  refine and_congr_right fun _ => and_congr_right fun _ => ?_
  exact ⟨fun h i hi hx => h i hi i hx rfl, fun h i hi j hj e => h i hi (e ▸ hj)⟩

theorem mem_ids_fill {p : Place} {x : Option Block} {i : BlockId} :
    i ∈ (p.fill x).ids ↔ i ∈ (p.fill none).ids ∨ i ∈ Block.idsSlot x := by
  rw [(perm_ids_fill p x).mem_iff, List.mem_append]

theorem links_fill (p : Place) (x : Option Block) :
    (p.fill x).links = p.before.flatMap (fun r => r.block.links) ++
      Block.linksSlot (Block.fill p.trail x) ++ p.after.flatMap fun r => r.block.links := by
  rw [Test.links, blocks_fill, List.flatMap_append, List.flatMap_append, List.flatMap_assoc,
    List.flatMap_assoc]
  rfl

theorem mem_links_fill {p : Place} {x : Option Block} {l : Block.Link} :
    l ∈ (p.fill x).links ↔ l ∈ (p.fill none).links ∨
      (∃ o c, Block.opening p.trail = some o ∧ x = some c ∧ l = ⟨o.1, o.2, bare c⟩) ∨
      l ∈ Block.linksSlot x := by
  have hswap : ∀ a b c d : Prop, (a ∨ b ∨ c) ∨ d ↔ ((a ∨ b) ∨ d) ∨ c := by
    intro a b c d
    rw [← or_assoc, or_right_comm]
  simp only [links_fill, List.mem_append]
  rw [Block.mem_links_fill, hswap]

theorem mem_blocks_fill_self (p : Place) (b : Block) : b ∈ (p.fill (some b)).blocks := by
  obtain ⟨l, hl⟩ : ∃ l : Block, Block.fill p.trail (some b) = some l ∧ b ∈ l.walk := by
    induction p.trail with
    | nil => exact ⟨b, rfl, Block.mem_walk_self b⟩
    | cons f trail ih =>
      obtain ⟨l, hl, hb⟩ := ih
      refine ⟨f.fill (some l), by rw [Block.fill_cons, hl], ?_⟩
      exact Block.mem_walk_of_child? (f.child?_fill (some l)) hb
  rw [blocks_fill, hl.1, walkSlot]
  simp [hl.2]

/-- What is no part of the block in a place is there without that block too, but for what its slots
hold. -/
theorem exists_mem_fill_none {p : Place} {b o : Block} (ho : o ∈ (p.fill (some b)).blocks)
    (hout : o.id ∉ b.ids) : ∃ o₁ ∈ (p.fill none).blocks, o₁.bare = o.bare := by
  have hbare := List.mem_map_of_mem (f := bare) ho
  rw [(perm_bare_fill p (some b)).mem_iff, List.mem_append] at hbare
  rcases hbare with hbare | hbare
  · exact List.mem_map.mp hbare
  · obtain ⟨x, hx, hxo⟩ := List.mem_map.mp hbare
    exact absurd (Block.mem_ids.mpr ⟨x, hx, Block.id_eq_of_bare_eq hxo⟩) hout

/-! ## Edits at a place -/

variable {σ : Type}

theorem rewrite_fill {f : Block → StateM σ Rewrite} {i : BlockId} (hf : Block.Seeks f i)
    {p : Place} (h : i ∉ (p.fill none).ids) (x : Option Block) :
    (p.fill x).rewrite f = do return p.fill (← Block.rewriteSlot f x) := by
  have hids : ∀ b ∈ (p.fill none).blocks, b.id ≠ i :=
    fun b hb e => h (Test.mem_ids.mpr ⟨b, hb, e⟩)
  simp only [blocks_fill, List.mem_append, List.mem_flatMap] at hids
  have hbefore : ∀ r ∈ p.before, i ∉ r.block.ids := by
    intro r hr hi
    obtain ⟨b, hb, e⟩ := Block.mem_ids.mp hi
    exact hids b (Or.inl (Or.inl ⟨r, hr, hb⟩)) e
  have hafter : ∀ r ∈ p.after, i ∉ r.block.ids := by
    intro r hr hi
    obtain ⟨b, hb, e⟩ := Block.mem_ids.mp hi
    exact hids b (Or.inr ⟨r, hr, hb⟩) e
  have htrail : i ∉ Block.idsSlot (Block.fill p.trail none) := by
    intro hi
    obtain ⟨b, hb, e⟩ := List.mem_map.mp hi
    exact hids b (Or.inl (Or.inr hb)) e
  simp only [Test.rewrite, fill, Test.rewriteRoots_append,
    Test.rewriteRoots_of_not_mem hf p.before hbefore,
    Test.rewriteRoots_of_not_mem hf p.after hafter, Test.rewriteRoots_toList,
    Block.rewriteSlot_fill hf p.trail x htrail, bind_assoc, pure_bind]

/-- Taking a block out leaves its place empty. -/
theorem take_fill {p : Place} {b : Block} (h : b.id ∉ (p.fill none).ids) :
    (p.fill (some b)).take b.id = (p.fill none, some b) := by
  rw [Test.take, rewrite_fill (Test.seeks_takeStep b.id) h]
  simp only [Block.rewriteSlot, Test.takeStep, if_true]
  rfl

theorem detach_fill {p : Place} {b : Block} (h : b.id ∉ (p.fill none).ids) :
    (p.fill (some b)).detach b.id = p.fill none := by
  rw [Test.detach, take_fill h]

/-- Replacing a block fills its place anew. -/
theorem replace_fill {p : Place} {b : Block} (h : b.id ∉ (p.fill none).ids) (c : Block) :
    (p.fill (some b)).replace b.id c = p.fill (some c) := by
  rw [Test.replace, rewrite_fill (Test.seeks_replaceStep b.id c) h]
  simp only [Block.rewriteSlot, Test.replaceStep, if_true]
  rfl

theorem update_fill {p : Place} {b c : Block} (h : b.id ∉ (p.fill none).ids) (hc : c.id = b.id) :
    (p.fill (some b)).update c = p.fill (some c) := by
  rw [Test.update, hc, replace_fill h]

/-- What stands in a place of a test with different ids has an id that is nowhere else in it. -/
theorem not_mem_ids_of_nodup {p : Place} {b : Block} (h : (p.fill (some b)).ids.Nodup)
    {i : BlockId} (hi : i ∈ b.ids) : i ∉ (p.fill none).ids :=
  fun hp => (nodup_ids_fill.mp h).2.2 i hp hi

end Place
end LoadTest

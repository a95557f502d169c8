import LoadTest.Block.Walk
import Mathlib.Data.List.Nodup
import Mathlib.Data.List.Perm.Basic

/-!
Trees of blocks by their slots.

A walk, the ids, the blocks by themselves and the links between them are read through `child?`, so
that the proofs about them have one case and not one for each kind of block.
-/

namespace LoadTest

/-- A chain slot accepts steps. -/
theorem Slot.accepts_of_isChain {s : Slot} (h : s.isChain = true) (k : Kind) :
    s.accepts k = k.isStep := by
  cases s with
  | step | next => rfl
  | executor | target => cases h

namespace Block

/-! ## Induction -/

theorem sizeOf_lt_of_child? {b c : Block} {s : Slot} (h : b.child? s = some c) :
    sizeOf c < sizeOf b := by
  cases b <;> cases s <;> simp only [child?, reduceCtorEq] at h <;> subst h <;> simp <;> omega

/-- What holds of a block when it holds of what its slots hold, holds of every block. -/
theorem childInduction {P : Block → Prop}
    (step : ∀ b : Block, (∀ s c, b.child? s = some c → P c) → P b) (b : Block) : P b :=
  step b fun _ c h => have := sizeOf_lt_of_child? h; childInduction step c
termination_by sizeOf b

/-! ## Walks -/

theorem walk_eq_slots (b : Block) :
    b.walk = b :: b.kind.slots.flatMap fun s => walkSlot (b.child? s) := by
  cases b <;> simp [walk, kind, Kind.slots, child?]

theorem hasSlot_of_child? {b c : Block} {s : Slot} (h : b.child? s = some c) :
    b.kind.hasSlot s = true := by
  by_contra hs
  rw [child?_eq_none (by simpa using hs)] at h
  cases h

theorem mem_walkSlot {c : Option Block} {x : Block} :
    x ∈ walkSlot c ↔ ∃ b, c = some b ∧ x ∈ b.walk := by
  cases c <;> simp [walkSlot]

theorem mem_walk {b x : Block} :
    x ∈ b.walk ↔ x = b ∨ ∃ s c, b.child? s = some c ∧ x ∈ c.walk := by
  rw [walk_eq, List.mem_cons, List.mem_flatMap]
  constructor
  · rintro (h | ⟨⟨s, c⟩, hc, hx⟩)
    · exact Or.inl h
    · exact Or.inr ⟨s, c, mem_children.mp hc, hx⟩
  · rintro (h | ⟨s, c, hc, hx⟩)
    · exact Or.inl h
    · exact Or.inr ⟨(s, c), mem_children.mpr hc, hx⟩

theorem mem_walk_of_child? {b c x : Block} {s : Slot} (h : b.child? s = some c)
    (hx : x ∈ c.walk) : x ∈ b.walk :=
  mem_walk.mpr (Or.inr ⟨s, c, h, hx⟩)

theorem mem_walk_trans {b x y : Block} (hx : x ∈ b.walk) (hy : y ∈ x.walk) : y ∈ b.walk := by
  induction b using childInduction with
  | step b ih =>
    rcases mem_walk.mp hx with rfl | ⟨s, c, hc, hx⟩
    · exact hy
    · exact mem_walk_of_child? hc (ih s c hc hx)

theorem not_mem_of_slots_eq {k : Kind} {s : Slot} {l r : List Slot} (h : k.slots = l ++ s :: r) :
    s ∉ l ∧ s ∉ r := by
  have hnd := k.nodup_slots
  rw [h, List.nodup_middle, List.nodup_cons, List.mem_append, not_or] at hnd
  exact hnd.1

/-- What is put into a slot is met between what the slots before it hold and what those behind it
hold. -/
theorem walk_setChild {b : Block} {s : Slot} {l r : List Slot} (h : b.kind.slots = l ++ s :: r)
    (x : Option Block) :
    (b.setChild s x).walk =
      b.setChild s x :: ((l.flatMap fun s' => walkSlot (b.child? s')) ++ walkSlot x ++
        r.flatMap fun s' => walkSlot (b.child? s')) := by
  obtain ⟨hl, hr⟩ := not_mem_of_slots_eq h
  have hslot : b.kind.hasSlot s = true := List.contains_iff_mem.mpr (by simp [h])
  have hother : ∀ part : List Slot, s ∉ part →
      (part.flatMap fun s' => walkSlot ((b.setChild s x).child? s')) =
        part.flatMap fun s' => walkSlot (b.child? s') := by
    intro part hpart
    refine List.flatMap_congr fun s' hs' => ?_
    rw [child?_setChild_of_ne b (ne_of_mem_of_not_mem hs' hpart)]
  rw [walk_eq_slots, kind_setChild, h, List.flatMap_append, List.flatMap_cons, hother l hl,
    hother r hr, child?_setChild_self hslot, List.append_assoc]

/-- Around what one slot holds, a walk is always the same. -/
theorem exists_walk_setChild {b : Block} {s : Slot} (h : b.kind.hasSlot s = true) :
    ∃ before after : List Block, ∀ x,
      (b.setChild s x).walk = b.setChild s x :: (before ++ walkSlot x ++ after) := by
  obtain ⟨l, r, hlr⟩ := List.append_of_mem (List.contains_iff_mem.mp h)
  exact ⟨_, _, walk_setChild hlr⟩

/-! ## Blocks by themselves -/

/-- The block with its slots empty: its id and its own fields. -/
def bare : Block → Block
  | scenario id name _ _ => scenario id name none none
  | group id name _ _ => group id name none none
  | request id r _ => request id r none
  | library id call _ => library id call none
  | check id es _ _ => check id es none none
  | executor id shape => executor id shape
  | sleep id x _ => sleep id x none

@[simp] theorem id_bare (b : Block) : b.bare.id = b.id := by
  cases b <;> rfl

@[simp] theorem kind_bare (b : Block) : b.bare.kind = b.kind := by
  cases b <;> rfl

theorem id_eq_of_bare_eq {a b : Block} (h : a.bare = b.bare) : a.id = b.id := by
  rw [← id_bare a, h, id_bare]

theorem kind_eq_of_bare_eq {a b : Block} (h : a.bare = b.bare) : a.kind = b.kind := by
  rw [← kind_bare a, h, kind_bare]

@[simp] theorem bare_setChild (b : Block) (s : Slot) (c : Option Block) :
    (b.setChild s c).bare = b.bare := by
  cases b <;> cases s <;> rfl

/-- The ids in the order of a walk. -/
def ids (b : Block) : List BlockId :=
  b.walk.map id

theorem mem_ids {b : Block} {i : BlockId} : i ∈ b.ids ↔ ∃ x ∈ b.walk, x.id = i :=
  List.mem_map

theorem id_mem_ids (b : Block) : b.id ∈ b.ids :=
  mem_ids.mpr ⟨b, mem_walk_self b, rfl⟩

/-- Of different ids none is that of a block and also below it. -/
theorem nodup_of_child? {b c : Block} {s : Slot} (h : b.ids.Nodup) (hc : b.child? s = some c) :
    b.id ∉ c.ids ∧ c.ids.Nodup := by
  obtain ⟨before, after, hwalk⟩ := exists_walk_setChild (hasSlot_of_child? hc)
  have hself := hwalk (b.child? s)
  rw [setChild_child?, hc, walkSlot] at hself
  rw [ids, hself, List.map_cons, List.map_append, List.map_append, List.nodup_cons] at h
  refine ⟨fun hmem => h.1 ?_, (List.nodup_append.mp (List.nodup_append.mp h.2).1).2.1⟩
  exact List.mem_append_left _ (List.mem_append_right _ hmem)

theorem contains_eq_decide (b : Block) (i : BlockId) : b.contains i = decide (i ∈ b.ids) := by
  rw [Bool.eq_iff_iff, contains_iff, decide_eq_true_eq, mem_ids]

theorem map_id_map_bare (l : List Block) : (l.map bare).map id = l.map id := by
  simp

/-! ## Links -/

/-- A slot of a block and the block that it holds, each by itself. -/
structure Link where
  owner : Block
  slot : Slot
  held : Block

/-- What the block has in its own slots. -/
def ownLinks (b : Block) : List Link :=
  b.children.map fun c => ⟨b.bare, c.1, c.2.bare⟩

def links (b : Block) : List Link :=
  b.walk.flatMap ownLinks

theorem mem_ownLinks {b : Block} {l : Link} :
    l ∈ b.ownLinks ↔ ∃ s c, b.child? s = some c ∧ l = ⟨b.bare, s, c.bare⟩ := by
  simp only [ownLinks, List.mem_map, Prod.exists, mem_children]
  constructor
  · rintro ⟨s, c, hc, rfl⟩
    exact ⟨s, c, hc, rfl⟩
  · rintro ⟨s, c, hc, rfl⟩
    exact ⟨s, c, hc, rfl⟩

theorem mem_links {b : Block} {l : Link} : l ∈ b.links ↔ ∃ o ∈ b.walk, l ∈ o.ownLinks :=
  List.mem_flatMap

theorem mem_links_iff {b : Block} {l : Link} :
    l ∈ b.links ↔ ∃ s c, b.child? s = some c ∧ (l = ⟨b.bare, s, c.bare⟩ ∨ l ∈ c.links) := by
  constructor
  · intro h
    obtain ⟨o, ho, hl⟩ := mem_links.mp h
    rcases mem_walk.mp ho with rfl | ⟨s, c, hc, ho⟩
    · obtain ⟨s, c, hc, rfl⟩ := mem_ownLinks.mp hl
      exact ⟨s, c, hc, Or.inl rfl⟩
    · exact ⟨s, c, hc, Or.inr (mem_links.mpr ⟨o, ho, hl⟩)⟩
  · rintro ⟨s, c, hc, rfl | hl⟩
    · exact mem_links.mpr ⟨b, mem_walk_self b, mem_ownLinks.mpr ⟨s, c, hc, rfl⟩⟩
    · obtain ⟨o, ho, hl⟩ := mem_links.mp hl
      exact mem_links.mpr ⟨o, mem_walk_of_child? hc ho, hl⟩

/-- The owner of a link is one of the blocks that the link is of. -/
theorem owner_id_mem {bs : List Block} {l : Link} (h : l ∈ bs.flatMap ownLinks) :
    l.owner.id ∈ bs.map id := by
  obtain ⟨o, ho, hl⟩ := List.mem_flatMap.mp h
  obtain ⟨s, c, -, rfl⟩ := mem_ownLinks.mp hl
  rw [id_bare]
  exact List.mem_map_of_mem ho

/-- What a link holds is somewhere below the block. -/
theorem held_mem_of_mem_links {b : Block} {l : Link} (h : l ∈ b.links) :
    ∃ s c, b.child? s = some c ∧ l.held ∈ c.walk.map bare := by
  induction b using childInduction with
  | step b ih =>
    obtain ⟨s, c, hc, rfl | hl⟩ := mem_links_iff.mp h
    · exact ⟨s, c, hc, List.mem_map_of_mem (mem_walk_self c)⟩
    · obtain ⟨s', d, hd, hl⟩ := ih s c hc hl
      obtain ⟨x, hx, hxl⟩ := List.mem_map.mp hl
      exact ⟨s, c, hc, List.mem_map.mpr ⟨x, mem_walk_of_child? hd hx, hxl⟩⟩

/-! ## Typed slots -/

/-- Every slot that is not empty holds a block that belongs there. -/
def Typed (b : Block) : Prop :=
  ∀ o ∈ b.walk, ∀ s c, o.child? s = some c → s.accepts c.kind = true

theorem forall_accepts_iff {bs : List Block} :
    (∀ o ∈ bs, ∀ s c, o.child? s = some c → s.accepts c.kind = true) ↔
      ∀ l ∈ bs.flatMap ownLinks, l.slot.accepts l.held.kind = true := by
  constructor
  · intro h l hl
    obtain ⟨o, ho, hl⟩ := List.mem_flatMap.mp hl
    obtain ⟨s, c, hc, rfl⟩ := mem_ownLinks.mp hl
    simpa using h o ho s c hc
  · intro h o ho s c hc
    have hl : (⟨o.bare, s, c.bare⟩ : Link) ∈ bs.flatMap ownLinks :=
      List.mem_flatMap.mpr ⟨o, ho, mem_ownLinks.mpr ⟨s, c, hc, rfl⟩⟩
    simpa using h _ hl

theorem typed_iff_links {b : Block} :
    b.Typed ↔ ∀ l ∈ b.links, l.slot.accepts l.held.kind = true :=
  forall_accepts_iff

theorem Typed.of_mem_walk {b x : Block} (h : b.Typed) (hx : x ∈ b.walk) : x.Typed :=
  fun o ho => h o (mem_walk_trans hx ho)

theorem Typed.of_child? {b c : Block} {s : Slot} (h : b.Typed) (hc : b.child? s = some c) :
    c.Typed :=
  h.of_mem_walk (mem_walk_of_child? hc (mem_walk_self c))

theorem Typed.accepts {b c : Block} {s : Slot} (h : b.Typed) (hc : b.child? s = some c) :
    s.accepts c.kind = true :=
  h b (mem_walk_self b) s c hc

end Block
end LoadTest

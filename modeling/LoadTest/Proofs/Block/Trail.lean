import LoadTest.Block.Rewrite
import LoadTest.Proofs.Block.Tree

/-!
Trees with a hole.

A frame is a block with one of its slots left open, and a trail is a list of frames, each in the
open slot of the one before it.  Every block of a tree stands at the end of a trail, so what a
change of one slot does to the whole tree is read off `fill`.
-/

namespace LoadTest
namespace Block

/-- A block with a slot left open. -/
structure Frame where
  block : Block
  slot : Slot
  hasSlot : block.kind.hasSlot slot = true

/-- The block of a frame with `x` in the open slot. -/
def Frame.fill (f : Frame) (x : Option Block) : Block :=
  f.block.setChild f.slot x

/-- Frames one in the other, the outermost first, with `x` in the innermost open slot. -/
def fill : List Frame → Option Block → Option Block
  | [], x => x
  | f :: trail, x => some (f.fill (fill trail x))

@[simp] theorem fill_nil (x : Option Block) : fill [] x = x := rfl

@[simp] theorem fill_cons (f : Frame) (trail : List Frame) (x : Option Block) :
    fill (f :: trail) x = some (f.fill (fill trail x)) := rfl

theorem fill_append (trail rest : List Frame) (x : Option Block) :
    fill (trail ++ rest) x = fill trail (fill rest x) := by
  induction trail with
  | nil => rfl
  | cons f trail ih => rw [List.cons_append, fill_cons, fill_cons, ih]

@[simp] theorem Frame.bare_fill (f : Frame) (x : Option Block) : (f.fill x).bare = f.block.bare :=
  bare_setChild f.block f.slot x

@[simp] theorem Frame.id_fill (f : Frame) (x : Option Block) : (f.fill x).id = f.block.id :=
  id_setChild f.block f.slot x

@[simp] theorem Frame.child?_fill (f : Frame) (x : Option Block) : (f.fill x).child? f.slot = x :=
  child?_setChild_self f.hasSlot x

/-- The frame that a block leaves when one of its slots is opened. -/
def frameAt (b : Block) (s : Slot) (h : b.kind.hasSlot s = true) : Frame :=
  ⟨b, s, h⟩

theorem fill_frameAt_self (b : Block) (s : Slot) (h : b.kind.hasSlot s = true) :
    (b.frameAt s h).fill (b.child? s) = b :=
  setChild_child? b s

/-- Every block of a tree stands at the end of a trail. -/
theorem exists_trail {b x : Block} (h : x ∈ b.walk) :
    ∃ trail : List Frame, fill trail (some x) = some b := by
  induction b using childInduction with
  | step b ih =>
    rcases mem_walk.mp h with rfl | ⟨s, c, hc, hx⟩
    · exact ⟨[], rfl⟩
    · obtain ⟨trail, htrail⟩ := ih s c hc hx
      have hs := hasSlot_of_child? hc
      refine ⟨b.frameAt s hs :: trail, ?_⟩
      rw [fill_cons, htrail, ← hc, fill_frameAt_self]

/-! ## Blocks and links around a hole -/

/-- Filling a hole adds the blocks that are put there and no others. -/
theorem perm_bare_fill (trail : List Frame) (x : Option Block) :
    ((walkSlot (fill trail x)).map bare).Perm
      ((walkSlot (fill trail none)).map bare ++ (walkSlot x).map bare) := by
  induction trail with
  | nil => simp [walkSlot]
  | cons f trail ih =>
    obtain ⟨before, after, hwalk⟩ := exists_walk_setChild f.hasSlot
    simp only [fill_cons, walkSlot, Frame.fill, hwalk, List.map_cons, List.map_append,
      bare_setChild, List.cons_append, List.append_assoc]
    refine List.Perm.cons _ (List.Perm.append_left _ ?_)
    refine (ih.append_right _).trans ?_
    rw [List.append_assoc]
    exact List.perm_append_comm.append_left _

/-- The links of what a slot holds. -/
def linksSlot (x : Option Block) : List Link :=
  (walkSlot x).flatMap ownLinks

theorem linksSlot_some (b : Block) : linksSlot (some b) = b.links := rfl

theorem Frame.mem_links_fill {f : Frame} {x : Option Block} {l : Link} :
    l ∈ (f.fill x).links ↔ l ∈ (f.fill none).links ∨
      ∃ c, x = some c ∧ (l = ⟨f.block.bare, f.slot, c.bare⟩ ∨ l ∈ c.links) := by
  rw [mem_links_iff, mem_links_iff]
  constructor
  · rintro ⟨s, c, hc, hl⟩
    by_cases hs : s = f.slot
    · subst hs
      rw [f.child?_fill] at hc
      exact Or.inr ⟨c, hc, by simpa using hl⟩
    · refine Or.inl ⟨s, c, ?_, by simpa using hl⟩
      rw [Frame.fill, child?_setChild_of_ne _ hs] at hc ⊢
      exact hc
  · rintro (⟨s, c, hc, hl⟩ | ⟨c, hc, hl⟩)
    · by_cases hs : s = f.slot
      · subst hs
        rw [f.child?_fill] at hc
        cases hc
      · refine ⟨s, c, ?_, by simpa using hl⟩
        rw [Frame.fill, child?_setChild_of_ne _ hs] at hc ⊢
        exact hc
    · exact ⟨f.slot, c, by rw [f.child?_fill, hc], by simpa using hl⟩

/-- The innermost open slot, by the block that has it. -/
def opening (trail : List Frame) : Option (Block × Slot) :=
  trail.getLast?.map fun f => (f.block.bare, f.slot)

theorem opening_concat (trail : List Frame) (f : Frame) :
    opening (trail ++ [f]) = some (f.block.bare, f.slot) := by
  simp [opening]

/-- Filling a hole adds the link to what is put there, and the links below that. -/
theorem mem_links_fill {trail : List Frame} {x : Option Block} {l : Link} :
    l ∈ linksSlot (fill trail x) ↔ l ∈ linksSlot (fill trail none) ∨
      (∃ o c, opening trail = some o ∧ x = some c ∧ l = ⟨o.1, o.2, c.bare⟩) ∨
      l ∈ linksSlot x := by
  induction trail with
  | nil => simp [opening, linksSlot, walkSlot]
  | cons f trail ih =>
    rw [fill_cons, fill_cons, linksSlot_some, linksSlot_some, Frame.mem_links_fill,
      Frame.mem_links_fill (x := fill trail none)]
    cases trail with
    | nil =>
      cases x with
      | none => simp [linksSlot, walkSlot]
      | some c => simp [opening, linksSlot_some]
    | cons g trail =>
      have hopen : opening (f :: g :: trail) = opening (g :: trail) := by
        simp [opening]
      simp only [fill_cons, linksSlot_some, Option.some.injEq, exists_eq_left',
        Frame.bare_fill] at ih ⊢
      rw [ih, hopen]
      simp only [or_assoc]

end Block
end LoadTest

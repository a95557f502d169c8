import LoadTest.Proofs.Block.Trail

/-!
Rewrites that look for one id.

Such a rewrite goes through a tree without the id and changes nothing, so on a tree with a hole it
is what it is on the block in the hole.
-/

namespace LoadTest
namespace Block

variable {σ : Type}

/-- The rewrite goes on inside every block that has another id. -/
def Seeks (f : Block → StateM σ Rewrite) (i : BlockId) : Prop :=
  ∀ b : Block, b.id ≠ i → f b = pure .descend

/-- The ids below a slot. -/
def idsSlot (x : Option Block) : List BlockId :=
  (walkSlot x).map id

theorem idsSlot_some (b : Block) : idsSlot (some b) = b.ids := rfl

mutual

theorem rewrite_of_not_mem {f : Block → StateM σ Rewrite} {i : BlockId} (hf : Seeks f i) :
    ∀ b : Block, i ∉ b.ids → b.rewrite f = pure b
  | scenario .. | group .. | request .. | library .. | check .. | executor .. | sleep .. => by
    intro h
    simp only [ids, walk, List.map_cons, List.map_append, List.mem_cons, List.mem_append,
      not_or] at h
    simp [rewrite, rewriteSlot_of_not_mem hf, idsSlot, h]

theorem rewriteSlot_of_not_mem {f : Block → StateM σ Rewrite} {i : BlockId} (hf : Seeks f i) :
    ∀ x : Option Block, i ∉ idsSlot x → rewriteSlot f x = pure x
  | none, _ => rfl
  | some b, h => by
    have hb : b.id ≠ i := fun e => h (mem_ids.mpr ⟨b, mem_walk_self b, e⟩)
    simp [rewriteSlot, hf b hb, rewrite_of_not_mem hf b h]

end

theorem Frame.rewrite_fill {f : Block → StateM σ Rewrite} {i : BlockId} (hf : Seeks f i)
    (fr : Frame) (x : Option Block) (h : i ∉ (fr.fill none).ids) :
    (fr.fill x).rewrite f = do return fr.fill (← rewriteSlot f x) := by
  obtain ⟨b, s, hs⟩ := fr
  simp only [Frame.fill] at h ⊢
  cases b <;> cases s <;>
    simp only [kind, Kind.hasSlot, Kind.slots, List.contains_cons, List.contains_nil] at hs <;>
    first
    | exact absurd hs (by decide)
    | simp only [setChild, ids, walk, walkSlot, List.map_cons, List.mem_cons, List.append_nil,
        List.nil_append, not_or] at h
      simp [setChild, rewrite, rewriteSlot_of_not_mem hf, idsSlot, h]

theorem rewriteSlot_fill {f : Block → StateM σ Rewrite} {i : BlockId} (hf : Seeks f i)
    (trail : List Frame) (x : Option Block) (h : i ∉ idsSlot (fill trail none)) :
    rewriteSlot f (fill trail x) = do return fill trail (← rewriteSlot f x) := by
  induction trail with
  | nil => simp
  | cons fr trail ih =>
    have hperm := (perm_bare_fill [fr] (fill trail none)).map id
    rw [List.map_append, map_id_map_bare, map_id_map_bare, map_id_map_bare] at hperm
    simp only [fill_cons, fill_nil] at h hperm
    have hmem : i ∉ (fr.fill none).ids ∧ i ∉ idsSlot (fill trail none) := by
      rw [idsSlot, hperm.mem_iff, List.mem_append, not_or] at h
      exact h
    have hid : (fr.fill (fill trail x)).id ≠ i := by
      intro e
      refine hmem.1 (mem_ids.mpr ⟨fr.fill none, mem_walk_self _, ?_⟩)
      rw [Frame.id_fill] at e ⊢
      exact e
    rw [fill_cons, rewriteSlot, hf _ hid]
    simp only [pure_bind, Frame.rewrite_fill hf fr _ hmem.1, ih hmem.2, bind_assoc, fill_cons]

end Block
end LoadTest

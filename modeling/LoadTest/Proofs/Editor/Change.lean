import LoadTest.Proofs.Block.Change
import LoadTest.Proofs.Editor.Sound

/-!
Edits as changes by id.

Taking out and replacing are changes of one id (`detach_eq_alter`, `replace_eq_alter`), so what two
edits in a row come to is read off the two changes.  Edits of different ids commute, however the
blocks lie in the test (`edits_comm`).
-/

namespace LoadTest

open Block (walkSlot)
open Change (only)

/-- The root with its block changed, unless that is taken out. -/
def Root.alter? (g : Change) (r : Root) : Option Root :=
  (Block.alterSlot g (some r.block)).map fun b => { r with block := b }

theorem Root.alter?_alter? (g h : Change) (r : Root) :
    (r.alter? g).bind (Root.alter? h) = r.alter? (g.andThen h) := by
  rw [alter?, alter?, ← Block.alterSlot_alterSlot]
  cases Block.alterSlot g (some r.block) <;> rfl

namespace Test

/-- Change the roots and everything below them. -/
def alter (g : Change) (t : Test) : Test :=
  { t with roots := t.roots.filterMap (Root.alter? g) }

theorem alter_alter (g h : Change) (t : Test) : (t.alter g).alter h = t.alter (g.andThen h) := by
  simp only [alter, List.filterMap_filterMap, Root.alter?_alter?]

/-- A change that keeps every block changes nothing. -/
theorem alter_of_keeps {g : Change} {t : Test} (h : g.Keeps t.blocks) : t.alter g = t := by
  have hroots : ∀ r ∈ t.roots, r.alter? g = some r := by
    intro r hr
    rw [Root.alter?, Block.alterSlot_of_keeps (some r.block)]
    · rfl
    · exact fun b hb => h b (mem_blocks.mpr ⟨r, hr, hb⟩)
  rw [alter, List.filterMap_congr hroots, List.filterMap_some]

/-! ## Rewrites -/

section

variable {σ : Type} {f : Block → StateM σ Rewrite} {g : Change}

theorem run_rewriteRoots (hf : ∀ b s, ((f b).run s).1 = g b.id) (rs : List Root) (s : σ) :
    ((rewriteRoots f rs).run s).1 = rs.filterMap (Root.alter? g) := by
  induction rs generalizing s with
  | nil => rfl
  | cons r rs ih =>
    have hr := Block.run_rewriteSlot hf (some r.block) s
    rw [rewriteRoots, StateT.run_bind, List.filterMap_cons, Root.alter?, ← hr]
    cases hrun : (Block.rewriteSlot f (some r.block)).run s with
    | mk x s' =>
      cases x with
      | none => exact ih s'
      | some b => exact congrArg ({ r with block := b } :: ·) (ih s')

theorem run_rewrite (hf : ∀ b s, ((f b).run s).1 = g b.id) (t : Test) (s : σ) :
    ((t.rewrite f).run s).1 = t.alter g :=
  congrArg (fun roots => { t with roots }) (run_rewriteRoots hf t.roots s)

end

theorem detach_eq_alter (t : Test) (i : BlockId) : t.detach i = t.alter (only i none) := by
  refine run_rewrite (fun b s => ?_) t none
  by_cases h : b.id = i
  · rw [takeStep, if_pos h, h, Change.only_self]
    rfl
  · rw [takeStep, if_neg h, Change.only_of_ne h]
    rfl

theorem replace_eq_alter (t : Test) (i : BlockId) (c : Block) :
    t.replace i c = t.alter (only i (some c)) := by
  refine run_rewrite (fun b s => ?_) t ()
  by_cases h : b.id = i
  · rw [replaceStep, if_pos h, h, Change.only_self]
    rfl
  · rw [replaceStep, if_neg h, Change.only_of_ne h]
    rfl

/-! ## Edits in a row -/

/-- Two changes of different ids commute if neither puts in a block with the id of the other. -/
theorem alter_only_comm (t : Test) {i j : BlockId} (hij : i ≠ j) {x y : Option Block}
    (hx : ∀ b ∈ walkSlot x, b.id ≠ j) (hy : ∀ b ∈ walkSlot y, b.id ≠ i) :
    (t.alter (only i x)).alter (only j y) = (t.alter (only j y)).alter (only i x) := by
  rw [alter_alter, alter_alter, Change.only_andThen_comm hij hx hy]

/-- Edits of different ids commute, as long as no replacement brings in the id of the other edit.
The blocks may lie anywhere: one may be below the other, and an id may be used twice. -/
theorem edits_comm (t : Test) {i j : BlockId} (hij : i ≠ j) :
    (∀ x y : Block, j ∉ x.ids → i ∉ y.ids →
        (t.replace i x).replace j y = (t.replace j y).replace i x) ∧
      (t.detach i).detach j = (t.detach j).detach i ∧
      ∀ x : Block, j ∉ x.ids → (t.replace i x).detach j = (t.detach j).replace i x := by
  have hsome : ∀ (x : Block) (k : BlockId), k ∉ x.ids → ∀ b ∈ walkSlot (some x), b.id ≠ k :=
    fun _ _ hk b hb e => hk (Block.mem_ids.mpr ⟨b, hb, e⟩)
  have hnone : ∀ k, ∀ b ∈ walkSlot none, b.id ≠ k := fun _ _ hb => absurd hb List.not_mem_nil
  simp only [replace_eq_alter, detach_eq_alter]
  refine ⟨fun x y hx hy => ?_, ?_, fun x hx => ?_⟩
  · exact t.alter_only_comm hij (hsome x j hx) (hsome y i hy)
  · exact t.alter_only_comm hij (hnone j) (hnone i)
  · exact t.alter_only_comm hij (hsome x j hx) (hnone i)

/-- A scenario of a group with one request and another request behind the group. -/
def grouped : Test :=
  let group := Block.group "g" "" (some (plainRequest "a" none)) (some (plainRequest "b" none))
  ⟨Library.empty, [⟨⟨0, 0⟩, .scenario "s" "" none (some group)⟩]⟩

/-- Neither request is below the other, and the replacement of the first has it in it again. -/
theorem edits_comm_grouped :
    let x := plainRequest "n" (some (plainRequest "a" none))
    let y := plainRequest "b" (some (plainRequest "m" none))
    grouped.ids.Nodup ∧ grouped.isDescendant "a" "b" = .ok false ∧
      grouped.isDescendant "b" "a" = .ok false ∧ "b" ∉ x.ids ∧ "a" ∉ y.ids ∧
      (grouped.replace "a" x).replace "b" y = (grouped.replace "b" y).replace "a" x ∧
      (grouped.detach "a").detach "b" = (grouped.detach "b").detach "a" ∧
      (grouped.replace "a" x).detach "b" = (grouped.detach "b").replace "a" x := by
  intro x y
  have hx : "b" ∉ x.ids := by decide
  have hy : "a" ∉ y.ids := by decide
  obtain ⟨hreplace, hdetach, hmixed⟩ := edits_comm grouped (show "a" ≠ "b" by decide)
  exact ⟨by decide, rfl, rfl, hx, hy, hreplace x y hx hy, hdetach, hmixed x hx⟩

end Test
end LoadTest

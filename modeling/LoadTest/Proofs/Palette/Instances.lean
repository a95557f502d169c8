import LoadTest.Proofs.Block.Site
import LoadTest.Proofs.Editor.Copying
import LoadTest.Proofs.Plan.Building
import Mathlib.Data.List.Nodup

/-!
Instances of a template that share no id.

A copy has the blocks of the template in the same slots, and one id was drawn for each of them
(`Template.instantiate_spec`).  So two blocks of copies can have the same id only if it was drawn
twice: if the ids of the supply differ, those of a copy do, and other copies have other ids,
whatever ids there are in the templates (`instantiate_fresh`).
-/

namespace LoadTest
namespace Supply

/-- All ids of the supply differ, and those that are still to be drawn are not in use. -/
structure FreshFor (s : Supply) (inUse : List BlockId) : Prop where
  distinct : Function.Injective s.id
  unused : ∀ k, s.used ≤ k → s.id k ∉ inUse

/-- `s'` is what has become of `s` after some more draws. -/
def Follows (s' s : Supply) : Prop :=
  ∃ n, s' = s.skip n

variable {s s' : Supply}

theorem mem_upcoming {n : Nat} {i : BlockId} :
    i ∈ s.upcoming n ↔ ∃ k < n, s.id (s.used + k) = i := by
  simp [upcoming]

theorem nodup_upcoming (h : Function.Injective s.id) (n : Nat) : (s.upcoming n).Nodup :=
  List.nodup_range.map fun _ _ hij => Nat.add_left_cancel (h hij)

/-- What is drawn later is not what was drawn before. -/
theorem Follows.disjoint_upcoming {m : Nat} (hs : s'.Follows (s.skip m))
    (h : Function.Injective s.id) (n : Nat) : List.Disjoint (s.upcoming m) (s'.upcoming n) := by
  obtain ⟨gap, rfl⟩ := hs
  intro i hfirst hlater
  obtain ⟨k, hk, rfl⟩ := mem_upcoming.mp hfirst
  obtain ⟨l, -, hl⟩ := mem_upcoming.mp hlater
  have hsame : s.used + m + gap + l = s.used + k := h hl
  omega

theorem FreshFor.disjoint_upcoming {inUse : List BlockId} (h : s.FreshFor inUse) (n : Nat) :
    List.Disjoint (s.upcoming n) inUse := by
  intro i hdrawn hused
  obtain ⟨k, -, rfl⟩ := mem_upcoming.mp hdrawn
  exact h.unused _ (Nat.le_add_right _ _) hused

end Supply

namespace Block

theorem anonymousSlot_eq_map (x : Option Block) : anonymousSlot x = x.map anonymous := by
  cases x <;> rfl

theorem bare_anonymous (b : Block) : b.anonymous.bare = b.bare.setId "" := by
  cases b <;> simp [anonymous, bare, setId]

/-- Where a path leads does not depend on the ids. -/
theorem at?_anonymous (b : Block) (path : List Slot) :
    b.anonymous.at? path = (b.at? path).map anonymous := by
  induction path generalizing b with
  | nil => rfl
  | cons s path ih =>
    rw [at?_cons, at?_cons, child?_anonymous, anonymousSlot_eq_map, Option.bind_map,
      Option.map_bind]
    exact Option.bind_congr fun c _ => ih c

/-- Trees that differ in their ids only have the same fields at the end of every path. -/
theorem fields_at?_eq {b c : Block} (h : b.anonymous = c.anonymous) (path : List Slot) :
    (b.at? path).map (fun x => x.bare.setId "") = (c.at? path).map (fun x => x.bare.setId "") := by
  have hpath := congrArg (fun x : Block => (x.at? path).map bare) h
  simpa only [at?_anonymous, Option.map_map, Function.comp_def, bare_anonymous] using hpath

end Block

namespace Template

/-- An instance is the template but for the ids of the blocks, and one id is drawn for each block.
If the ids of the supply are fresh, those of the instance differ from each other and from those of
the template, of a test, and of every instance made before or after. -/
theorem instantiate_fresh (d : Template) (s : Supply) :
    d.instantiate.run s = (d.copy s, s.skip d.block.walk.length) ∧
    (d.copy s).anonymous = d.block.anonymous ∧
    (∀ path, ((d.copy s).at? path).map (fun x => x.bare.setId "") =
      (d.block.at? path).map (fun x => x.bare.setId "")) ∧
    (d.copy s).walk.map Block.id = s.upcoming d.block.walk.length ∧
    ∀ t : Test, s.FreshFor (d.block.ids ++ t.ids) →
      (d.copy s).ids.Nodup ∧
      List.Disjoint (d.copy s).ids d.block.ids ∧
      List.Disjoint (d.copy s).ids t.ids ∧
      ∀ (d' : Template) (s' : Supply),
        s'.Follows (d.instantiate.run s).2 ∨ s.Follows (d'.instantiate.run s').2 →
          List.Disjoint (d.copy s).ids (d'.copy s').ids := by
  refine ⟨d.run_instantiate s, d.anonymous_copy s, Block.fields_at?_eq (d.anonymous_copy s),
    d.ids_copy s, fun t hfresh => ?_⟩
  have hinUse := hfresh.disjoint_upcoming d.size
  rw [← d.ids_copy s, List.disjoint_append_right] at hinUse
  obtain ⟨htemplate, htest⟩ := hinUse
  refine ⟨?_, htemplate, htest, fun d' s' hother => ?_⟩
  · rw [d.ids_copy s]
    exact Supply.nodup_upcoming hfresh.distinct d.size
  · rw [d.ids_copy s, d'.ids_copy s']
    rw [d.run_instantiate s, d'.run_instantiate s'] at hother
    rcases hother with hlater | hearlier
    · exact hlater.disjoint_upcoming hfresh.distinct d'.size
    · have hdistinct : Function.Injective s'.id := by
        obtain ⟨n, rfl⟩ := hearlier
        exact hfresh.distinct
      exact List.disjoint_symm (hearlier.disjoint_upcoming hdistinct d.size)

/-- Two requests with one id as a template, and ids of strokes for its instances: they differ, and
those of the next instance are others. -/
theorem instantiate_fresh_strokes :
    let d : Template := ⟨Test.plainRequest "x" (some (Test.plainRequest "x" none))⟩
    let s : Supply := ⟨Plan.strokes, 0⟩
    ¬ d.block.ids.Nodup ∧ s.FreshFor (d.block.ids ++ (Test.twoRequests "a" "b").ids) ∧
      (d.copy s).ids.Nodup ∧ List.Disjoint (d.copy s).ids (d.copy (s.skip 2)).ids := by
  intro d s
  have hother : (d.block.ids ++ (Test.twoRequests "a" "b").ids).all
      fun i => i.toList.any (· != '|') := by
    decide +kernel
  have hfresh : s.FreshFor (d.block.ids ++ (Test.twoRequests "a" "b").ids) := by
    refine ⟨Plan.strokes_injective, fun k _ hmem => ?_⟩
    obtain ⟨c, hc, hne⟩ := List.any_eq_true.mp (List.all_eq_true.mp hother _ hmem)
    simp only [s, Plan.strokes, String.toList_ofList] at hc
    exact bne_iff_ne.mp hne (List.eq_of_mem_replicate hc)
  obtain ⟨hrun, -, -, -, hids⟩ := instantiate_fresh d s
  obtain ⟨hnodup, -, -, hothers⟩ := hids (Test.twoRequests "a" "b") hfresh
  exact ⟨by decide, hfresh, hnodup, hothers d (s.skip 2) (.inl ⟨0, congrArg Prod.snd hrun.symm⟩)⟩

end Template
end LoadTest

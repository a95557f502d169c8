import LoadTest.Proofs.Block.Site
import LoadTest.Proofs.Editor.Change

/-!
Taking out every block with an id.

An id may be used any number of times, one use below another.  The blocks that have it are cut off
with all that is below them, and every other block stays in its slot (`detached_detach`).
-/

namespace LoadTest

open Block (bare)
open Change (only)

namespace Block

/-- The blocks that are not cut off keep their paths and their order. -/
theorem map_bare_sites_detach {i : BlockId} {b : Block} (h : b.id ≠ i) :
    (b.alter (only i none)).sites.map Site.bare = (b.outside i).map Site.bare := by
  induction b using childInduction with
  | step b ih =>
    rw [sites_eq, outside_of_id_ne h, List.map_cons, List.map_cons, kind_alter, List.map_flatMap,
      List.map_flatMap]
    refine congrArg₂ List.cons (congrArg (Site.mk []) (bare_alter _ b)) ?_
    refine List.flatMap_congr fun s _ => ?_
    rw [child?_alter]
    cases hc : b.child? s with
    | none => rfl
    | some c =>
      rw [Option.elim_some]
      by_cases hi : c.id = i
      · have hgone : alterSlot (only i none) (some c) = none :=
          alterSlot_of_replace (by rw [hi, Change.only_self])
        rw [hgone, outside_of_id_eq hi]
        rfl
      · have hslot := congrArg (List.map (Site.under s)) (ih s c hc hi)
        rw [List.map_map, List.map_map] at hslot
        rw [alterSlot_of_descend (Change.only_of_ne hi none), sitesIn, List.map_map, List.map_map]
        exact hslot

end Block

namespace Test

/-- The blocks that are in no subtree whose top has the id. -/
def outside (t : Test) (i : BlockId) : List Block :=
  t.roots.flatMap fun r => (r.block.outside i).map Block.Site.block

/-- `t'` is the test `t` without the blocks with the id and what is below them. -/
structure Detached (t : Test) (i : BlockId) (t' : Test) : Prop where
  not_mem : i ∉ t'.ids
  /-- A walk meets the other blocks, in the same order. -/
  blocks : t'.blocks.map bare = (t.outside i).map bare
  /-- The roots with other ids stay where they are, and so does every block on whose path from such
  a root no block has the id. -/
  roots : t'.roots.map (fun r => (r.position, r.block.sites.map Block.Site.bare)) =
    (t.roots.filter fun r => r.block.id ≠ i).map fun r =>
      (r.position, (r.block.outside i).map Block.Site.bare)
  library : t'.library = t.library
  again : t'.detach i = t'

theorem roots_detach (t : Test) (i : BlockId) : (t.detach i).roots =
    (t.roots.filter fun r => r.block.id ≠ i).map fun r =>
      { r with block := r.block.alter (only i none) } := by
  rw [detach_eq_alter, alter]
  induction t.roots with
  | nil => rfl
  | cons r rs ih =>
    rw [List.filterMap_cons, Root.alter?]
    by_cases h : r.block.id = i
    · rw [Block.alterSlot_of_replace (by rw [h, Change.only_self]),
        List.filter_cons_of_neg (by simpa using h)]
      exact ih
    · rw [Block.alterSlot_of_descend (Change.only_of_ne h none),
        List.filter_cons_of_pos (by simpa using h), List.map_cons]
      exact congrArg (_ :: ·) ih

theorem map_bare_blocks_detach (t : Test) (i : BlockId) :
    (t.detach i).blocks.map bare = (t.outside i).map bare := by
  rw [blocks, roots_detach, outside]
  induction t.roots with
  | nil => rfl
  | cons r rs ih =>
    rw [List.flatMap_cons, List.map_append]
    by_cases h : r.block.id = i
    · rw [List.filter_cons_of_neg (by simpa using h), Block.outside_of_id_eq h]
      exact ih
    · have hsites := congrArg (List.map Block.Site.block) (Block.map_bare_sites_detach h)
      rw [List.map_map, List.map_map] at hsites
      rw [List.filter_cons_of_pos (by simpa using h), List.map_cons, List.flatMap_cons,
        List.map_append, ih, ← Block.map_block_sites, List.map_map, List.map_map]
      exact congrArg (· ++ _) hsites

/-- Taking out what has been taken out changes nothing. -/
theorem detach_detach (t : Test) (i : BlockId) : (t.detach i).detach i = t.detach i := by
  rw [detach_eq_alter, detach_eq_alter, alter_alter, Change.only_andThen_self]
  rfl

/-- Detaching cuts off the subtrees of the blocks with the id, however often it is used, and changes
nothing else. -/
theorem detached_detach (t : Test) (i : BlockId) : t.Detached i (t.detach i) where
  not_mem := by
    intro hi
    rw [ids, ← Block.map_id_map_bare, map_bare_blocks_detach, Block.map_id_map_bare] at hi
    obtain ⟨b, hb, hid⟩ := List.mem_map.mp hi
    obtain ⟨r, -, hb⟩ := List.mem_flatMap.mp hb
    obtain ⟨x, hx, rfl⟩ := List.mem_map.mp hb
    exact Block.id_ne_of_mem_outside hx hid
  blocks := t.map_bare_blocks_detach i
  roots := by
    rw [roots_detach, List.map_map]
    refine List.map_congr_left fun r hr => ?_
    have hid : r.block.id ≠ i := by simpa using (List.mem_filter.mp hr).2
    exact congrArg (Prod.mk r.position) (Block.map_bare_sites_detach hid)
  library := by rw [detach_eq_alter, alter]
  again := t.detach_detach i

end Test
end LoadTest

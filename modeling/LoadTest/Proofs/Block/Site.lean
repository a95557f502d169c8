import LoadTest.Proofs.Block.Tree

/-!
Blocks by the slots that lead to them.

A path goes from slot to slot, from the top of a tree.  `sites` are the blocks of a walk with their
paths, and `outside` are those of them that are not cut off with the blocks of a certain id: no
block on the path has it.
-/

namespace LoadTest
namespace Block

/-- The block at the end of a path. -/
def at? : Block → List Slot → Option Block
  | b, [] => some b
  | b, s :: path => (b.child? s).bind fun c => c.at? path

/-- The blocks on a path, as far as it leads. -/
def along : Block → List Slot → List Block
  | b, [] => [b]
  | b, s :: path => b :: (b.child? s).elim [] fun c => c.along path

theorem at?_cons (b : Block) (s : Slot) (path : List Slot) :
    b.at? (s :: path) = (b.child? s).bind fun c => c.at? path := rfl

theorem mem_along_self (b : Block) (path : List Slot) : b ∈ b.along path := by
  cases path <;> exact List.mem_cons_self

/-- A path ends at a block on it. -/
theorem mem_along_of_at? {b x : Block} {path : List Slot} (h : b.at? path = some x) :
    x ∈ b.along path := by
  induction path generalizing b with
  | nil => exact Option.some.inj h ▸ List.mem_cons_self
  | cons s path ih =>
    obtain ⟨c, hc, hx⟩ := Option.bind_eq_some_iff.mp h
    rw [along, hc]
    exact List.mem_cons_of_mem _ (ih hx)

theorem mem_walk_of_at? {b x : Block} {path : List Slot} (h : b.at? path = some x) :
    x ∈ b.walk := by
  induction path generalizing b with
  | nil => exact Option.some.inj h ▸ mem_walk_self b
  | cons s path ih =>
    obtain ⟨c, hc, hx⟩ := Option.bind_eq_some_iff.mp h
    exact mem_walk_of_child? hc (ih hx)

/-! ## All blocks with their paths -/

/-- A block and the path to it. -/
structure Site where
  path : List Slot
  block : Block

namespace Site

/-- The site as it is seen from the owner of the slot that holds the tree. -/
def under (s : Slot) (x : Site) : Site :=
  ⟨s :: x.path, x.block⟩

def bare (x : Site) : Site :=
  ⟨x.path, x.block.bare⟩

end Site

mutual

/-- The blocks in the order of a walk, each with its path. -/
def sites : Block → List Site
  | b@(scenario _ _ e s) => ⟨[], b⟩ :: (sitesIn .executor e ++ sitesIn .step s)
  | b@(group _ _ s n) => ⟨[], b⟩ :: (sitesIn .step s ++ sitesIn .next n)
  | b@(request _ _ n) => ⟨[], b⟩ :: sitesIn .next n
  | b@(library _ _ n) => ⟨[], b⟩ :: sitesIn .next n
  | b@(check _ _ t n) => ⟨[], b⟩ :: (sitesIn .next n ++ sitesIn .target t)
  | b@(executor _ _) => [⟨[], b⟩]
  | b@(sleep _ _ n) => ⟨[], b⟩ :: sitesIn .next n

/-- What a slot holds, with paths that start at its owner. -/
def sitesIn (s : Slot) : Option Block → List Site
  | none => []
  | some b => b.sites.map (Site.under s)

end

theorem sites_eq (b : Block) :
    b.sites = ⟨[], b⟩ :: b.kind.slots.flatMap fun s => sitesIn s (b.child? s) := by
  cases b <;> simp [sites, kind, Kind.slots, child?]

theorem map_block_sites (b : Block) : b.sites.map Site.block = b.walk := by
  induction b using childInduction with
  | step b ih =>
    rw [sites_eq, walk_eq_slots, List.map_cons, List.map_flatMap]
    refine congrArg (b :: ·) (List.flatMap_congr fun s _ => ?_)
    cases hc : b.child? s with
    | none => rfl
    | some c =>
      rw [sitesIn, walkSlot, ← ih s c hc, List.map_map]
      rfl

/-- The sites are the blocks at the ends of paths. -/
theorem mem_sites {b : Block} {x : Site} : x ∈ b.sites ↔ b.at? x.path = some x.block := by
  induction b using childInduction generalizing x with
  | step b ih =>
    obtain ⟨path, y⟩ := x
    rw [sites_eq, List.mem_cons, List.mem_flatMap]
    cases path with
    | nil =>
      constructor
      · rintro (h | ⟨s, -, h⟩)
        · cases h
          rfl
        · cases hc : b.child? s with
          | none =>
            rw [hc] at h
            cases h
          | some c =>
            rw [hc] at h
            obtain ⟨z, -, hz⟩ := List.mem_map.mp h
            cases hz
      · intro h
        exact Or.inl (congrArg (Site.mk []) (Option.some.inj h).symm)
    | cons s path =>
      rw [at?_cons]
      constructor
      · rintro (h | ⟨s', -, h⟩)
        · cases h
        · cases hc : b.child? s' with
          | none =>
            rw [hc] at h
            cases h
          | some c =>
            rw [hc] at h
            obtain ⟨z, hz, heq⟩ := List.mem_map.mp h
            cases heq
            rw [hc]
            exact (ih s c hc).mp hz
      · intro h
        obtain ⟨c, hc, hy⟩ := Option.bind_eq_some_iff.mp h
        refine Or.inr ⟨s, List.contains_iff_mem.mp (hasSlot_of_child? hc), ?_⟩
        rw [hc]
        exact List.mem_map.mpr ⟨⟨path, y⟩, (ih s c hc).mpr hy, rfl⟩

/-! ## What is not cut off with an id -/

/-- The sites that are in no subtree whose top has the id. -/
def outside (i : BlockId) (b : Block) : List Site :=
  b.sites.filter fun x => i ∉ (b.along x.path).map id

theorem outside_of_id_eq {i : BlockId} {b : Block} (h : b.id = i) : b.outside i = [] := by
  refine List.filter_eq_nil_iff.mpr fun x _ hx => ?_
  exact of_decide_eq_true hx (List.mem_map.mpr ⟨b, mem_along_self b x.path, h⟩)

theorem outside_of_id_ne {i : BlockId} {b : Block} (h : b.id ≠ i) :
    b.outside i = ⟨[], b⟩ :: b.kind.slots.flatMap fun s =>
      (b.child? s).elim [] fun c => (c.outside i).map (Site.under s) := by
  have htop : i ∉ (b.along []).map id := by simpa [along] using Ne.symm h
  rw [outside, sites_eq, List.filter_cons_of_pos (by simpa using htop), List.filter_flatMap]
  refine congrArg (_ :: ·) (List.flatMap_congr fun s _ => ?_)
  cases hc : b.child? s with
  | none => rfl
  | some c =>
    rw [sitesIn, List.filter_map, Option.elim_some, outside]
    refine congrArg _ (List.filter_congr fun x _ => ?_)
    simp [Site.under, along, hc, h]

theorem id_ne_of_mem_outside {i : BlockId} {b : Block} {x : Site} (h : x ∈ b.outside i) :
    x.block.id ≠ i := by
  obtain ⟨hx, hout⟩ := List.mem_filter.mp h
  intro hi
  exact of_decide_eq_true hout
    (List.mem_map.mpr ⟨x.block, mem_along_of_at? (mem_sites.mp hx), hi⟩)

end Block
end LoadTest

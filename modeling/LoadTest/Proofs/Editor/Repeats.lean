import LoadTest.Proofs.Editor.Updating
import LoadTest.Proofs.Text.Bytes
import Mathlib.Data.Finset.Card
import Mathlib.Data.List.Sigma
import Mathlib.Data.List.Sort
import Mathlib.Data.String.Basic

/-!
Ids that several blocks of a test have.

Every block of a test stands at one address, so that an id is repeated if it stands at two
(`one_lt_occurrences_iff`), even where the blocks there are equal.  The ids that are listed as
duplicates are these, and they are the ids that cannot be looked up (`duplicateIds_spec`).

Listing, counting and looking up are visits of their own.  What each of them comes to is said by
`visit_tallyStep`, `visit_countStep` and `visit_searchStep`.
-/

namespace LoadTest
namespace Block

/-- No two sites have the same path. -/
theorem nodup_map_path_sites (b : Block) : (b.sites.map Site.path).Nodup := by
  induction b using childInduction with
  | step b ih =>
    -- Behind the first slot of a path stands a path of what that slot holds.
    have hslot : ∀ s, (sitesIn s (b.child? s)).map Site.path =
        ((b.child? s).elim [] fun c => c.sites.map Site.path).map (s :: ·) := by
      intro s
      cases b.child? s with
      | none => rfl
      | some c => simp [sitesIn, Function.comp_def, Site.under]
    rw [sites_eq, List.map_cons, List.map_flatMap, List.nodup_cons, List.nodup_flatMap]
    simp only [hslot]
    refine ⟨by simp, fun s _ => ?_, b.kind.nodup_slots.imp fun hne => ?_⟩
    · cases hc : b.child? s with
      | none => exact List.nodup_nil
      | some c => exact (ih s c hc).map (List.cons_injective)
    · intro path hleft hright
      obtain ⟨p, -, rfl⟩ := List.mem_map.mp hleft
      obtain ⟨q, -, hq⟩ := List.mem_map.mp hright
      exact hne (List.cons.inj hq).1.symm

end Block

/-- Where a block stands: the number of its root, and the path from there. -/
structure Address where
  root : Nat
  path : List Slot

namespace Test

/-! ## Addresses -/

/-- A block with the id stands at the address. -/
def Carries (t : Test) (a : Address) (i : BlockId) : Prop :=
  ∃ b, t.at? a.root a.path = some b ∧ b.id = i

/-- The blocks in the order of a walk, each with its address. -/
def sites (t : Test) : List (Address × Block) :=
  t.roots.zipIdx.flatMap fun r => r.1.block.sites.map fun x => (⟨r.2, x.path⟩, x.block)

variable {t : Test} {i : BlockId}

theorem map_snd_sites (t : Test) : t.sites.map Prod.snd = t.blocks := by
  have hroot : ∀ r : Root × Nat,
      (r.1.block.sites.map fun x => ((⟨r.2, x.path⟩ : Address), x.block)).map Prod.snd =
        r.1.block.walk := by
    intro r
    rw [List.map_map, ← Block.map_block_sites]
    rfl
  rw [sites, List.map_flatMap, blocks]
  simp only [hroot]
  rw [← List.flatMap_map Prod.fst fun r : Root => r.block.walk, List.zipIdx_map_fst]

theorem mem_sites {a : Address} {b : Block} :
    (a, b) ∈ t.sites ↔ t.at? a.root a.path = some b := by
  rw [sites, List.mem_flatMap, at?, Option.bind_eq_some_iff]
  constructor
  · intro h
    obtain ⟨⟨r, k⟩, hr, hmem⟩ := h
    obtain ⟨x, hx, heq⟩ := List.mem_map.mp hmem
    cases heq
    exact ⟨r, List.mem_zipIdx_iff_getElem?.mp hr, Block.mem_sites.mp hx⟩
  · intro h
    obtain ⟨r, hr, hb⟩ := h
    refine ⟨(r, a.root), List.mem_zipIdx_iff_getElem?.mpr hr, ?_⟩
    exact List.mem_map.mpr ⟨⟨a.path, b⟩, Block.mem_sites.mpr hb, rfl⟩

theorem mem_blocks_iff_at? {b : Block} :
    b ∈ t.blocks ↔ ∃ a : Address, t.at? a.root a.path = some b := by
  rw [← map_snd_sites, List.mem_map, Prod.exists]
  simp only [mem_sites, exists_eq_right]

theorem nodup_map_fst_sites (t : Test) : (t.sites.map Prod.fst).Nodup := by
  rw [sites, List.map_flatMap, List.nodup_flatMap]
  constructor
  · intro r _
    have hpaths := r.1.block.nodup_map_path_sites.map
      (f := fun path => (⟨r.2, path⟩ : Address)) fun _ _ h => (Address.mk.inj h).2
    rwa [List.map_map] at hpaths ⊢
  · refine List.Pairwise.imp ?_ (List.pairwise_map.mp (List.nodup_zipIdx_map_snd t.roots))
    intro r r' hne a ha ha'
    obtain ⟨x, hx, rfl⟩ := List.mem_map.mp ha
    obtain ⟨x', hx', heq⟩ := List.mem_map.mp ha'
    obtain ⟨y, -, rfl⟩ := List.mem_map.mp hx
    obtain ⟨y', -, rfl⟩ := List.mem_map.mp hx'
    exact hne (Address.mk.inj heq).1.symm

/-- The addresses of the blocks with the id. -/
def carriers (t : Test) (i : BlockId) : List Address :=
  (t.sites.filter fun x => x.2.id == i).map Prod.fst

theorem mem_carriers {a : Address} : a ∈ t.carriers i ↔ t.Carries a i := by
  simp [carriers, Carries, mem_sites]

theorem nodup_carriers (t : Test) (i : BlockId) : (t.carriers i).Nodup :=
  t.nodup_map_fst_sites.sublist (List.filter_sublist.map Prod.fst)

theorem length_carriers (t : Test) (i : BlockId) : (t.carriers i).length = t.occurrences i := by
  rw [carriers, List.length_map, ← List.countP_eq_length_filter, occurrences, ← t.map_snd_sites,
    List.countP_map]
  rfl

/-! ## Ids at one address and at several -/

theorem one_lt_occurrences_iff :
    1 < t.occurrences i ↔ ∃ a a', a ≠ a' ∧ t.Carries a i ∧ t.Carries a' i := by
  let s : Finset Address := ⟨(t.carriers i : Multiset Address), t.nodup_carriers i⟩
  rw [← length_carriers]
  refine (Finset.one_lt_card_iff (s := s)).trans ⟨?_, ?_⟩
  · intro h
    obtain ⟨a, a', ha, ha', hne⟩ := h
    exact ⟨a, a', hne, mem_carriers.mp ha, mem_carriers.mp ha'⟩
  · intro h
    obtain ⟨a, a', hne, ha, ha'⟩ := h
    exact ⟨a, a', mem_carriers.mpr ha, mem_carriers.mpr ha', hne⟩

/-- An id that is not repeated is at one address, if any. -/
theorem occurrences_le_one_iff :
    t.occurrences i ≤ 1 ↔ ∀ a a', t.Carries a i → t.Carries a' i → a = a' := by
  rw [← Nat.not_lt, one_lt_occurrences_iff]
  constructor
  · intro h a a' ha ha'
    by_contra hne
    exact h ⟨a, a', hne, ha, ha'⟩
  · intro h hmany
    obtain ⟨a, a', hne, ha, ha'⟩ := hmany
    exact hne (h a a' ha ha')

theorem mem_duplicateIds : i ∈ t.duplicateIds ↔ 1 < t.occurrences i := by
  rw [duplicateIds, List.mem_filter, Dict.mem_keys_ofList, decide_eq_true_eq, and_iff_right_iff_imp,
    List.map_map]
  intro h
  have hids : i ∈ t.ids := List.count_pos_iff.mp (t.occurrences_eq_count i ▸ Nat.zero_lt_of_lt h)
  exact hids

/-- Duplicates are listed in the order of their bytes. -/
theorem pairwise_duplicateIds (t : Test) :
    t.duplicateIds.Pairwise fun i j => Text.utf8 i.toList < Text.utf8 j.toList := by
  refine ((Dict.sorted_keys _).filter _).imp fun h => ?_
  exact Text.utf8_lt_utf8_iff.mpr (String.lt_iff.mp h)

/-! ## Looking up -/

/-- A lookup fails on an id that is repeated, and on no other. -/
theorem find?_eq_error_iff {f : Fault} :
    t.find? i = .error f ↔ 1 < t.occurrences i ∧ f = .sharedId i := by
  rw [find?]
  split
  · next h => simp [h]
  · next h => simp [Nat.not_le.mp h, eq_comm]

theorem occurrences_le_one_of_find?_eq_ok {x : Option Block} (h : t.find? i = .ok x) :
    t.occurrences i ≤ 1 := by
  by_contra hmany
  rw [find?_eq_error_iff.mpr ⟨Nat.not_le.mp hmany, rfl⟩] at h
  cases h

theorem find?_of_at? {a : Address} {b : Block} (hat : t.at? a.root a.path = some b)
    (h : t.occurrences b.id ≤ 1) : t.find? b.id = .ok (some b) :=
  find?_of_count_le_one (mem_blocks_iff_at?.mpr ⟨a, hat⟩) (t.occurrences_eq_count b.id ▸ h)

theorem find?_eq_none_iff : t.find? i = .ok none ↔ ∀ a, ¬ t.Carries a i := by
  constructor
  · intro h a hcarries
    obtain ⟨b, hat, rfl⟩ := hcarries
    rw [find?_of_at? hat (occurrences_le_one_of_find?_eq_ok h)] at h
    cases h
  · intro h
    refine find?_of_not_mem fun hmem => ?_
    obtain ⟨b, hb, hid⟩ := mem_ids.mp hmem
    obtain ⟨a, hat⟩ := mem_blocks_iff_at?.mp hb
    exact h a ⟨b, hat, hid⟩

/-- A lookup that succeeds gives the block at the only address that has the id. -/
theorem find?_eq_some_iff {b : Block} :
    t.find? i = .ok (some b) ↔
      ∃ a, t.at? a.root a.path = some b ∧ b.id = i ∧ ∀ a', t.Carries a' i → a' = a := by
  constructor
  · intro h
    obtain ⟨hb, hid⟩ := mem_of_find?_eq_some h
    obtain ⟨a, hat⟩ := mem_blocks_iff_at?.mp hb
    have honly := occurrences_le_one_iff.mp (occurrences_le_one_of_find?_eq_ok h)
    exact ⟨a, hat, hid, fun a' ha' => honly a' a ha' ⟨b, hat, hid⟩⟩
  · intro h
    obtain ⟨a, hat, rfl, honly⟩ := h
    refine find?_of_at? hat (occurrences_le_one_iff.mpr fun a₁ a₂ h₁ h₂ => ?_)
    rw [honly a₁ h₁, honly a₂ h₂]

/-! ## By visits -/

/-- The listing counts how often it has met each id. -/
def tallyStep (counts : Dict Nat) (b : Block) : Except Unit (Dict Nat) :=
  .ok (counts.insert b.id ((counts.get? b.id).getD 0 + 1))

/-- The check before a lookup counts how often it has met one id. -/
def countStep (i : BlockId) (n : Nat) (b : Block) : Except Unit Nat :=
  .ok (if b.id = i then n + 1 else n)

/-- The lookup stops at the first block with the id. -/
def searchStep (i : BlockId) (_ : Unit) (b : Block) : Except Block Unit :=
  if b.id = i then .error b else .ok ()

/-- The block at which a visit has stopped. -/
def stoppedAt : Except Block Unit → Option Block
  | .error b => some b
  | .ok _ => none

/-- The map has the number of the blocks with an id, for every id that one of them has. -/
def Tallied (counts : Dict Nat) (l : List Block) : Prop :=
  ∀ i, counts.get? i =
    if l.countP (·.id == i) = 0 then none else some (l.countP (·.id == i))

theorem Tallied.insert {counts : Dict Nat} {l : List Block} (h : Tallied counts l) (b : Block) :
    Tallied (counts.insert b.id ((counts.get? b.id).getD 0 + 1)) (l ++ [b]) := by
  have hold : (counts.get? b.id).getD 0 = l.countP (·.id == b.id) := by
    rw [h b.id]
    split
    · next hzero => rw [hzero, Option.getD_none]
    · rfl
  intro i
  rw [Dict.get?_insert, hold, List.countP_append, List.countP_singleton]
  by_cases hi : i = b.id
  · simp [hi]
  · simp [hi, Ne.symm hi, h i]

theorem foldlM_tallyStep {counts : Dict Nat} {l : List Block} (h : Tallied counts l)
    (l' : List Block) : ∃ counts', l'.foldlM tallyStep counts = .ok counts' ∧
      Tallied counts' (l ++ l') := by
  induction l' generalizing counts l with
  | nil => exact ⟨counts, rfl, l.append_nil.symm ▸ h⟩
  | cons b l' ih =>
    obtain ⟨counts', hrun, htallied⟩ := ih (h.insert b)
    rw [List.append_assoc, List.singleton_append] at htallied
    exact ⟨counts', hrun, htallied⟩

theorem visit_tallyStep (t : Test) :
    ∃ counts, t.visit tallyStep Dict.empty = .ok counts ∧ Tallied counts t.blocks := by
  rw [visit_eq_foldlM]
  exact foldlM_tallyStep (l := []) (fun _ => rfl) t.blocks

/-- The duplicates are what is left of the tally when the ids that were met once are dropped. -/
theorem duplicateIds_eq_of_tallied {counts : Dict Nat} (h : Tallied counts t.blocks) :
    t.duplicateIds = (counts.entries.filter fun e => 1 < e.2).map Prod.fst := by
  have hsorted : ((counts.entries.filter fun e => 1 < e.2).map Prod.fst).Pairwise (· < ·) :=
    counts.sorted_keys.sublist (List.filter_sublist.map Prod.fst)
  refine ((Dict.sorted_keys _).filter _).eq_of_mem_iff hsorted fun i => ?_
  rw [← duplicateIds, mem_duplicateIds, List.mem_map]
  constructor
  · intro hmany
    have hget : counts.get? i = some (t.occurrences i) :=
      (h i).trans (if_neg (Nat.ne_zero_of_lt hmany))
    refine ⟨(i, t.occurrences i), List.mem_filter.mpr ⟨Dict.mem_entries_iff.mpr hget, ?_⟩, rfl⟩
    exact decide_eq_true hmany
  · intro hleft
    obtain ⟨⟨j, n⟩, hmem, rfl⟩ := hleft
    obtain ⟨hentry, hmany⟩ := List.mem_filter.mp hmem
    have hget := Dict.mem_entries_iff.mp hentry
    rw [h j] at hget
    split at hget
    · cases hget
    · rw [occurrences, Option.some.inj hget]
      exact of_decide_eq_true hmany

theorem foldlM_countStep (i : BlockId) (l : List Block) (n : Nat) :
    l.foldlM (countStep i) n = .ok (n + l.countP (·.id == i)) := by
  induction l generalizing n with
  | nil => rfl
  | cons b l ih =>
    rw [List.foldlM_cons, countStep, List.countP_cons]
    refine (ih _).trans ?_
    by_cases hb : b.id = i
    · simp [hb, Nat.add_assoc, Nat.add_comm]
    · simp [hb]

theorem visit_countStep (t : Test) (i : BlockId) :
    t.visit (countStep i) 0 = .ok (t.occurrences i) := by
  rw [visit_eq_foldlM, foldlM_countStep, Nat.zero_add, occurrences]

theorem stoppedAt_visit_searchStep (t : Test) (i : BlockId) :
    stoppedAt (t.visit (searchStep i) ()) = t.blocks.find? (·.id == i) := by
  rw [visit_eq_foldlM]
  induction t.blocks with
  | nil => rfl
  | cons b l ih =>
    rw [List.foldlM_cons, searchStep, List.find?_cons]
    by_cases hb : b.id = i
    · simp only [hb, if_true, beq_self_eq_true]
      rfl
    · simp only [hb, if_false, beq_eq_false_iff_ne.mpr hb]
      exact ih

theorem exists_visits_of_find? (t : Test) (i : BlockId) :
    ∃ n, t.visit (countStep i) 0 = .ok n ∧ t.find? i =
      if n ≤ 1 then .ok (stoppedAt (t.visit (searchStep i) ())) else .error (.sharedId i) :=
  ⟨t.occurrences i, t.visit_countStep i, by rw [stoppedAt_visit_searchStep, find?]⟩

/-- The duplicates are the ids at two or more addresses, in the order of their bytes.  A lookup
faults on these and on no others; it gives the block at the one address that has the id, or nothing
if there is none.  All of it agrees with what the three visits come to. -/
theorem duplicateIds_spec (t : Test) :
    (t.duplicateIds.Pairwise fun i j => Text.utf8 i.toList < Text.utf8 j.toList) ∧
    (∃ counts, t.visit tallyStep Dict.empty = .ok counts ∧
      t.duplicateIds = (counts.entries.filter fun e => 1 < e.2).map Prod.fst) ∧
    ∀ i, (i ∈ t.duplicateIds ↔ ∃ a a', a ≠ a' ∧ t.Carries a i ∧ t.Carries a' i) ∧
      (∃ n, t.visit (countStep i) 0 = .ok n ∧ t.find? i =
        if n ≤ 1 then .ok (stoppedAt (t.visit (searchStep i) ())) else .error (.sharedId i)) ∧
      (∀ f, t.find? i = .error f ↔ i ∈ t.duplicateIds ∧ f = .sharedId i) ∧
      (∀ b, t.find? i = .ok (some b) ↔
        ∃ a, t.at? a.root a.path = some b ∧ b.id = i ∧ ∀ a', t.Carries a' i → a' = a) ∧
      (t.find? i = .ok none ↔ ∀ a, ¬ t.Carries a i) := by
  obtain ⟨counts, hvisit, htallied⟩ := t.visit_tallyStep
  refine ⟨t.pairwise_duplicateIds, ⟨counts, hvisit, duplicateIds_eq_of_tallied htallied⟩,
    fun i => ⟨?_, t.exists_visits_of_find? i, fun f => ?_, fun b => find?_eq_some_iff,
      find?_eq_none_iff⟩⟩
  · rw [mem_duplicateIds, one_lt_occurrences_iff]
  · rw [mem_duplicateIds, find?_eq_error_iff]

/-- Two roots may be equal in everything. -/
example : (⟨Library.empty, List.replicate 2 ⟨⟨0, 0⟩, .newGroup "x" ""⟩⟩ : Test).duplicateIds =
    ["x"] := by
  decide +kernel

end Test
end LoadTest

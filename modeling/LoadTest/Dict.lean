/-!
Maps from texts, kept as a list in strictly increasing order of the keys.

The order is part of the value: two maps with the same entries are equal (`Dict.ext`), and
everything that writes a map writes its entries in this order.
-/

namespace LoadTest

/-- Entries in strictly increasing order of their keys. -/
structure Dict (α : Type) where
  entries : List (String × α)
  sorted : entries.Pairwise fun a b => a.1 < b.1

namespace Dict

variable {α β : Type}

@[ext] theorem ext {a b : Dict α} (h : a.entries = b.entries) : a = b := by
  cases a
  cases b
  simp_all

def empty : Dict α := ⟨[], .nil⟩

instance : Inhabited (Dict α) := ⟨empty⟩

instance : EmptyCollection (Dict α) := ⟨empty⟩

instance [DecidableEq α] : DecidableEq (Dict α) := fun a b =>
  decidable_of_iff (a.entries = b.entries) ⟨ext, fun h => h ▸ rfl⟩

/-! ## Entering a key -/

/-- Put `v` at the key `k` of an ordered list, over the value that was there. -/
def enter (k : String) (v : α) : List (String × α) → List (String × α)
  | [] => [(k, v)]
  | e :: r =>
    if k < e.1 then (k, v) :: e :: r
    else if k = e.1 then (k, v) :: r
    else e :: enter k v r

theorem lt_of_not_lt_of_ne {a b : String} (h : ¬a < b) (hne : a ≠ b) : b < a := by
  by_cases hba : b < a
  · exact hba
  · exact absurd (String.le_antisymm (String.not_lt.1 hba) (String.not_lt.1 h)) hne

theorem mem_enter {k : String} {v : α} {l : List (String × α)} {x : String × α}
    (h : x ∈ enter k v l) : x = (k, v) ∨ x ∈ l := by
  induction l with
  | nil => simp_all [enter]
  | cons e r ih => grind [enter]

theorem enter_sorted (k : String) (v : α) {l : List (String × α)}
    (h : l.Pairwise fun a b => a.1 < b.1) :
    (enter k v l).Pairwise fun a b => a.1 < b.1 := by
  induction l with
  | nil => simp [enter]
  | cons e r ih =>
    obtain ⟨he, hr⟩ := List.pairwise_cons.1 h
    simp only [enter]
    split
    · next hk =>
      refine List.pairwise_cons.2 ⟨?_, h⟩
      intro x hx
      rcases List.mem_cons.1 hx with rfl | hx
      · exact hk
      · exact String.lt_trans hk (he x hx)
    · next hk =>
      split
      · next heq => exact List.pairwise_cons.2 ⟨fun x hx => heq ▸ he x hx, hr⟩
      · next hne =>
        refine List.pairwise_cons.2 ⟨?_, ih hr⟩
        intro x hx
        rcases mem_enter hx with rfl | hx
        · exact lt_of_not_lt_of_ne hk hne
        · exact he x hx

def insert (d : Dict α) (k : String) (v : α) : Dict α :=
  ⟨enter k v d.entries, enter_sorted k v d.sorted⟩

/-- The map of a list of entries; of two with one key the later one stays. -/
def ofList (l : List (String × α)) : Dict α :=
  l.foldl (fun d e => d.insert e.1 e.2) empty

/-- `d` with the entries of `l` put over it, one after the other. -/
def extend (d : Dict α) (l : List (String × α)) : Dict α :=
  l.foldl (fun d e => d.insert e.1 e.2) d

def get? (d : Dict α) (k : String) : Option α :=
  d.entries.lookup k

def keys (d : Dict α) : List String :=
  d.entries.map Prod.fst

@[simp] theorem entries_empty : (empty : Dict α).entries = [] := rfl

@[simp] theorem entries_insert (d : Dict α) (k : String) (v : α) :
    (d.insert k v).entries = enter k v d.entries := rfl

@[simp] theorem ofList_nil : ofList ([] : List (String × α)) = empty := rfl

theorem extend_empty (l : List (String × α)) : empty.extend l = ofList l := rfl

theorem sorted_keys (d : Dict α) : d.keys.Pairwise (· < ·) :=
  List.pairwise_map.2 d.sorted

/-! ## Entries as a list and back -/

/-- A key above all others goes to the end. -/
theorem enter_eq_append {k : String} {v : α} {l : List (String × α)}
    (h : ∀ e ∈ l, e.1 < k) : enter k v l = l ++ [(k, v)] := by
  induction l with
  | nil => rfl
  | cons e r ih =>
    have he : e.1 < k := h e (by simp)
    have hk : ¬k < e.1 := String.lt_asymm he
    have hne : k ≠ e.1 := fun heq => String.lt_irrefl _ (heq ▸ he)
    simp [enter, hk, hne, ih fun x hx => h x (by simp [hx])]

theorem entries_extend {d : Dict α} {l : List (String × α)}
    (h : (d.entries ++ l).Pairwise fun a b => a.1 < b.1) :
    (d.extend l).entries = d.entries ++ l := by
  induction l generalizing d with
  | nil => simp [extend]
  | cons e l ih =>
    have hd : (d.insert e.1 e.2).entries = d.entries ++ [e] := by
      rw [entries_insert, enter_eq_append]
      exact fun x hx => (List.pairwise_append.1 h).2.2 x hx e (by simp)
    have hl := ih (d := d.insert e.1 e.2) (by rw [hd]; simpa using h)
    rw [hd] at hl
    simpa [extend] using hl

/-- Reading the entries of a map gives the map. -/
@[simp] theorem ofList_entries (d : Dict α) : ofList d.entries = d := by
  apply ext
  rw [← extend_empty, entries_extend]
  · simp
  · simpa using d.sorted

theorem mem_of_mem_extend {d : Dict α} {l : List (String × α)} {x : String × α}
    (h : x ∈ (d.extend l).entries) : x ∈ d.entries ∨ x ∈ l := by
  induction l generalizing d with
  | nil => exact .inl h
  | cons e l ih =>
    rcases ih (d := d.insert e.1 e.2) h with h | h
    · rcases mem_enter h with rfl | h
      · simp
      · exact .inl h
    · exact .inr (List.mem_cons_of_mem _ h)

theorem mem_of_mem_ofList {l : List (String × α)} {x : String × α}
    (h : x ∈ (ofList l).entries) : x ∈ l := by
  rw [← extend_empty] at h
  simpa using mem_of_mem_extend h

/-! ## Looking a key up -/

theorem lookup_enter (k k' : String) (v : α) (l : List (String × α)) :
    (enter k v l).lookup k' = if k' = k then some v else l.lookup k' := by
  induction l with
  | nil => grind [enter]
  | cons e r ih => grind [enter]

theorem get?_insert (d : Dict α) (k k' : String) (v : α) :
    (d.insert k v).get? k' = if k' = k then some v else d.get? k' :=
  lookup_enter k k' v d.entries

@[simp] theorem get?_empty (k : String) : (empty : Dict α).get? k = none := rfl

/-- A key has one value only. -/
theorem mem_entries_iff {d : Dict α} {k : String} {v : α} :
    (k, v) ∈ d.entries ↔ d.get? k = some v := by
  rw [get?, List.lookup_eq_some_iff]
  constructor
  · intro h
    obtain ⟨before, after, hsplit⟩ := List.append_of_mem h
    have hsorted := d.sorted
    rw [hsplit, List.pairwise_append] at hsorted
    refine ⟨before, after, hsplit, fun e he => bne_iff_ne.mpr ?_⟩
    exact (String.ne_of_lt (hsorted.2.2 e he (k, v) List.mem_cons_self)).symm
  · rintro ⟨before, after, hsplit, -⟩
    rw [hsplit]
    exact List.mem_append_right before List.mem_cons_self

theorem get?_extend (d : Dict α) (l : List (String × α)) (k : String) :
    (d.extend l).get? k = (l.reverse.lookup k).or (d.get? k) := by
  induction l generalizing d with
  | nil => rfl
  | cons e l ih =>
    have hlast : [e].lookup k = if k = e.1 then some e.2 else none := by
      rw [List.lookup_cons, List.lookup_nil]
      grind
    show ((d.insert e.1 e.2).extend l).get? k = _
    rw [ih, get?_insert, List.reverse_cons, List.lookup_append, hlast, Option.or_assoc]
    split <;> rfl

/-- Of the entries with one key the last one stays. -/
theorem mem_ofList_iff {l : List (String × α)} {k : String} {v : α} :
    (k, v) ∈ (ofList l).entries ↔
      ∃ before after, l = before ++ (k, v) :: after ∧ ∀ e ∈ after, e.1 ≠ k := by
  rw [mem_entries_iff, ← extend_empty, get?_extend, get?_empty, Option.or_none,
    List.lookup_eq_some_iff]
  constructor
  · rintro ⟨after, before, hsplit, hafter⟩
    refine ⟨before.reverse, after.reverse, ?_, fun e he => ?_⟩
    · rw [← l.reverse_reverse, hsplit]
      simp
    · exact (bne_iff_ne.mp (hafter e (List.mem_reverse.mp he))).symm
  · rintro ⟨before, after, rfl, hafter⟩
    refine ⟨after.reverse, before.reverse, by simp, fun e he => ?_⟩
    exact bne_iff_ne.mpr (hafter e (List.mem_reverse.mp he)).symm

/-- A key is one that has a value. -/
theorem mem_keys_iff {d : Dict α} {k : String} : k ∈ d.keys ↔ ∃ v, d.get? k = some v := by
  simp only [keys, List.mem_map, Prod.exists, exists_and_right, exists_eq_right, mem_entries_iff]

theorem mem_keys_ofList {l : List (String × α)} {k : String} :
    k ∈ (ofList l).keys ↔ k ∈ l.map Prod.fst := by
  rw [mem_keys_iff, List.mem_map]
  constructor
  · rintro ⟨v, hv⟩
    exact ⟨(k, v), mem_of_mem_ofList (mem_entries_iff.mpr hv), rfl⟩
  · rintro ⟨e, he, rfl⟩
    refine Option.isSome_iff_exists.mp (Option.isSome_iff_ne_none.mpr fun hnone => ?_)
    rw [← extend_empty, get?_extend, get?_empty, Option.or_none, List.lookup_eq_none_iff] at hnone
    exact bne_iff_ne.mp (hnone e (List.mem_reverse.mpr he)) rfl

end Dict
end LoadTest

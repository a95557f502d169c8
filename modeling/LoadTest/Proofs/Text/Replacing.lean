import LoadTest.Text.Search
import Mathlib.Data.List.Infix

/-!
What replacing leaves of a text and what it brings in.

A text is cut into the pieces between the occurrences that are replaced (`exists_pieces`), and the
pieces are what stays.  A word that is in none of them shares letters with the value
(`infix_replace`), or lies across the place where an empty one was put.
-/

namespace LoadTest
namespace Text

/-! ## Occurrences -/

theorem occurs_iff {pat s : List Char} : occurs pat s = true ↔ pat <:+: s := by
  induction s with
  | nil =>
    rw [occurs, cut?, List.infix_nil]
    split <;> simp_all
  | cons c s ih =>
    rw [List.infix_cons_iff, ← ih, occurs, cut?]
    cases hmatch : pat.isPrefixOf? (c :: s) with
    | some rest =>
      have happend := append_of_isPrefixOf? hmatch
      simp [happend]
    | none =>
      have hno : ¬ pat <+: c :: s := by
        rintro ⟨rest, hrest⟩
        rw [List.isPrefixOf?_eq_some_iff_append_eq.mpr hrest] at hmatch
        cases hmatch
      simp [hno, occurs]

/-- An occurrence in an append is in one of the two parts, or it starts in one and ends in the
other. -/
theorem infix_append_cases {w a b : List Char} (h : w <:+: a ++ b) :
    w <:+: a ∨ w <:+: b ∨ ∃ x y, w = x ++ y ∧ x ≠ [] ∧ y ≠ [] ∧ x <:+ a ∧ y <+: b := by
  obtain ⟨before, after, happend⟩ := h
  rcases List.append_eq_append_iff.mp happend with ⟨r, rfl, -⟩ | ⟨y, hy, rfl⟩
  · exact .inl ⟨before, r, rfl⟩
  · rcases List.append_eq_append_iff.mp hy with ⟨x, rfl, rfl⟩ | ⟨r, -, rfl⟩
    · by_cases hx : x = []
      · exact .inr (.inl ⟨[], after, by simp [hx]⟩)
      · by_cases hy : y = []
        · exact .inl ⟨before, [], by simp [hy]⟩
        · exact .inr (.inr ⟨x, y, rfl, hx, hy, List.suffix_append _ _, List.prefix_append _ _⟩)
    · exact .inr (.inl ⟨r, after, by simp⟩)

/-- A text without the letters at the two ends can only occur between them. -/
theorem infix_of_not_mem {c d : Char} {s m : List Char} (h : s <:+: c :: (m ++ [d])) (hc : c ∉ s)
    (hd : d ∉ s) : s <:+: m := by
  have hinit : s <:+: m ++ [d] := by
    rcases List.infix_cons_iff.mp h with hstart | hinfix
    · cases s with
      | nil => exact List.nil_infix
      | cons c' s =>
        rw [(List.cons_prefix_cons.mp hstart).1] at hc
        exact absurd List.mem_cons_self hc
    · exact hinfix
  rcases List.infix_concat_iff.mp hinit with hend | hinfix
  · rcases List.suffix_concat_iff.mp hend with rfl | ⟨t, rfl, -⟩
    · exact List.nil_infix
    · exact absurd (List.mem_append_right t List.mem_cons_self) hd
  · exact hinfix

/-- Two texts that can share letters where both occur: one lies in the other, or one starts before
the other ends. -/
def Meets (a b : List Char) : Prop :=
  a <:+: b ∨ b <:+: a ∨ (∃ x, x ≠ [] ∧ x <:+ a ∧ x <+: b) ∨ ∃ x, x ≠ [] ∧ x <+: a ∧ x <:+ b

/-! ## Pieces -/

/-- The text that a list of pieces makes with `value` between them. -/
def joined (value first : List Char) (rest : List (List Char)) : List Char :=
  first ++ rest.flatMap (value ++ ·)

theorem joined_cons (value first p : List Char) (rest : List (List Char)) :
    joined value first (p :: rest) = first ++ (value ++ joined value p rest) := by
  rw [joined, joined, List.flatMap_cons, List.append_assoc]

theorem piece_infix_joined (value first : List Char) (rest : List (List Char)) :
    ∀ p ∈ first :: rest, p <:+: joined value first rest := by
  induction rest generalizing first with
  | nil => simp [joined]
  | cons q rest ih =>
    rw [joined_cons]
    refine List.forall_mem_cons.mpr ⟨(List.prefix_append first _).isInfix, fun p hp => ?_⟩
    have hbehind : joined value q rest <:+ first ++ (value ++ joined value q rest) :=
      (List.suffix_append value _).trans (List.suffix_append first _)
    exact (ih q p hp).trans hbehind.isInfix

/-- Replacing keeps the pieces between the occurrences, and none of them has one. -/
theorem exists_pieces {pat : List Char} (hpat : pat ≠ []) (value s : List Char) :
    ∃ first rest, s = joined pat first rest ∧ replace pat value s = joined value first rest ∧
      ∀ p ∈ first :: rest, ¬ pat <:+: p := by
  fun_induction replace pat value s with
  | case1 => exact ⟨[], [], rfl, rfl, by simpa using hpat⟩
  | case2 c s hmatch ih =>
    obtain ⟨first, rest, hs, hreplace, hnone⟩ := ih
    obtain ⟨after, hafter⟩ := List.isPrefixOf_iff_prefix.mp hmatch
    have hdrop : s.drop (pat.length - 1) = after := by
      cases pat with
      | nil => exact absurd rfl hpat
      | cons d pat =>
        rw [← (List.cons.inj hafter).2]
        exact List.drop_left
    refine ⟨[], first :: rest, ?_, ?_, ?_⟩
    · rw [joined_cons, List.nil_append, ← hs, hdrop, hafter]
    · rw [joined_cons, List.nil_append, hreplace]
    · refine List.forall_mem_cons.mpr ⟨?_, hnone⟩
      rwa [List.infix_nil]
  | case3 c s hmatch ih =>
    obtain ⟨first, rest, hs, hreplace, hnone⟩ := ih
    obtain ⟨hfirst, hrest⟩ := List.forall_mem_cons.mp hnone
    refine ⟨c :: first, rest, ?_, ?_, List.forall_mem_cons.mpr ⟨?_, hrest⟩⟩
    · rw [joined, List.cons_append, ← joined, ← hs]
    · rw [joined, List.cons_append, ← joined, ← hreplace]
    · rw [List.infix_cons_iff, not_or]
      refine ⟨fun hstart => hmatch (List.isPrefixOf_iff_prefix.mpr ?_), hfirst⟩
      -- The piece starts the text, so the occurrence would be at its start too.
      rw [hs]
      exact hstart.trans (List.prefix_append (c :: first) _)

/-- A word that does not meet the value is in one of the pieces. -/
theorem infix_joined {w value first : List Char} {rest : List (List Char)}
    (h : w <:+: joined value first rest) (hmeets : ¬ Meets value w) :
    ∃ p ∈ first :: rest, w <:+: p := by
  induction rest generalizing first with
  | nil => exact ⟨first, List.mem_cons_self, by simpa [joined] using h⟩
  | cons q rest ih =>
    rw [joined_cons] at h
    rcases infix_append_cases h with hfirst | hbehind | ⟨x, y, rfl, -, hy, -, hvalue⟩
    · exact ⟨first, List.mem_cons_self, hfirst⟩
    · rcases infix_append_cases hbehind with hvalue | hrest | ⟨x, y, rfl, hx, -, hvalue, -⟩
      · exact absurd (.inr (.inl hvalue)) hmeets
      · obtain ⟨p, hp, hinfix⟩ := ih hrest
        exact ⟨p, List.mem_cons_of_mem _ hp, hinfix⟩
      · exact absurd (.inr (.inr (.inl ⟨x, hx, hvalue, List.prefix_append x y⟩))) hmeets
    · refine absurd ?_ hmeets
      rcases List.prefix_or_prefix_of_prefix hvalue (List.prefix_append _ _) with hends | hinside
      · exact .inr (.inr (.inr ⟨y, hy, hends, List.suffix_append x y⟩))
      · exact .inl (hinside.isInfix.trans (List.suffix_append x y).isInfix)

/-! ## One pattern replaced -/

theorem replace_cons_of_not_prefix {pat : List Char} {c : Char} {s : List Char}
    (h : ¬ pat <+: c :: s) (value : List Char) :
    replace pat value (c :: s) = c :: replace pat value s := by
  rw [replace, if_neg (mt List.isPrefixOf_iff_prefix.mp h)]

theorem replace_append {pat : List Char} (hpat : pat ≠ []) (value s : List Char) :
    replace pat value (pat ++ s) = value ++ replace pat value s := by
  obtain ⟨c, rest, rfl⟩ := List.exists_cons_of_ne_nil hpat
  have hstart : (c :: rest).isPrefixOf (c :: (rest ++ s)) = true :=
    List.isPrefixOf_iff_prefix.mpr (List.prefix_append (c :: rest) s)
  rw [List.cons_append, replace, if_pos hstart, List.length_cons, Nat.add_sub_cancel,
    List.drop_left]

theorem replace_of_not_occurs {pat s : List Char} (h : ¬ pat <:+: s) (value : List Char) :
    replace pat value s = s := by
  have hpat : pat ≠ [] := fun hnil => h (hnil ▸ List.nil_infix)
  obtain ⟨first, rest, hs, hreplace, -⟩ := exists_pieces hpat value s
  cases rest with
  | nil => rw [hreplace, hs, joined, joined, List.flatMap_nil, List.flatMap_nil]
  | cons p rest =>
    rw [hs, joined_cons] at h
    exact absurd ⟨first, _, List.append_assoc _ _ _⟩ h

/-- A word in the new text was in the old one and does not hold the pattern, or the pattern was
there and the word meets the value. -/
theorem infix_replace {w pat value s : List Char} (hpat : pat ≠ [])
    (h : w <:+: replace pat value s) :
    (w <:+: s ∧ ¬ pat <:+: w) ∨ (pat <:+: s ∧ Meets value w) := by
  by_cases hoccurs : pat <:+: s
  · by_cases hmeets : Meets value w
    · exact .inr ⟨hoccurs, hmeets⟩
    · obtain ⟨first, rest, hs, hreplace, hnone⟩ := exists_pieces hpat value s
      obtain ⟨p, hp, hw⟩ := infix_joined (hreplace ▸ h) hmeets
      refine .inl ⟨hs ▸ hw.trans (piece_infix_joined pat first rest p hp), fun hinside => ?_⟩
      exact hnone p hp (hinside.trans hw)
  · rw [replace_of_not_occurs hoccurs] at h
    exact .inl ⟨h, fun hinside => hoccurs (hinside.trans h)⟩

/-- A word that does not meet the pattern stays. -/
theorem infix_replace_of_not_meets {w pat s : List Char} (hpat : pat ≠ []) (hmeets : ¬ Meets pat w)
    (h : w <:+: s) (value : List Char) : w <:+: replace pat value s := by
  obtain ⟨first, rest, hs, hreplace, -⟩ := exists_pieces hpat value s
  obtain ⟨p, hp, hw⟩ := infix_joined (hs ▸ h) hmeets
  rw [hreplace]
  exact hw.trans (piece_infix_joined value first rest p hp)

/-- Every piece behind the first one has the value in front of it. -/
theorem length_joined (value first : List Char) (rest : List (List Char)) :
    (joined value first rest).length =
      (joined [] first rest).length + rest.length * value.length := by
  induction rest generalizing first with
  | nil => simp [joined]
  | cons p rest ih =>
    rw [joined_cons, joined_cons, List.length_append, List.length_append, ih, List.length_append,
      List.nil_append, List.length_cons, Nat.succ_mul]
    omega

/-- Between the same pieces, different values make different texts. -/
theorem joined_injective {a b first : List Char} {rest : List (List Char)} (hrest : rest ≠ [])
    (h : joined a first rest = joined b first rest) : a = b := by
  obtain ⟨p, rest, rfl⟩ := List.exists_cons_of_ne_nil hrest
  have hlength := congrArg List.length h
  rw [length_joined a, length_joined b, Nat.add_left_cancel_iff] at hlength
  have hsame := Nat.eq_of_mul_eq_mul_left (Nat.succ_pos rest.length) hlength
  rw [joined_cons, joined_cons] at h
  exact (List.append_inj (List.append_cancel_left h) hsame).1

/-- A text stays as it is exactly if the pattern is not there, or becomes itself. -/
theorem replace_eq_self_iff {pat value s : List Char} (hpat : pat ≠ []) (hvalue : value ≠ pat) :
    replace pat value s = s ↔ ¬ pat <:+: s := by
  refine ⟨fun h hoccurs => ?_, fun h => replace_of_not_occurs h value⟩
  obtain ⟨first, rest, hs, hreplace, hnone⟩ := exists_pieces hpat value s
  have hrest : rest ≠ [] := by
    rintro rfl
    rw [hs, joined, List.flatMap_nil, List.append_nil] at hoccurs
    exact hnone first List.mem_cons_self hoccurs
  exact hvalue (joined_injective hrest (hreplace.symm.trans (h.trans hs)))

end Text
end LoadTest

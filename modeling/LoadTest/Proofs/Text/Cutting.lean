import LoadTest.Proofs.Text.Replacing

/-!
Where a text is cut: at the first occurrence of the pattern (`cut?_eq_some_iff`).

That an occurrence is the first one is said of the text before it: there is none in that text with
all but the last letter of the pattern behind it.
-/

namespace LoadTest
namespace Text

theorem cut?_eq_none_iff {pat s : List Char} : cut? pat s = none ↔ ¬ pat <:+: s := by
  rw [← occurs_iff, occurs, Bool.not_eq_true, Option.isSome_eq_false_iff, Option.isNone_iff_eq_none]

/-- A pattern does not fit where only a part of it is. -/
theorem not_infix_dropLast {pat : List Char} (hpat : pat ≠ []) : ¬ pat <:+: pat.dropLast := by
  intro h
  have hlength := h.length_le
  have hpos := List.length_pos_iff.mpr hpat
  rw [List.length_dropLast] at hlength
  omega

theorem prefix_of_occurrence (pat before after : List Char) :
    before ++ pat.dropLast <+: before ++ pat ++ after := by
  rw [List.append_assoc]
  exact (List.prefix_append_right_inj before).mpr
    ((List.dropLast_prefix pat).trans (List.prefix_append pat after))

/-- There is no occurrence in front of the one at which a text is cut. -/
theorem not_infix_of_cut? {pat : List Char} (hpat : pat ≠ []) {s before after : List Char}
    (h : cut? pat s = some (before, after)) : ¬ pat <:+: before ++ pat.dropLast := by
  induction s generalizing before with
  | nil =>
    rw [cut?, if_neg hpat] at h
    cases h
  | cons c s ih =>
    have happend := append_of_cut? h
    rw [cut?] at h
    cases hmatch : pat.isPrefixOf? (c :: s) with
    | some rest =>
      rw [hmatch] at h
      cases h
      exact not_infix_dropLast hpat
    | none =>
      rw [hmatch] at h
      obtain ⟨⟨a, b⟩, hcut, heq⟩ := Option.map_eq_some_iff.mp h
      cases heq
      rw [List.cons_append, List.infix_cons_iff, not_or]
      refine ⟨fun hstart => ?_, ih hcut⟩
      have hall := prefix_of_occurrence pat (c :: a) after
      rw [← happend] at hall
      obtain ⟨rest, hrest⟩ := hstart.trans hall
      rw [List.isPrefixOf?_eq_some_iff_append_eq.mpr hrest] at hmatch
      cases hmatch

/-- Of two occurrences of a pattern the one that starts first ends in front of the end of the
other. -/
theorem infix_of_length_lt {pat b₁ a₁ b₂ a₂ : List Char} (h : b₁ ++ pat ++ a₁ = b₂ ++ pat ++ a₂)
    (hlt : b₁.length < b₂.length) : pat <:+: b₂ ++ pat.dropLast := by
  have hshort : b₁ ++ pat <+: b₂ ++ pat ++ a₂ := ⟨a₁, h⟩
  have hlength : (b₁ ++ pat).length ≤ (b₂ ++ pat.dropLast).length := by
    rw [List.length_append, List.length_append, List.length_dropLast]
    omega
  have hprefix := List.prefix_of_prefix_length_le hshort (prefix_of_occurrence pat b₂ a₂) hlength
  exact (List.suffix_append b₁ pat).isInfix.trans hprefix.isInfix

/-- A text is cut at the first occurrence of the pattern. -/
theorem cut?_eq_some_iff {pat : List Char} (hpat : pat ≠ []) {s before after : List Char} :
    cut? pat s = some (before, after) ↔
      s = before ++ pat ++ after ∧ ¬ pat <:+: before ++ pat.dropLast := by
  refine ⟨fun h => ⟨append_of_cut? h, not_infix_of_cut? hpat h⟩, fun ⟨happend, hfirst⟩ => ?_⟩
  cases hcut : cut? pat s with
  | none => exact absurd ⟨before, after, happend.symm⟩ (cut?_eq_none_iff.mp hcut)
  | some ba =>
    obtain ⟨b, a⟩ := ba
    have heq : b ++ pat ++ a = before ++ pat ++ after := (append_of_cut? hcut).symm.trans happend
    have hb := not_infix_of_cut? hpat hcut
    have hlength : b.length = before.length := by
      rcases Nat.lt_trichotomy b.length before.length with hlt | hsame | hgt
      · exact absurd (infix_of_length_lt heq hlt) hfirst
      · exact hsame
      · exact absurd (infix_of_length_lt heq.symm hgt) hb
    rw [List.append_assoc, List.append_assoc] at heq
    obtain ⟨rfl, hrest⟩ := List.append_inj heq hlength
    rw [List.append_cancel_left hrest]

end Text
end LoadTest

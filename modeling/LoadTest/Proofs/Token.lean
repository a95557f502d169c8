import LoadTest.Proofs.Text.Replacing
import LoadTest.Token
import Mathlib.Data.List.Count

/-!
Tokens in a text: the names that are read stand there as tokens, and the tokens of two names without
braces share no letters.
-/

namespace LoadTest
namespace Token

open Text (Meets)

/-! ## Tokens in a text -/

theorem written_ne_nil (name : List Char) : written name ≠ [] :=
  List.cons_ne_nil _ _

theorem opening_infix_written (name : List Char) : opening <:+: written name :=
  ⟨[], name ++ closing, by simp [written]⟩

/-- A name that is read from a text stands in it as a token. -/
theorem written_infix_of_mem_names {name s : List Char} (h : name ∈ names s) :
    written name <:+: s := by
  have hbehind {s before after found rest : List Char}
      (houter : Text.cut? opening s = some (before, after))
      (hinner : Text.cut? closing after = some (found, rest)) :
      s = before ++ written found ++ rest := by
    rw [Text.append_of_cut? houter, Text.append_of_cut? hinner]
    simp only [written, List.append_assoc]
  fun_induction names s with
  | case1 s => cases h
  | case2 s => cases h
  | case3 s before after houter found rest hinner hname ih =>
    rw [hbehind houter hinner]
    rcases List.mem_cons.mp h with heq | hrest
    · rw [heq]
      exact List.infix_append before _ rest
    · exact (ih hrest).trans (List.suffix_append _ rest).isInfix
  | case4 s before after houter found rest hinner hname ih =>
    rw [hbehind houter hinner]
    exact (ih h).trans (List.suffix_append _ rest).isInfix

/-! ## The ends of a token -/

theorem open_mem_of_start {name x : List Char} (hx : x ≠ []) (h : x <+: written name) :
    '{' ∈ x := by
  cases x with
  | nil => exact absurd rfl hx
  | cons c x => exact (List.cons_prefix_cons.mp h).1 ▸ List.mem_cons_self

theorem close_mem_of_end {name x : List Char} (hx : x ≠ []) (h : x <:+ written name) :
    '}' ∈ x := by
  obtain ⟨r, hr⟩ := h
  have hlast := congrArg List.getLast? hr
  have hwritten : (written name).getLast? = some '}' :=
    List.getLast?_append_of_ne_nil (opening ++ name) (List.cons_ne_nil _ _)
  rw [List.getLast?_append_of_ne_nil r hx, hwritten] at hlast
  exact List.mem_of_getLast? hlast

/-- A value without braces only meets the tokens of the names that it is a part of. -/
theorem infix_of_meets_written {value name : List Char} (hopen : '{' ∉ value) (hclose : '}' ∉ value)
    (h : Meets value (written name)) : value <:+: name := by
  rcases h with hvalue | hname | ⟨x, hx, hvalue, hstart⟩ | ⟨x, hx, hvalue, hend⟩
  · have hwritten : written name = '{' :: (('{' :: (name ++ ['}'])) ++ ['}']) := by
      simp [written, opening, closing]
    rw [hwritten] at hvalue
    exact Text.infix_of_not_mem (Text.infix_of_not_mem hvalue hopen hclose) hopen hclose
  · exact absurd (hname.subset List.mem_cons_self) hopen
  · exact absurd (hvalue.subset (open_mem_of_start hx hstart)) hopen
  · exact absurd (hvalue.subset (close_mem_of_end hx hend)) hclose

/-! ## Plain names -/

/-- The name has no braces. -/
def IsPlain (name : List Char) : Prop :=
  '{' ∉ name ∧ '}' ∉ name

instance (name : List Char) : Decidable (IsPlain name) :=
  inferInstanceAs (Decidable (_ ∧ _))

theorem count_written {name : List Char} (h : IsPlain name) :
    (written name).count '{' = 2 ∧ (written name).count '}' = 2 := by
  have hopen : name.count '{' = 0 := List.count_eq_zero.mpr h.1
  have hclose : name.count '}' = 0 := List.count_eq_zero.mpr h.2
  rw [written, List.count_append, List.count_append, List.count_append, List.count_append, hopen,
    hclose]
  exact ⟨rfl, rfl⟩

/-- The opening braces of a token are at its start. -/
theorem suffix_eq_written {name x : List Char} (hname : IsPlain name) (h : x <:+ written name)
    (hcount : 2 ≤ x.count '{') : x = written name := by
  obtain ⟨r, hr⟩ := h
  have hr' : r = [] := by
    by_contra hne
    have hmem := open_mem_of_start hne ⟨x, hr⟩
    have hpos := List.count_pos_iff.mpr hmem
    have hall := congrArg (List.count '{') hr
    rw [List.count_append, (count_written hname).1] at hall
    omega
  rw [← hr, hr', List.nil_append]

theorem prefix_eq_written {name x : List Char} (hname : IsPlain name) (h : x <+: written name)
    (hcount : 2 ≤ x.count '}') : x = written name := by
  obtain ⟨r, hr⟩ := h
  have hr' : r = [] := by
    by_contra hne
    have hmem := close_mem_of_end hne ⟨x, hr⟩
    have hpos := List.count_pos_iff.mpr hmem
    have hall := congrArg (List.count '}') hr
    rw [List.count_append, (count_written hname).2] at hall
    omega
  rw [← hr, hr', List.append_nil]

theorem written_injective {a b : List Char} (h : written a = written b) : a = b :=
  List.append_cancel_left (List.append_cancel_right h)

theorem eq_of_infix_written {a b : List Char} (ha : IsPlain a) (hb : IsPlain b)
    (h : written a <:+: written b) : a = b := by
  obtain ⟨x, y, hxy⟩ := h
  rw [List.append_assoc] at hxy
  have hopen : 2 ≤ (written a ++ y).count '{' := by
    rw [List.count_append, (count_written ha).1]
    omega
  have hend := suffix_eq_written hb ⟨x, hxy⟩ hopen
  have hstart := prefix_eq_written hb ⟨y, hend⟩ (count_written ha).2.ge
  exact written_injective hstart

/-- A part that starts one token and ends another is both of them. -/
theorem eq_of_overlap {a b x : List Char} (ha : IsPlain a) (hb : IsPlain b) (hx : x ≠ [])
    (hend : x <:+ written a) (hstart : x <+: written b) : a = b := by
  have hopen : opening ++ b <+: x := by
    rcases List.prefix_or_prefix_of_prefix hstart (List.prefix_append _ closing) with hx' | hx'
    · have hmem := hx'.subset (close_mem_of_end hx hend)
      rw [List.mem_append] at hmem
      exact absurd hmem (not_or.mpr ⟨by decide, hb.2⟩)
    · exact hx'
  have hclose : a ++ closing <:+ x := by
    have hwritten : a ++ closing <:+ written a := ⟨opening, by rw [written, List.append_assoc]⟩
    rcases List.suffix_or_suffix_of_suffix hend hwritten with hx' | hx'
    · have hmem := hx'.subset (open_mem_of_start hx hstart)
      rw [List.mem_append] at hmem
      exact absurd hmem (not_or.mpr ⟨ha.1, by decide⟩)
    · exact hx'
  have hopens : 2 ≤ x.count '{' :=
    ((List.prefix_append opening b).trans hopen).sublist.count_le '{'
  have hcloses : 2 ≤ x.count '}' :=
    ((List.suffix_append a closing).trans hclose).sublist.count_le '}'
  have hwritten := (suffix_eq_written ha hend hopens).symm.trans
    (prefix_eq_written hb hstart hcloses)
  exact written_injective hwritten

/-- The tokens of two plain names share no letters. -/
theorem not_meets_written {a b : List Char} (ha : IsPlain a) (hb : IsPlain b) (hne : a ≠ b) :
    ¬ Meets (written a) (written b) := by
  intro h
  rcases h with hab | hba | ⟨x, hx, hend, hstart⟩ | ⟨x, hx, hstart, hend⟩
  · exact hne (eq_of_infix_written ha hb hab)
  · exact hne (eq_of_infix_written hb ha hba).symm
  · exact hne (eq_of_overlap ha hb hx hend hstart)
  · exact hne (eq_of_overlap hb ha hx hend hstart).symm

end Token
end LoadTest

import LoadTest.Proofs.Text.Cutting
import LoadTest.Proofs.Token

/-!
Which tokens of a text are read.

A pair of opening braces is read together with the first closing pair behind it, and reading goes
on after that.  So a token is read where no pair stands open in front of it (`mem_names_iff`); for
every text that ends somewhere there is either none, or one is the last that was read
(`settled_or_open`).
-/

namespace LoadTest
namespace Token

open Text (cut?)

/-- No pair of opening braces stands open at the end of the text, and none is made by one more
opening brace. -/
inductive Settled : List Char → Prop
  | plain {s : List Char} (h : ¬ opening <:+: s ++ ['{']) : Settled s
  | behind {s name r : List Char} (h : ¬ opening <:+: s ++ ['{'])
      (hname : ¬ closing <:+: name ++ ['}']) (hr : Settled r) : Settled (s ++ written name ++ r)

/-! ## The first pair -/

theorem cut?_opening {s before after : List Char} :
    cut? opening s = some (before, after) ↔
      s = before ++ opening ++ after ∧ ¬ opening <:+: before ++ ['{'] :=
  Text.cut?_eq_some_iff (List.cons_ne_nil _ _)

theorem cut?_closing {s before after : List Char} :
    cut? closing s = some (before, after) ↔
      s = before ++ closing ++ after ∧ ¬ closing <:+: before ++ ['}'] :=
  Text.cut?_eq_some_iff (List.cons_ne_nil _ _)

theorem not_infix_opening {s : List Char} (h : '{' ∉ s) : ¬ opening <:+: s ++ ['{'] := by
  intro hin
  have hcount := hin.sublist.count_le '{'
  rw [List.count_append, List.count_eq_zero.mpr h] at hcount
  exact absurd hcount (by decide)

theorem not_infix_closing {s : List Char} (h : '}' ∉ s) : ¬ closing <:+: s ++ ['}'] := by
  intro hin
  have hcount := hin.sublist.count_le '}'
  rw [List.count_append, List.count_eq_zero.mpr h] at hcount
  exact absurd hcount (by decide)

theorem isName_iff {name : List Char} (h : IsPlain name) : isName name = true ↔ name ≠ [] := by
  have hopening : Text.occurs opening name = false := by
    rw [Bool.eq_false_iff, Ne, Text.occurs_iff]
    exact fun hin => h.1 (hin.subset List.mem_cons_self)
  rw [isName, hopening, Bool.not_false, Bool.and_true, Bool.not_eq_true', List.isEmpty_eq_false_iff]

theorem names_of_not_infix {s : List Char} (h : ¬ opening <:+: s) : names s = [] := by
  have hcut := Text.cut?_eq_none_iff.mpr h
  rw [names]
  split
  · rfl
  · next hsome =>
    rw [hcut] at hsome
    cases hsome

/-- Reading takes the first opening pair with the first closing pair behind it. -/
theorem names_written {s name r : List Char} (hs : ¬ opening <:+: s ++ ['{'])
    (hname : ¬ closing <:+: name ++ ['}']) :
    names (s ++ written name ++ r) =
      if isName name = true then name :: names r else names r := by
  have houter : cut? opening (s ++ written name ++ r) = some (s, name ++ closing ++ r) :=
    cut?_opening.mpr ⟨by simp [written], hs⟩
  have hinner : cut? closing (name ++ closing ++ r) = some (name, r) :=
    cut?_closing.mpr ⟨rfl, hname⟩
  rw [names]
  split
  · next hnone =>
    rw [houter] at hnone
    cases hnone
  · next hsome =>
    rw [houter] at hsome
    cases hsome
    split
    · next hnone =>
      rw [hinner] at hnone
      cases hnone
    · next hsome =>
      rw [hinner] at hsome
      cases hsome
      rfl

/-! ## What is read -/

/-- The names that are read are those of the tokens in front of which no pair stands open. -/
theorem mem_names_iff {name s : List Char} : name ∈ names s ↔
    isName name = true ∧ ¬ closing <:+: name ++ ['}'] ∧
      ∃ before after, s = before ++ written name ++ after ∧ Settled before := by
  constructor
  · intro h
    -- What is read behind the first token is read behind it in the whole text.
    have hbehind {before found rest : List Char} (hbefore : ¬ opening <:+: before ++ ['{'])
        (hclosing : ¬ closing <:+: found ++ ['}'])
        (h : ∃ b a, rest = b ++ written name ++ a ∧ Settled b) :
        ∃ b a, before ++ opening ++ (found ++ closing ++ rest) = b ++ written name ++ a ∧
          Settled b := by
      obtain ⟨b, a, rfl, hsettled⟩ := h
      exact ⟨before ++ written found ++ b, a, by simp [written], hsettled.behind hbefore hclosing⟩
    fun_induction names s with
    | case1 s => cases h
    | case2 s => cases h
    | case3 s before after houter found rest hinner hfound ih =>
      obtain ⟨rfl, hbefore⟩ := cut?_opening.mp houter
      obtain ⟨rfl, hclosing⟩ := cut?_closing.mp hinner
      rcases List.mem_cons.mp h with rfl | hrest
      · exact ⟨hfound, hclosing, before, rest, by simp [written], .plain hbefore⟩
      · obtain ⟨hname, hend, hplace⟩ := ih hrest
        exact ⟨hname, hend, hbehind hbefore hclosing hplace⟩
    | case4 s before after houter found rest hinner hfound ih =>
      obtain ⟨rfl, hbefore⟩ := cut?_opening.mp houter
      obtain ⟨rfl, hclosing⟩ := cut?_closing.mp hinner
      obtain ⟨hname, hend, hplace⟩ := ih h
      exact ⟨hname, hend, hbehind hbefore hclosing hplace⟩
  · rintro ⟨hname, hclosing, before, after, rfl, hsettled⟩
    induction hsettled with
    | plain hs =>
      rw [names_written hs hclosing, if_pos hname]
      exact List.mem_cons_self
    | @behind s a r hs ha hr ih =>
      rw [List.append_assoc _ r, List.append_assoc _ (r ++ _), names_written hs ha]
      split
      · exact List.mem_cons_of_mem _ ih
      · exact ih

/-- A name without braces is read where its token stands and no pair stands open. -/
theorem mem_names_iff_of_isPlain {name s : List Char} (hname : IsPlain name) (hne : name ≠ []) :
    name ∈ names s ↔ ∃ before after, s = before ++ written name ++ after ∧ Settled before := by
  rw [mem_names_iff, isName_iff hname]
  exact ⟨fun h => h.2.2, fun h => ⟨hne, not_infix_closing hname.2, h⟩⟩

/-- A pair of opening braces of the text, or of the text with one more opening brace, stands open at
the end. -/
def Open (s : List Char) : Prop :=
  ∃ before after, s ++ ['{'] = before ++ opening ++ after ∧ Settled before ∧ ¬ closing <:+: after

/-- The first pair of opening braces, if there is one, stands open or starts a token. -/
theorem first_cases (s : List Char) : ¬ opening <:+: s ++ ['{'] ∨ Open s ∨
    ∃ before name r, s = before ++ written name ++ r ∧ ¬ opening <:+: before ++ ['{'] ∧
      ¬ closing <:+: name ++ ['}'] := by
  cases hopening : cut? opening (s ++ ['{']) with
  | none => exact .inl (Text.cut?_eq_none_iff.mp hopening)
  | some cut =>
    obtain ⟨before, after⟩ := cut
    obtain ⟨hs, hbefore⟩ := cut?_opening.mp hopening
    cases hclosing : cut? closing after with
    | none =>
      exact .inr (.inl ⟨before, after, hs, .plain hbefore, Text.cut?_eq_none_iff.mp hclosing⟩)
    | some cut =>
      obtain ⟨name, rest⟩ := cut
      obtain ⟨rfl, hname⟩ := cut?_closing.mp hclosing
      have hs : s ++ ['{'] = before ++ written name ++ rest := by simpa [written] using hs
      -- The added brace is behind the token, which ends with braces of the other kind.
      rcases List.eq_nil_or_concat rest with rfl | ⟨r, c, rfl⟩
      · have hlast := congrArg List.getLast? hs
        simp [written, closing] at hlast
      · rw [List.concat_eq_append, ← List.append_assoc] at hs
        exact .inr (.inr ⟨before, name, r, List.append_inj_left' hs rfl, hbefore, hname⟩)

/-- Where a text ends, no pair stands open, or some does. -/
theorem settled_or_open (s : List Char) : Settled s ∨ Open s := by
  rcases first_cases s with hplain | hopen | ⟨before, name, r, hs, hbefore, hname⟩
  · exact .inl (.plain hplain)
  · exact .inr hopen
  · have hshort : r.length < s.length := by
      have hpos := List.length_pos_iff.mpr (written_ne_nil name)
      rw [hs, List.length_append, List.length_append]
      omega
    rcases settled_or_open r with hr | ⟨b, a, hb, hsettled, ha⟩
    · rw [hs]
      exact .inl (hr.behind hbefore hname)
    · refine .inr ⟨before ++ written name ++ b, a, ?_, hsettled.behind hbefore hname, ha⟩
      rw [hs, List.append_assoc _ r, hb, ← List.append_assoc, ← List.append_assoc]
termination_by s.length

end Token
end LoadTest

import LoadTest.Proofs.Layout.Laying
import LoadTest.Proofs.Layout.Outline

/-!
What has been laid out is in normal form.

A layout only changes indents and blank lines, and which blank lines it leaves can be said of the
lines alone, read from the start of the script: whether a line is in a comment is what the lines
before it say.
-/

namespace LoadTest
namespace Layout

/-! ## Normal form -/

/-- The line `y` may follow the line `x`, in front of which the state is `l`. -/
structure Follows (l : Lexical) (x y : List Char) : Prop where
  /-- No blank line follows a blank line. -/
  single : l ≠ .blockComment → x = [] → y ≠ []
  /-- No line that starts with a closing bracket follows a blank line. -/
  closer : l ≠ .blockComment → x = [] → ∀ c ∈ (Text.trim y).head?, isCloser c = false
  /-- No blank line follows a line that ends with an opening bracket. -/
  opener : ∀ c ∈ x.getLast?, isOpener c = true → y ≠ []

/-- Every line may follow the one before it, and the state in front of the first is `l`. -/
def Spaced (l : Lexical) : List (List Char) → Prop
  | x :: y :: rest => Follows l x y ∧ Spaced (l.behind x) (y :: rest)
  | _ => True

/-- The lines of a script that needs no layout, but for its indents. -/
structure Normal (lines : List (List Char)) : Prop where
  trimmed : ∀ line ∈ lines, Text.trimEnd line = line
  first : lines.head? ≠ some []
  last : lines.getLast? ≠ some []
  spaced : Spaced .code lines

/-! ## Lines that have been laid out -/

variable {width : Nat}

namespace Laid

variable {s : Spot} {lines out : List (List Char)}

/-- The texts of the lines are kept, all of them and in their order. -/
theorem flatMap_textOf (h : Laid width s lines out) :
    out.flatMap textOf = lines.flatMap textOf := by
  induction h with
  | nil => rfl
  | blank hraw _ ih => rw [List.flatMap_cons, textOf, hraw, ih]; rfl
  | @line s raw lines out l openers hraw _ _ ih =>
    have hblanks : (List.replicate (s.spacing (Text.trim raw)) []).flatMap textOf = [] := by
      rw [List.flatMap_eq_nil_iff]
      intro blank hblank
      rw [(List.mem_replicate.mp hblank).2]
      rfl
    have htext : textOf (s.line width (Text.trim raw)) = textOf raw := by
      rw [textOf, s.trim_line, Text.trim_trim, textOf]
    rw [List.flatMap_append, hblanks, List.nil_append, List.flatMap_cons, List.flatMap_cons, htext,
      ih]

theorem trimEnd_eq (h : Laid width s lines out) : ∀ line ∈ out, Text.trimEnd line = line := by
  refine h.forall_mem Text.trimEnd_nil fun raw _ level => ?_
  have htext : Text.trimEnd (Text.trim raw) = Text.trim raw := Text.trimEnd_trimEnd _
  unfold indented
  split_ifs with hraw
  · rfl
  · rw [Text.trimEnd_append _ (htext.symm ▸ hraw), htext]

/-- No blank line comes first, or behind a line that ends with an opening bracket. -/
theorem head?_ne (h : Laid width s lines out)
    (hs : s.last.any opensBlock = true ∨ s.last = none ∧ s.lexical ≠ .blockComment) :
    out.head? ≠ some [] := by
  induction h with
  | nil => exact nofun
  | blank _ _ ih => exact ih hs
  | @line s raw lines out l openers hraw _ _ _ =>
    have hspacing : s.spacing (Text.trim raw) = 0 := by
      rcases hs with hopens | ⟨hlast, hl⟩
      · rw [Spot.spacing, if_pos hopens]
      · simp [Spot.spacing, Spot.kept, Spot.pending, hlast, hl]
    rw [hspacing]
    exact fun e => indented_ne_nil hraw (Option.some.inj e)

theorem getLast?_ne (h : Laid width s lines out) : out.getLast? ≠ some [] := by
  induction h with
  | nil => exact nofun
  | blank _ _ ih => exact ih
  | @line s raw lines out l openers hraw _ _ ih =>
    rw [List.getLast?_append, List.getLast?_cons, Option.some_or]
    cases hlast : out.getLast? with
    | none => exact fun e => indented_ne_nil hraw (Option.some.inj e)
    | some line => exact hlast ▸ ih

end Laid

/-! ## Blank lines -/

theorem opensBlock_of_getLast? {line : List Char} {c : Char} (hlast : c ∈ line.getLast?)
    (hc : isOpener c = true) : opensBlock line = true := by
  have hblank : Text.isBlank c = false := by
    simp only [isOpener, Bool.or_eq_true, decide_eq_true_eq] at hc
    rcases hc with (rfl | rfl) | rfl <;> rfl
  have hopens := opensBlock_indented hlast hblank 0 0
  rwa [indented_zero, hc] at hopens

theorem not_isCloser_of_leadingClosers {text : List Char} (h : leadingClosers text = []) {c : Char}
    (hc : c ∈ text.head?) : isCloser c = false := by
  cases text with
  | nil => cases hc
  | cons d text =>
    obtain rfl : d = c := Option.some.inj hc
    by_contra hcloser
    rw [leadingClosers, List.takeWhile_cons_of_pos (by simp [hcloser]),
      List.filter_cons_of_pos (by simpa using hcloser)] at h
    cases h

/-- Blank lines may stand in front of a line in a comment, and else one of them if the line starts
with no closing bracket. -/
theorem Spaced.replicate {l : Lexical} {line : List Char} {rest : List (List Char)} {k : Nat}
    (h : Spaced l (line :: rest)) (hline : line ≠ [])
    (hk : l ≠ .blockComment →
      k = 0 ∨ k = 1 ∧ ∀ c ∈ (Text.trim line).head?, isCloser c = false) :
    Spaced l (List.replicate k [] ++ line :: rest) := by
  induction k with
  | zero => exact h
  | succ k ih =>
    cases k with
    | zero =>
      refine ⟨⟨fun _ _ => hline, fun hl _ => ?_, nofun⟩, l.behind_nil.symm ▸ h⟩
      exact ((hk hl).resolve_left (by omega)).2
    | succ k =>
      have hl : l = .blockComment := by
        by_contra hl
        have hfew := hk hl
        omega
      refine ⟨⟨fun hne => absurd hl hne, fun hne => absurd hl hne, nofun⟩, ?_⟩
      exact l.behind_nil.symm ▸ ih fun hne => absurd hl hne

theorem Spot.spacing_cases (s : Spot) (text : List Char) (hl : s.lexical ≠ .blockComment) :
    s.spacing text = 0 ∨ s.spacing text = 1 ∧ leadingClosers text = [] := by
  simp only [spacing, kept, pending, closers, if_neg hl]
  split_ifs with _ hclosers
  · exact .inl rfl
  · exact .inl rfl
  · rcases Nat.le_one_iff_eq_zero_or_eq_one.mp (Nat.min_le_right s.blanks 1) with h | h
    · exact .inl h
    · exact .inr ⟨h, hclosers⟩
  · exact .inl rfl

/-- Of the blank lines those are left that may stay. -/
theorem Laid.spaced {s : Spot} {lines out : List (List Char)} (h : Laid width s lines out)
    (hs : s.lexical ≠ .quoted ' ') : Spaced s.lexical out := by
  induction h with
  | nil => trivial
  | blank _ _ ih => exact ih hs
  | @line s raw lines out l openers hraw hreads hlaid ih =>
    have hline : s.line width (Text.trim raw) ≠ [] := indented_ne_nil hraw
    have hl : s.lexical.behind (s.line width (Text.trim raw)) = l := by
      rw [Spot.line, Lexical.behind_indented hs]
      exact (scan_eq_ok_iff.mp hreads.scan).2
    have hrest : Spaced s.lexical (s.line width (Text.trim raw) :: out) := by
      cases out with
      | nil => trivial
      | cons y out =>
        refine ⟨⟨fun _ e => absurd e hline, fun _ e => absurd e hline, fun c hlast hc => ?_⟩, ?_⟩
        · have hopens := opensBlock_of_getLast? hlast hc
          exact fun e => hlaid.head?_ne (.inl hopens) (congrArg some e)
        · exact hl ▸ ih (hl ▸ Lexical.behind_ne_quoted_space hs _)
    refine hrest.replicate hline fun hcomment => ?_
    refine (s.spacing_cases _ hcomment).imp_right ?_
    rintro ⟨hone, hclosers⟩
    refine ⟨hone, fun c hc => ?_⟩
    rw [s.trim_line, Text.trim_trim] at hc
    exact not_isCloser_of_leadingClosers hclosers hc

theorem Laid.normal {lines out : List (List Char)} (h : Laid width Spot.start lines out) :
    Normal out where
  trimmed := h.trimEnd_eq
  first := h.head?_ne (.inr ⟨rfl, nofun⟩)
  last := h.getLast?_ne
  spaced := h.spaced nofun

/-! ## The end of a text -/

/-- A text ends with one newline and not with more. -/
def EndsLine (text : List Char) : Prop :=
  ∃ init c, text = init ++ [c, '\n'] ∧ c ≠ '\n'

theorem endsLine_unlines {lines : List (List Char)} (hnewline : ∀ line ∈ lines, '\n' ∉ line)
    (hlast : lines.getLast? ≠ some []) (hne : lines ≠ []) : EndsLine (unlines lines) := by
  obtain ⟨init, line, rfl⟩ := (List.eq_nil_or_concat lines).resolve_left hne
  have hline : line ≠ [] := by simpa using hlast
  obtain ⟨before, c, rfl⟩ := (List.eq_nil_or_concat line).resolve_left hline
  refine ⟨unlines init ++ before, c, by simp [unlines], ?_⟩
  rintro rfl
  exact hnewline (before ++ ['\n']) (by simp) (by simp)

end Layout

/-- A layout keeps the text of a script and brings it into normal form. -/
theorem layout_normal {width : Nat} {code out : String} (h : layout width code = .ok out) :
    (Layout.linesOf out.toList).flatMap Layout.textOf =
        (Layout.linesOf code.toList).flatMap Layout.textOf ∧
      Layout.Normal (Layout.linesOf out.toList) ∧ (out = "" ∨ Layout.EndsLine out.toList) := by
  obtain ⟨hlaid, hlines⟩ := layout_lines h
  refine ⟨hlaid.flatMap_textOf, hlaid.normal, ?_⟩
  by_cases hout : Layout.linesOf out.toList = []
  · rw [hout] at hlines
    exact .inl (String.toList_inj.mp hlines.symm)
  · have hends := Layout.endsLine_unlines (Layout.newline_not_mem_linesOf out.toList)
      hlaid.getLast?_ne hout
    exact .inr (hlines ▸ hends)

theorem layout_normal_blanks :
    let code := "\n\nconst a = [\n\n\nb,\n\n];\n\n\n\nf();  \n\n\n/* x\n\n\n) */\n\n"
    let out := "const a = [\n  b,\n];\n\nf();\n\n/* x\n\n\n) */\n"
    layout 2 code = .ok out ∧
      (Layout.linesOf out.toList).flatMap Layout.textOf =
          (Layout.linesOf code.toList).flatMap Layout.textOf ∧
        Layout.Normal (Layout.linesOf out.toList) ∧
          (out = "" ∨ Layout.EndsLine out.toList) := by
  intro code out
  have h : layout 2 code = .ok out := by decide +kernel
  exact ⟨h, layout_normal h⟩

end LoadTest

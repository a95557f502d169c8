import LoadTest.Layout
import LoadTest.Script.Line
import Mathlib.Tactic.Common

/-!
Scanning lines that are made of code and of quoted texts.

A quoted text is passed over, whatever it says.  Code without quotes and slashes is looked at for
its brackets only, and `nesting` lists those that it leaves open.
-/

namespace LoadTest
namespace Layout

/-! ## Single characters -/

theorem scan_code_cons {c : Char} (hc : c ≠ '/') (n : Nat) (openers : Openers) (r : List Char) :
    scan n .code openers (c :: r) =
      if isQuote c then scan n (.quoted c) openers r
      else if isOpener c then scan n .code (⟨c, n⟩ :: openers) r
      else if isCloser c then
        match openers with
        | o :: rest =>
          if closerOf o.bracket = c then scan n .code rest r else .error (.unbalanced n c)
        | [] => .error (.unbalanced n c)
      else scan n .code openers r := by
  cases openers <;> simp [scan, hc]

theorem scan_quoted_cons {c : Char} (hc : c ≠ '\\') (n : Nat) (mark : Char) (openers : Openers)
    (r : List Char) :
    scan n (.quoted mark) openers (c :: r) =
      scan n (if c = mark then .code else .quoted mark) openers r := by
  simp [scan, hc]

/-- The character behind a backslash says nothing. -/
theorem scan_quoted_escape (n : Nat) (mark c : Char) (openers : Openers) (r : List Char) :
    scan n (.quoted mark) openers ('\\' :: c :: r) = scan n (.quoted mark) openers r := by
  rw [scan]

/-! ## Quoted texts -/

theorem lowerHexDigit_ne : ∀ n < 16, Json.lowerHexDigit n ≠ '\\' ∧ Json.lowerHexDigit n ≠ '"' ∧
    Json.lowerHexDigit n ≠ '\n' := by
  decide

theorem escapeChar_cases (c : Char) :
    (∃ d, Json.escapeChar c = ['\\', d] ∧ d ≠ '\n') ∨
      (c.toNat < 0x20 ∧ Json.escapeChar c = Json.escapeControl c) ∨
        Json.escapeChar c = [c] ∧ c ≠ '\\' ∧ c ≠ '"' ∧ c ≠ '\n' := by
  rw [Json.escapeChar]
  split_ifs with hquote hback h8 h9 hA hC hD hcontrol
  · exact Or.inl ⟨'"', rfl, by decide⟩
  · exact Or.inl ⟨'\\', rfl, by decide⟩
  · exact Or.inl ⟨'b', rfl, by decide⟩
  · exact Or.inl ⟨'t', rfl, by decide⟩
  · exact Or.inl ⟨'n', rfl, by decide⟩
  · exact Or.inl ⟨'f', rfl, by decide⟩
  · exact Or.inl ⟨'r', rfl, by decide⟩
  · exact Or.inr (Or.inl ⟨hcontrol, rfl⟩)
  · exact Or.inr (Or.inr ⟨rfl, hback, hquote, fun h => hA (h ▸ rfl)⟩)

theorem scan_quoted_plain {c : Char} (hback : c ≠ '\\') (hquote : c ≠ '"') (n : Nat)
    (openers : Openers) (r : List Char) :
    scan n (.quoted '"') openers (c :: r) = scan n (.quoted '"') openers r := by
  rw [scan_quoted_cons hback, if_neg hquote]

theorem scan_escapeChar (c : Char) (n : Nat) (openers : Openers) (r : List Char) :
    scan n (.quoted '"') openers (Json.escapeChar c ++ r) = scan n (.quoted '"') openers r := by
  rcases escapeChar_cases c with ⟨d, hd, -⟩ | ⟨hc, hd⟩ | ⟨hd, hback, hquote, -⟩
  · rw [hd]
    exact scan_quoted_escape n '"' d openers r
  · obtain ⟨hback₁, hquote₁, -⟩ := lowerHexDigit_ne (c.toNat / 16) (by omega)
    obtain ⟨hback₂, hquote₂, -⟩ := lowerHexDigit_ne (c.toNat % 16) (by omega)
    rw [hd, Json.escapeControl]
    simp only [List.cons_append, List.nil_append]
    rw [scan_quoted_escape, scan_quoted_plain (by decide) (by decide),
      scan_quoted_plain (by decide) (by decide), scan_quoted_plain hback₁ hquote₁,
      scan_quoted_plain hback₂ hquote₂]
  · rw [hd]
    exact scan_quoted_plain hback hquote n openers r

theorem scan_escape (s : List Char) (n : Nat) (openers : Openers) (r : List Char) :
    scan n (.quoted '"') openers (Json.escape s ++ r) = scan n (.quoted '"') openers r := by
  induction s with
  | nil => rfl
  | cons c s ih => rw [Json.escape_cons, List.append_assoc, scan_escapeChar, ih]

/-- A quoted text is passed over, whatever it says. -/
theorem scan_quote (s : String) (n : Nat) (openers : Openers) (r : List Char) :
    scan n .code openers ((Json.quote s).toList ++ r) = scan n .code openers r := by
  rw [Json.quote, String.toList_ofList, List.append_assoc, List.cons_append,
    scan_code_cons (by decide), if_pos (show isQuote '"' = true from rfl), scan_escape,
    List.singleton_append, scan_quoted_cons (by decide), if_pos rfl]

/-- A quoted text stays on its line. -/
theorem newline_not_mem_quote (s : String) : '\n' ∉ (Json.quote s).toList := by
  have hescape : ∀ c, '\n' ∉ Json.escapeChar c := by
    intro c
    rcases escapeChar_cases c with ⟨d, hd, hend⟩ | ⟨hc, hd⟩ | ⟨hd, -, -, hend⟩
    · simp [hd, hend.symm]
    · have h₁ := (lowerHexDigit_ne (c.toNat / 16) (by omega)).2.2
      have h₂ := (lowerHexDigit_ne (c.toNat % 16) (by omega)).2.2
      simp [hd, Json.escapeControl, h₁.symm, h₂.symm]
    · simp [hd, hend.symm]
  simp [Json.quote, Json.escape, hescape]

/-! ## Code -/

/-- The brackets, innermost first, that are open behind a character if `stack` is open before it.
There is no answer if a bracket does not fit, or if the character could start anything but code. -/
def nest? (stack : List Char) (c : Char) : Option (List Char) :=
  if isQuote c || c = '/' || c = '\n' then none
  else if isOpener c then some (c :: stack)
  else if isCloser c then
    match stack with
    | b :: rest => if closerOf b = c then some rest else none
    | [] => none
  else some stack

/-- The brackets that are open behind a text. -/
def nesting (stack text : List Char) : Option (List Char) :=
  text.foldlM nest? stack

theorem nesting_cons (stack : List Char) (c : Char) (text : List Char) :
    nesting stack (c :: text) = (nest? stack c).bind fun stack => nesting stack text := rfl

theorem nesting_append (stack s t : List Char) :
    nesting stack (s ++ t) = (nesting stack s).bind fun stack => nesting stack t := by
  rw [nesting, List.foldlM_append]
  rfl

/-- A character that is no bracket and cannot start anything but code. -/
def isInert (c : Char) : Bool :=
  !isQuote c && !isOpener c && !isCloser c && c ≠ '/' && c ≠ '\n'

theorem nest?_of_inert {c : Char} (h : isInert c = true) (stack : List Char) :
    nest? stack c = some stack := by
  simp only [isInert, Bool.and_eq_true, Bool.not_eq_true', decide_eq_true_eq] at h
  obtain ⟨⟨⟨⟨hquote, hopen⟩, hclose⟩, hslash⟩, hend⟩ := h
  simp [nest?, hquote, hopen, hclose, hslash, hend]

theorem nesting_of_inert {text : List Char} (h : ∀ c ∈ text, isInert c = true)
    (stack : List Char) : nesting stack text = some stack := by
  induction text with
  | nil => rfl
  | cons c text ih =>
    rw [nesting_cons, nest?_of_inert (h c List.mem_cons_self), Option.bind_some]
    exact ih fun d hd => h d (List.mem_cons_of_mem c hd)

/-- The brackets of `stack`, opened on line `n`. -/
def openedOn (n : Nat) (stack : List Char) : Openers :=
  stack.map fun b => ⟨b, n⟩

theorem scan_of_nest? {stack after : List Char} {c : Char} (h : nest? stack c = some after)
    (n : Nat) (openers : Openers) (r : List Char) :
    scan n .code (openedOn n stack ++ openers) (c :: r) =
      scan n .code (openedOn n after ++ openers) r := by
  unfold nest? at h
  split_ifs at h with hcode hopen hclose
  all_goals
    rw [Bool.or_eq_true, Bool.or_eq_true, not_or, not_or] at hcode
    rw [scan_code_cons (by simpa using hcode.1.2), if_neg hcode.1.1]
  · rw [if_pos hopen, ← Option.some.inj h]
    rfl
  · rw [if_neg hopen, if_pos hclose]
    cases stack with
    | nil => cases h
    | cons b rest =>
      simp only at h
      split_ifs at h with hfits
      simp only [openedOn, List.map_cons, List.cons_append, if_pos hfits, Option.some.inj h]
  · rw [if_neg hopen, if_neg hclose, Option.some.inj h]

theorem scan_of_nesting {stack text after : List Char} (h : nesting stack text = some after)
    (n : Nat) (openers : Openers) (r : List Char) :
    scan n .code (openedOn n stack ++ openers) (text ++ r) =
      scan n .code (openedOn n after ++ openers) r := by
  induction text generalizing stack with
  | nil => rw [List.nil_append, show stack = after from Option.some.inj h]
  | cons c text ih =>
    rw [nesting_cons] at h
    obtain ⟨middle, hc, htext⟩ := Option.bind_eq_some_iff.mp h
    rw [List.cons_append, scan_of_nest? hc, ih htext]

theorem newline_not_mem_of_nesting {stack text after : List Char}
    (h : nesting stack text = some after) : '\n' ∉ text := by
  induction text generalizing stack with
  | nil => exact List.not_mem_nil
  | cons c text ih =>
    rw [nesting_cons] at h
    obtain ⟨middle, hc, htext⟩ := Option.bind_eq_some_iff.mp h
    rw [List.mem_cons, not_or]
    refine ⟨?_, ih htext⟩
    rintro rfl
    cases hc

end Layout
end LoadTest

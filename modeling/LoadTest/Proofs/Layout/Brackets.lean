import LoadTest.Layout
import Mathlib.Tactic.Common

/-!
Reading a line without counting.

What a line says is which of its brackets count and which state it ends in (`Lexical.read`).
Neither depends on the brackets that are open, so scanning a line is reading it and turning the
stack of the open brackets once for every bracket that counts (`scan_eq`).
-/

namespace LoadTest
namespace Layout

theorem bind_eq_ok_iff {ε α β : Type} {x : Except ε α} {f : α → Except ε β} {b : β} :
    x >>= f = .ok b ↔ ∃ a, x = .ok a ∧ f a = .ok b := by
  cases x with
  | error e => simp [bind, Except.bind]
  | ok a => simp [bind, Except.bind]

theorem bind_eq_error_iff {ε α β : Type} {x : Except ε α} {f : α → Except ε β} {e : ε} :
    x >>= f = .error e ↔ x = .error e ∨ ∃ a, x = .ok a ∧ f a = .error e := by
  cases x with
  | error e => simp [bind, Except.bind]
  | ok a => simp [bind, Except.bind]

/-! ## What a text says -/

namespace Lexical

/-- The brackets of a text that count, read from the state `l`, and the state at its end. -/
def read : Lexical → List Char → List Char × Lexical
  | l, [] => ([], l)
  | .blockComment, '*' :: '/' :: r => read .code r
  | .blockComment, _ :: r => read .blockComment r
  | .quoted mark, ['\\'] => ([], .quoted mark)
  | .quoted mark, '\\' :: _ :: r => read (.quoted mark) r
  | .quoted mark, c :: r => read (if c = mark then .code else .quoted mark) r
  | .code, '/' :: '/' :: _ => ([], .code)
  | .code, '/' :: '*' :: r => read .blockComment r
  | .code, c :: r =>
    if isQuote c then read (.quoted c) r
    else if isOpener c || isCloser c then (c :: (read .code r).1, (read .code r).2)
    else read .code r

/-- The brackets of a text that count. -/
def brackets (l : Lexical) (text : List Char) : List Char :=
  (l.read text).1

/-- The state at the end of a text. -/
def behind (l : Lexical) (text : List Char) : Lexical :=
  (l.read text).2

theorem behind_nil (l : Lexical) : l.behind [] = l := by
  cases l <;> rfl

/-- No quoted text is marked by a space. -/
theorem behind_ne_quoted_space {l : Lexical} (h : l ≠ .quoted ' ') (text : List Char) :
    l.behind text ≠ .quoted ' ' := by
  have hquote : isQuote ' ' = false := rfl
  unfold behind
  fun_induction read l text <;> grind

theorem behind_space {l : Lexical} (h : l ≠ .quoted ' ') (text : List Char) :
    l.behind (' ' :: text) = l.behind text := by
  cases l with
  | code => rfl
  | quoted mark =>
    have hmark : ' ' ≠ mark := fun e => h (e ▸ rfl)
    simp [behind, read, hmark]
  | blockComment => simp [behind, read]

theorem behind_indented {l : Lexical} (h : l ≠ .quoted ' ') (width level : Nat)
    (text : List Char) : l.behind (indented width level text) = l.behind text := by
  unfold indented
  split_ifs with htext
  · rw [htext]
  · induction level * width with
    | zero => rfl
    | succ n ih => rw [List.replicate_succ, List.cons_append, behind_space h, ih]

end Lexical

/-! ## The open brackets -/

/-- The open brackets behind the bracket `c` on line `n`. -/
def turn (n : Nat) (openers : Openers) (c : Char) : Except Error Openers :=
  if isOpener c then .ok (⟨c, n⟩ :: openers)
  else
    match openers with
    | o :: rest => if closerOf o.bracket = c then .ok rest else .error (.unbalanced n c)
    | [] => .error (.unbalanced n c)

/-- Scanning a text is reading it, and a turn for every bracket that counts. -/
theorem scan_eq (n : Nat) (l : Lexical) (openers : Openers) (text : List Char) :
    scan n l openers text =
      ((l.brackets text).foldlM (turn n) openers).map fun openers => (l.behind text, openers) := by
  unfold Lexical.brackets Lexical.behind
  fun_induction scan n l openers text <;>
    simp_all [Lexical.read, turn, bind, Except.bind, Except.map, pure, Except.pure]

theorem scan_eq_ok_iff {n : Nat} {l l' : Lexical} {openers openers' : Openers}
    {text : List Char} :
    scan n l openers text = .ok (l', openers') ↔
      (l.brackets text).foldlM (turn n) openers = .ok openers' ∧ l.behind text = l' := by
  rw [scan_eq]
  cases (l.brackets text).foldlM (turn n) openers with
  | error e => simp [Except.map]
  | ok after => simp [Except.map, and_comm]

theorem turn_eq_ok_iff {n : Nat} {openers openers' : Openers} {c : Char} :
    turn n openers c = .ok openers' ↔
      (isOpener c = true ∧ openers' = ⟨c, n⟩ :: openers) ∨
        isOpener c = false ∧ ∃ o, openers = o :: openers' ∧ closerOf o.bracket = c := by
  unfold turn
  cases isOpener c with
  | true => simp [eq_comm]
  | false =>
    cases openers with
    | nil => simp
    | cons o rest =>
      by_cases hfits : closerOf o.bracket = c <;> simp [hfits]

/-- A bracket that is open behind a text was open before it or is on its line. -/
theorem mem_of_turns {n : Nat} {bs : List Char} {openers openers' : Openers}
    (h : bs.foldlM (turn n) openers = .ok openers') {o : Opener} (ho : o ∈ openers') :
    o ∈ openers ∨ o.line = n := by
  induction bs generalizing openers with
  | nil =>
    obtain rfl := Except.ok.inj h
    exact .inl ho
  | cons c bs ih =>
    obtain ⟨middle, hturn, hbs⟩ := bind_eq_ok_iff.mp h
    refine (ih hbs).elim (fun hmiddle => ?_) .inr
    rcases turn_eq_ok_iff.mp hturn with ⟨-, rfl⟩ | ⟨-, p, rfl, -⟩
    · rcases List.mem_cons.mp hmiddle with rfl | hmem
      · exact .inr rfl
      · exact .inl hmem
    · exact .inl (List.mem_cons_of_mem p hmiddle)

end Layout
end LoadTest

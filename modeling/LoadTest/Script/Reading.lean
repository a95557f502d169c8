import LoadTest.Json.Reader

/-!
Reading the code of a script: the characters of the code, and the literals between double quotes
with what they stand for.

Escapes are those of a module, so octal ones are refused, and so is half of a surrogate pair, which
is no character.  Code that could be a comment, an expression or a literal between other quotes is
refused as well: what is read as code is code.
-/

namespace LoadTest
namespace Script

inductive Token where
  | code (c : Char)
  | literal (text : List Char)
  deriving DecidableEq

/-- The character with this number in hexadecimal digits. -/
def hexChar? (digits : List Char) : Option Char := do
  let n ← digits.foldlM (fun n d => (Json.hexValue? d).map (16 * n + ·)) 0
  if digits ≠ [] ∧ n.isValidChar then some (Char.ofNat n) else none

/-- The end of a line, which a backslash joins to the next one. -/
def isLineEnd (c : Char) : Bool :=
  c = '\n' || c = '\r' || c.toNat = 0x2028 || c.toNat = 0x2029

/-- What a character behind a backslash stands for. -/
def unescaped (c : Char) : Char :=
  match c with
  | 'b' => Char.ofNat 0x08
  | 't' => '\t'
  | 'n' => '\n'
  | 'v' => Char.ofNat 0x0B
  | 'f' => Char.ofNat 0x0C
  | 'r' => '\r'
  | c => c

/-- What a single character behind a backslash stands for, given what follows it. -/
def simpleEscape? (c : Char) (next : List Char) : Option (List Char) :=
  if c = 'u' ∨ c = 'x' then none
  else if c.isDigit then
    if c = '0' ∧ ¬ next.head?.any Char.isDigit then some [Char.ofNat 0] else none
  else if isLineEnd c then some []
  else some [unescaped c]

/-- What a backslash and the text behind it stand for, and the rest of that text. -/
def escaped? : List Char → Option (List Char × List Char)
  | [] => none
  | 'u' :: '{' :: r =>
    match r.dropWhile (· ≠ '}') with
    | [] => none
    | _ :: rest => (hexChar? (r.takeWhile (· ≠ '}'))).map fun c => ([c], rest)
  | 'u' :: a :: b :: c :: d :: r => (hexChar? [a, b, c, d]).map fun c => ([c], r)
  | 'x' :: a :: b :: r => (hexChar? [a, b]).map fun c => ([c], r)
  | '\r' :: '\n' :: r => some ([], r)
  | c :: r => (simpleEscape? c r).map fun text => (text, r)

theorem length_of_escaped? {s text rest : List Char} (h : escaped? s = some (text, rest)) :
    rest.length < s.length := by
  unfold escaped? at h
  split at h
  · cases h
  · next r =>
    split at h
    · cases h
    · next heq =>
      obtain ⟨c, -, hc⟩ := Option.map_eq_some_iff.mp h
      cases hc
      have hle := (List.dropWhile_sublist (p := (· ≠ '}')) (l := r)).length_le
      rw [heq] at hle
      simp only [List.length_cons] at hle ⊢
      omega
  · obtain ⟨c, -, hc⟩ := Option.map_eq_some_iff.mp h
    cases hc
    simp only [List.length_cons]
    omega
  · obtain ⟨c, -, hc⟩ := Option.map_eq_some_iff.mp h
    cases hc
    simp only [List.length_cons]
    omega
  · cases h
    simp only [List.length_cons]
    omega
  · obtain ⟨c, -, hc⟩ := Option.map_eq_some_iff.mp h
    cases hc
    simp

/-- The text up to the closing quote, and the code behind that. -/
def literal? (s : List Char) : Option (List Char × List Char) :=
  match s with
  | [] => none
  | '"' :: r => some ([], r)
  | '\\' :: r =>
    match _escape : escaped? r with
    | none => none
    | some (text, rest) => (literal? rest).map fun (t, rest) => (text ++ t, rest)
  | c :: r =>
    if c = '\n' ∨ c = '\r' then none else (literal? r).map fun (t, rest) => (c :: t, rest)
termination_by s.length
decreasing_by
  · have := length_of_escaped? _escape
    simp only [List.length_cons]
    omega
  · simp

theorem length_of_literal? {s text rest : List Char} (h : literal? s = some (text, rest)) :
    rest.length < s.length := by
  fun_induction literal? s generalizing text with
  | case1 => cases h
  | case2 r =>
    cases h
    simp
  | case3 r => cases h
  | case4 r t after hescape ih =>
    obtain ⟨⟨t', rest'⟩, hrest, hpair⟩ := Option.map_eq_some_iff.mp h
    cases hpair
    have hlt := length_of_escaped? hescape
    have hle := ih hrest
    simp only [List.length_cons]
    omega
  | case5 => cases h
  | case6 c r _ _ _ ih =>
    obtain ⟨⟨t', rest'⟩, hrest, hpair⟩ := Option.map_eq_some_iff.mp h
    cases hpair
    have hle := ih hrest
    simp only [List.length_cons]
    omega

/-- The code and the literals of a script. -/
def tokens? (s : List Char) : Option (List Token) :=
  match s with
  | [] => some []
  | '"' :: r =>
    match _literal : literal? r with
    | none => none
    | some (text, rest) => (tokens? rest).map (.literal text :: ·)
  | c :: r =>
    if c = '\'' ∨ c = '`' ∨ c = '/' then none else (tokens? r).map (.code c :: ·)
termination_by s.length
decreasing_by
  · have := length_of_literal? _literal
    simp only [List.length_cons]
    omega
  · simp

end Script
end LoadTest

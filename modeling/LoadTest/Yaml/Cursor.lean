/-!
A place in a YAML text: what is left to read, and the line and column reached.
-/

namespace LoadTest
namespace Yaml

structure Cursor where
  rest : List Char
  index : Nat
  line : Nat
  column : Nat

/-- A line break. -/
def isBreak (c : Char) : Bool :=
  c = '\n' || c = '\r' || c.toNat = 0x85 || c.toNat = 0x2028 || c.toNat = 0x2029

/-- A blank or a tab. -/
def isBlank (c : Char) : Bool :=
  c = ' ' || c = '\t'

/-- A character that may stand in a YAML text. -/
def isPrintable (c : Char) : Bool :=
  let n := c.toNat
  n = 0x09 || n = 0x0A || n = 0x0D || (0x20 ≤ n && n ≤ 0x7E) || n = 0x85 ||
    (0xA0 ≤ n && n ≤ 0xFFFD) || 0x10000 ≤ n

namespace Cursor

/-- The start of a text; a byte order mark there is no part of it. -/
def start (s : List Char) : Cursor :=
  match s with
  | c :: r => if c.toNat = 0xFEFF then ⟨r, 0, 0, 0⟩ else ⟨s, 0, 0, 0⟩
  | [] => ⟨[], 0, 0, 0⟩

/-- The character `n` places ahead. -/
def peek (c : Cursor) (n : Nat) : Option Char :=
  c.rest[n]?

/-- The character `n` places ahead is `x`. -/
def sees (c : Cursor) (n : Nat) (x : Char) : Bool :=
  c.peek n = some x

/-- The character `n` places ahead satisfies `p`. -/
def seesWhere (c : Cursor) (n : Nat) (p : Char → Bool) : Bool :=
  (c.peek n).any p

def atEnd (c : Cursor) : Bool :=
  c.rest.isEmpty

/-- The text ends `n` places ahead, or a break is there. -/
def endsLine (c : Cursor) (n : Nat) : Bool :=
  match c.peek n with
  | none => true
  | some x => isBreak x

/-- A blank, a break or the end is `n` places ahead. -/
def endsWord (c : Cursor) (n : Nat) : Bool :=
  match c.peek n with
  | none => true
  | some x => isBlank x || isBreak x

/-- Pass `n` characters of one line. -/
def advance (c : Cursor) (n : Nat) : Cursor :=
  ⟨c.rest.drop n, c.index + n, c.line, c.column + n⟩

/-- Pass a break. -/
def nextLine (c : Cursor) : Cursor :=
  let n := if c.sees 0 '\r' && c.sees 1 '\n' then 2 else 1
  ⟨c.rest.drop n, c.index + n, c.line + 1, 0⟩

/-- What the break here is in the text of a scalar. -/
def breakChar (c : Cursor) : Char :=
  match c.peek 0 with
  | some x => if x.toNat = 0x2028 || x.toNat = 0x2029 then x else '\n'
  | none => '\n'

/-- `---` or `...` alone at the start of a line. -/
def atDocumentMark (c : Cursor) (x : Char) : Bool :=
  c.column = 0 && c.sees 0 x && c.sees 1 x && c.sees 2 x && c.endsWord 3

def atAnyDocumentMark (c : Cursor) : Bool :=
  c.atDocumentMark '-' || c.atDocumentMark '.'

end Cursor
end Yaml
end LoadTest

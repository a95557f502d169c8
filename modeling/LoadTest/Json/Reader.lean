import LoadTest.Json.Number
import LoadTest.Json.Quoted

/-!
The value that a JSON text denotes.

The reader is strict: nothing but blanks around the one value, no comments, no comma before a
closing bracket.  Brackets may be nested at most `maxDepth` deep.
-/

namespace LoadTest
namespace Json

def isSpace (c : Char) : Bool :=
  c = ' ' || c = '\n' || c = '\t' || c = '\r'

def skipSpaces (s : List Char) : List Char :=
  s.dropWhile isSpace

/-! ## Quoted texts

A text is first read as a list of units, a unit being a character or a number of sixteen bits
written in digits.  Two numbers that form a pair are one character. -/

inductive CodeUnit where
  | char (c : Char)
  | unit (n : Nat)

def hexValue? (c : Char) : Option Nat :=
  if '0' ≤ c ∧ c ≤ '9' then some (c.toNat - 0x30)
  else if 'a' ≤ c ∧ c ≤ 'f' then some (c.toNat - 0x61 + 10)
  else if 'A' ≤ c ∧ c ≤ 'F' then some (c.toNat - 0x41 + 10)
  else none

def hexUnit? (a b c d : Char) : Option Nat := do
  return 4096 * (← hexValue? a) + 256 * (← hexValue? b) + 16 * (← hexValue? c) + (← hexValue? d)

/-- The character that a backslash and `c` stand for. -/
def escaped? (c : Char) : Option Char :=
  if c = '"' then some '"'
  else if c = '\\' then some '\\'
  else if c = '/' then some '/'
  else if c = 'b' then some (Char.ofNat 0x08)
  else if c = 'f' then some (Char.ofNat 0x0C)
  else if c = 'n' then some '\n'
  else if c = 'r' then some '\r'
  else if c = 't' then some '\t'
  else none

def pushUnit (u : CodeUnit) (r : List CodeUnit × List Char) : List CodeUnit × List Char :=
  (u :: r.1, r.2)

/-- The units up to the closing quote, and the text behind it. -/
def units? : List Char → Option (List CodeUnit × List Char)
  | [] => none
  | '"' :: r => some ([], r)
  | '\\' :: 'u' :: a :: b :: c :: d :: r => do
    let n ← hexUnit? a b c d
    return pushUnit (.unit n) (← units? r)
  | '\\' :: e :: r => do
    let c ← escaped? e
    return pushUnit (.char c) (← units? r)
  | c :: r => do
    if c.toNat < 0x20 || c = '\\' then none else return pushUnit (.char c) (← units? r)

def isHighSurrogate (n : Nat) : Bool :=
  0xD800 ≤ n && n < 0xDC00

def isLowSurrogate (n : Nat) : Bool :=
  0xDC00 ≤ n && n < 0xE000

/-- The characters of a list of units; half of a pair alone is refused. -/
def joinUnits? : List CodeUnit → Option (List Char)
  | [] => some []
  | .char c :: r => do return c :: (← joinUnits? r)
  | .unit n :: .unit m :: r =>
    if isHighSurrogate n then
      if isLowSurrogate m then do
        let c := Char.ofNat (0x10000 + 0x400 * (n - 0xD800) + (m - 0xDC00))
        return c :: (← joinUnits? r)
      else none
    else if isLowSurrogate n then none
    else do return Char.ofNat n :: (← joinUnits? (.unit m :: r))
  | .unit n :: r =>
    if isHighSurrogate n || isLowSurrogate n then none
    else do return Char.ofNat n :: (← joinUnits? r)

/-- The text after an opening quote. -/
def string? (s : List Char) : Option (String × List Char) := do
  let (units, rest) ← units? s
  return (String.ofList (← joinUnits? units), rest)

/-- `s` behind the word `w`. -/
def word? (w : String) (s : List Char) : Option (List Char) :=
  w.toList.isPrefixOf? s

/-! ## Values -/

/-- Objects and arrays may be nested this deep. -/
def maxDepth : Nat := 127

mutual

/-- The value at the start of `s`.  `fuel` bounds the steps and `room` the brackets that may still
be opened. -/
def value? : Nat → Nat → List Char → Option (Json × List Char)
  | 0, _, _ => none
  | fuel + 1, room, s =>
    match s with
    | '"' :: r => (string? r).map fun (t, rest) => (str t, rest)
    | '[' :: r =>
      match room with
      | 0 => none
      | room + 1 =>
        match skipSpaces r with
        | ']' :: rest => some (arr [], rest)
        | r => (items? fuel room r).map fun (l, rest) => (arr l, rest)
    | '{' :: r =>
      match room with
      | 0 => none
      | room + 1 =>
        match skipSpaces r with
        | '}' :: rest => some (obj [], rest)
        | r => (fields? fuel room r).map fun (l, rest) => (obj l, rest)
    | 't' :: _ => (word? "true" s).map (bool true, ·)
    | 'f' :: _ => (word? "false" s).map (bool false, ·)
    | 'n' :: _ => (word? "null" s).map (null, ·)
    | _ => number? s

/-- The items of an array up to its closing bracket. -/
def items? : Nat → Nat → List Char → Option (List Json × List Char)
  | 0, _, _ => none
  | fuel + 1, room, s => do
    let (j, rest) ← value? fuel room (skipSpaces s)
    match skipSpaces rest with
    | ']' :: rest => some ([j], rest)
    | ',' :: rest =>
      let (l, rest) ← items? fuel room rest
      some (j :: l, rest)
    | _ => none

/-- The fields of an object up to its closing bracket. -/
def fields? : Nat → Nat → List Char → Option (List (String × Json) × List Char)
  | 0, _, _ => none
  | fuel + 1, room, s =>
    match skipSpaces s with
    | '"' :: r => do
      let (k, rest) ← string? r
      match skipSpaces rest with
      | ':' :: rest =>
        let (j, rest) ← value? fuel room (skipSpaces rest)
        match skipSpaces rest with
        | '}' :: rest => some ([(k, j)], rest)
        | ',' :: rest =>
          let (l, rest) ← fields? fuel room rest
          some ((k, j) :: l, rest)
        | _ => none
      | _ => none
    | _ => none

end

/-- The value of a whole text.  Every step but the last reads a character or opens a list, so
twice the length is fuel enough. -/
def ofText? (s : String) : Option Json :=
  let cs := s.toList
  match value? (2 * cs.length + 2) maxDepth (skipSpaces cs) with
  | some (j, rest) => if skipSpaces rest = [] then some j else none
  | none => none

end Json
end LoadTest

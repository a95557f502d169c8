import LoadTest.Yaml.Cursor

/-!
Scalars that may run over several lines.

Where a scalar is broken, blanks around the break are dropped; one break becomes a blank, and of
more breaks all but the first stay.
-/

namespace LoadTest
namespace Yaml

/-- What stands between two words of a scalar: blanks on one line, or breaks. -/
inductive Gap where
  | blanks (s : List Char)
  /-- The first break and those after it. -/
  | breaks (first : Char) (more : List Char)

def Gap.none : Gap := .blanks []

/-- The text that a gap becomes. -/
def Gap.folded : Gap → List Char
  | blanks s => s
  | breaks first more =>
    if first = '\n' then (if more = [] then [' '] else more) else first :: more

def Gap.isBroken : Gap → Bool
  | blanks _ => false
  | breaks .. => true

/-- Pass blanks and breaks behind a word.  `tabLimit` is the column before which no tab may stand
on a new line. -/
def skipGap (tabLimit : Nat) : Nat → Cursor → Gap → Option (Cursor × Gap)
  | 0, c, g => some (c, g)
  | fuel + 1, c, g =>
    match c.peek 0 with
    | none => some (c, g)
    | some x =>
      if isBlank x then
        match g with
        | .blanks s => skipGap tabLimit fuel (c.advance 1) (.blanks (s ++ [x]))
        | .breaks .. =>
          if c.column < tabLimit && x = '\t' then Option.none
          else skipGap tabLimit fuel (c.advance 1) g
      else if isBreak x then
        match g with
        | .blanks _ => skipGap tabLimit fuel c.nextLine (.breaks c.breakChar [])
        | .breaks first more =>
          skipGap tabLimit fuel c.nextLine (.breaks first (more ++ [c.breakChar]))
      else some (c, g)

/-! ## Quoted scalars -/

def hexValue? (c : Char) : Option Nat :=
  if '0' ≤ c ∧ c ≤ '9' then some (c.toNat - 0x30)
  else if 'a' ≤ c ∧ c ≤ 'f' then some (c.toNat - 0x61 + 10)
  else if 'A' ≤ c ∧ c ≤ 'F' then some (c.toNat - 0x41 + 10)
  else none

/-- The number that `n` hexadecimal digits denote. -/
def hexNumber? (s : List Char) (n : Nat) : Option Nat :=
  if s.length < n then none
  else (s.take n).foldlM (fun acc c => (hexValue? c).map (16 * acc + ·)) 0

/-- The character that a backslash and `c` stand for. -/
def escaped? (c : Char) : Option Nat :=
  match c with
  | '0' => some 0x00
  | 'a' => some 0x07
  | 'b' => some 0x08
  | 't' | '\t' => some 0x09
  | 'n' => some 0x0A
  | 'v' => some 0x0B
  | 'f' => some 0x0C
  | 'r' => some 0x0D
  | 'e' => some 0x1B
  | ' ' => some 0x20
  | '"' => some 0x22
  | '/' => some 0x2F
  | '\\' => some 0x5C
  | 'N' => some 0x85
  | '_' => some 0xA0
  | 'L' => some 0x2028
  | 'P' => some 0x2029
  | _ => none

/-- How many digits follow a backslash and `c`. -/
def escapeDigits? (c : Char) : Option Nat :=
  match c with
  | 'x' => some 2
  | 'u' => some 4
  | 'U' => some 8
  | _ => none

/-- The character of a code point. -/
def charOf? (n : Nat) : Option Char :=
  if n.isValidChar then some (Char.ofNat n) else none

/-- The character of an escape, and the length of the escape. -/
def readEscape (c : Cursor) : Option (Char × Nat) := do
  let x ← c.peek 1
  match escapeDigits? x with
  | some n => return (← charOf? (← hexNumber? (c.rest.drop 2) n), n + 2)
  | none => return (← charOf? (← escaped? x), 2)

/-- Read a quoted scalar up to and past its closing mark; `text` is what has been read. -/
def readQuoted (mark : Char) : Nat → Cursor → List Char → Option (List Char × Cursor)
  | 0, _, _ => none
  | fuel + 1, c, text =>
    if c.atAnyDocumentMark then none
    else do
      let x ← c.peek 0
      if x = mark then
        if mark = '\'' && c.sees 1 '\'' then readQuoted mark fuel (c.advance 2) (text ++ ['\''])
        else return (text, c.advance 1)
      else if mark = '"' && x = '\\' then
        if c.seesWhere 1 isBreak then
          let (c, g) ← skipGap 0 c.rest.length (c.advance 1).nextLine (.breaks '\n' [])
          let more :=
            match g with
            | .breaks _ more => more
            | .blanks _ => []
          readQuoted mark fuel c (text ++ more)
        else
          let (e, n) ← readEscape c
          readQuoted mark fuel (c.advance n) (text ++ [e])
      else if isBlank x || isBreak x then
        let (c, g) ← skipGap 0 c.rest.length c Gap.none
        readQuoted mark fuel c (text ++ g.folded)
      else readQuoted mark fuel (c.advance 1) (text ++ [x])

/-! ## Plain scalars -/

def isFlowMark (x : Char) : Bool :=
  x = ',' || x = '[' || x = ']' || x = '{' || x = '}'

/-- A plain scalar does not go on here. -/
def endsPlain (inFlow : Bool) (c : Cursor) : Bool :=
  (c.sees 0 ':' && c.endsWord 1) || (inFlow && c.seesWhere 0 isFlowMark)

/-- A colon in front of a mark is no part of a scalar in flow style. -/
def isMisplacedColon (inFlow : Bool) (c : Cursor) : Bool :=
  inFlow && c.sees 0 ':' && c.seesWhere 1 fun x => isFlowMark x || x = '?'

/-- The characters of a plain scalar up to the next blank. -/
def readPlainWord (inFlow : Bool) : Nat → Cursor → List Char → Option (List Char × Cursor)
  | 0, c, word => some (word, c)
  | fuel + 1, c, word =>
    match c.peek 0 with
    | none => some (word, c)
    | some x =>
      if isBlank x || isBreak x then some (word, c)
      else if isMisplacedColon inFlow c then none
      else if endsPlain inFlow c then some (word, c)
      else readPlainWord inFlow fuel (c.advance 1) (word ++ [x])

/-- What has been read of a plain scalar, and the gap behind it. -/
structure PlainText where
  text : List Char
  gap : Gap
  cursor : Cursor

/-- Read a plain scalar.  Outside flow style it ends where a line is indented less than
`indent`. -/
def readPlain (inFlow : Bool) (indent : Nat) : Nat → PlainText → Option PlainText
  | 0, p => some p
  | fuel + 1, p =>
    if p.cursor.atAnyDocumentMark || p.cursor.sees 0 '#' then some p
    else do
      let (word, c) ← readPlainWord inFlow p.cursor.rest.length p.cursor []
      let p : PlainText :=
        if word = [] then { p with cursor := c }
        else ⟨p.text ++ p.gap.folded ++ word, Gap.none, c⟩
      if c.seesWhere 0 fun x => isBlank x || isBreak x then
        let (c, g) ← skipGap indent c.rest.length c p.gap
        if !inFlow && c.column < indent then return ⟨p.text, g, c⟩
        else readPlain inFlow indent fuel ⟨p.text, g, c⟩
      else return p

/-! ## Block scalars -/

/-- What becomes of the breaks at the end of a block scalar. -/
inductive Chomping where
  | strip
  | clip
  | keep
  deriving DecidableEq

def chomping? (c : Cursor) : Option Chomping :=
  if c.sees 0 '+' then some .keep else if c.sees 0 '-' then some .strip else none

/-- The explicit indentation of a block scalar, one digit but not zero. -/
def indentDigit? (c : Cursor) : Option Nat :=
  match c.peek 0 with
  | some x => if x.isDigit then some (x.toNat - 0x30) else none
  | none => none

/-- The chomping and the explicit indentation of a block scalar, in either order. -/
def readBlockHeader (c : Cursor) : Option (Chomping × Option Nat × Cursor) := do
  let (chomping, c) :=
    match chomping? c with
    | some k => (some k, c.advance 1)
    | none => (none, c)
  let (digit, c) :=
    match indentDigit? c with
    | some n => (some n, c.advance 1)
    | none => (none, c)
  let (chomping, c) :=
    match chomping, digit, chomping? c with
    | none, some _, some k => (some k, c.advance 1)
    | _, _, _ => (chomping, c)
  if digit = some 0 then none else return (chomping.getD .clip, digit, c)

def skipBlanks : Nat → Cursor → Cursor
  | 0, c => c
  | fuel + 1, c => if c.seesWhere 0 isBlank then skipBlanks fuel (c.advance 1) else c

/-- The rest of a line, without its break. -/
def restOfLine (c : Cursor) : List Char :=
  c.rest.takeWhile fun x => !isBreak x

/-- Pass the rest of a line, if nothing but blanks and a comment is left on it. -/
def endLine? (c : Cursor) : Option Cursor :=
  let c := skipBlanks c.rest.length c
  let c := if c.sees 0 '#' then c.advance (restOfLine c).length else c
  if c.atEnd then some c else if c.endsLine 0 then some c.nextLine else none

/-- Pass indentation and empty lines: their breaks, and the deepest indentation met.  With no
`indent` known yet, all blanks count as indentation. -/
def skipIndent (indent : Option Nat) : Nat → Cursor → List Char → Nat →
    Option (Cursor × List Char × Nat)
  | 0, c, breaks, deepest => some (c, breaks, deepest)
  | fuel + 1, c, breaks, deepest =>
    let inIndent :=
      match indent with
      | some n => c.column < n
      | none => true
    match c.peek 0 with
    | some x =>
      if inIndent && x = ' ' then skipIndent indent fuel (c.advance 1) breaks deepest
      else
        let deepest := max deepest c.column
        if inIndent && x = '\t' then none
        else if isBreak x then
          skipIndent indent fuel c.nextLine (breaks ++ [c.breakChar]) deepest
        else some (c, breaks, deepest)
    | none => some (c, breaks, max deepest c.column)

/-- A block scalar as far as it has been read: its text, the break of the last line and the breaks
of the empty lines behind it. -/
structure BlockText where
  text : List Char
  lastBreak : List Char
  emptyBreaks : List Char
  /-- The last line starts with a blank, so that its break is kept. -/
  afterBlank : Bool
  cursor : Cursor

/-- The text with the breaks in front of a next line.  In a folded scalar one break becomes a blank
between two lines that do not start with one. -/
def BlockText.joined (literal nextBlank : Bool) (b : BlockText) : List Char :=
  if !literal && b.lastBreak = ['\n'] && !b.afterBlank && !nextBlank then
    b.text ++ (if b.emptyBreaks = [] then [' '] else b.emptyBreaks)
  else b.text ++ b.lastBreak ++ b.emptyBreaks

def readBlockLines (literal : Bool) (indent : Nat) : Nat → BlockText → Option BlockText
  | 0, b => some b
  | fuel + 1, b =>
    let c := b.cursor
    if c.column = indent && !c.atEnd then do
      let startsBlank := c.seesWhere 0 isBlank
      let line := restOfLine c
      let behind := c.advance line.length
      let (lastBreak, next) :=
        if behind.atEnd then ([], behind) else ([behind.breakChar], behind.nextLine)
      let (next, breaks, _) ← skipIndent (some indent) next.rest.length next [] 0
      readBlockLines literal indent fuel
        ⟨b.joined literal startsBlank ++ line, lastBreak, breaks, startsBlank, next⟩
    else some b

/-- Read a block scalar behind its mark, inside `parent` columns of indentation, `none` at the top
of a document. -/
def readBlockScalar (literal : Bool) (parent : Option Nat) (c : Cursor) :
    Option (List Char × Cursor) := do
  let (chomping, digit, c) ← readBlockHeader c
  let c ← endLine? c
  let known := digit.map (parent.getD 0 + ·)
  let (c, breaks, deepest) ← skipIndent known c.rest.length c [] 0
  let least :=
    match parent with
    | some n => n + 1
    | none => 1
  let indent := known.getD (max deepest least)
  let b ← readBlockLines literal indent (c.rest.length + 1) ⟨[], [], breaks, false, c⟩
  let tail :=
    match chomping with
    | .strip => []
    | .clip => b.lastBreak
    | .keep => b.lastBreak ++ b.emptyBreaks
  return (b.text ++ tail, b.cursor)

end Yaml
end LoadTest

import LoadTest.Text.Blank

/-!
The layout of a script: lines indented by the brackets that are open around them, and at most one
blank line at a time.

Brackets in quoted texts and in comments do not count.  Brackets opened on one line indent once.
A script is refused at the first bracket that does not fit and at a quoted text that goes past its
line.
-/

namespace LoadTest
namespace Layout

inductive Error where
  /-- A closing bracket that does not close the innermost open one. -/
  | unbalanced (line : Nat) (found : Char)
  | unclosed (line : Nat) (opener : Char)
  | unterminatedString (line : Nat)
  deriving DecidableEq

def Error.message : Error → String
  | unbalanced line found =>
    "line " ++ toString line ++ ": unexpected `" ++ found.toString ++ "`"
  | unclosed line opener =>
    "line " ++ toString line ++ ": `" ++ opener.toString ++ "` is never closed"
  | unterminatedString line => "line " ++ toString line ++ ": unterminated string literal"

/-- What surrounds a character of a script. -/
inductive Lexical where
  | code
  | quoted (mark : Char)
  | blockComment
  deriving DecidableEq

/-- A bracket that is open, and the line it is on. -/
structure Opener where
  bracket : Char
  line : Nat
  deriving DecidableEq

/-- The open brackets, innermost first. -/
abbrev Openers := List Opener

def isOpener (c : Char) : Bool :=
  c = '{' || c = '[' || c = '('

def isCloser (c : Char) : Bool :=
  c = '}' || c = ']' || c = ')'

def isQuote (c : Char) : Bool :=
  c = '"' || c = '\'' || c = '`'

/-- The bracket that closes `c`. -/
def closerOf (c : Char) : Char :=
  if c = '{' then '}' else if c = '[' then ']' else ')'

/-- The number of lines that `openers` are on. -/
def depth : Openers → Nat
  | [] => 0
  | [_] => 1
  | a :: b :: r => depth (b :: r) + if a.line = b.line then 0 else 1

/-- The closing brackets at the start of a line, up to the first character that is none of
brackets, blanks, semicolons and commas. -/
def leadingClosers (text : List Char) : List Char :=
  (text.takeWhile fun c => isCloser c || c = ' ' || c = ';' || c = ',').filter isCloser

/-- Read one line from the state `l`: the state and the open brackets at its end. -/
def scan (line : Nat) : Lexical → Openers → List Char → Except Error (Lexical × Openers)
  | l, openers, [] => .ok (l, openers)
  | .blockComment, openers, '*' :: '/' :: r => scan line .code openers r
  | .blockComment, openers, _ :: r => scan line .blockComment openers r
  | .quoted mark, openers, ['\\'] => .ok (.quoted mark, openers)
  | .quoted mark, openers, '\\' :: _ :: r => scan line (.quoted mark) openers r
  | .quoted mark, openers, c :: r =>
    scan line (if c = mark then .code else .quoted mark) openers r
  | .code, openers, '/' :: '/' :: _ => .ok (.code, openers)
  | .code, openers, '/' :: '*' :: r => scan line .blockComment openers r
  | .code, openers, c :: r =>
    if isQuote c then scan line (.quoted c) openers r
    else if isOpener c then scan line .code (⟨c, line⟩ :: openers) r
    else if isCloser c then
      match openers with
      | o :: rest =>
        if closerOf o.bracket = c then scan line .code rest r
        else .error (.unbalanced line c)
      | [] => .error (.unbalanced line c)
    else scan line .code openers r

/-! ## Lines -/

/-- `text` behind `level` indents of the given width; a blank line stays empty. -/
def indented (width level : Nat) (text : List Char) : List Char :=
  if text = [] then [] else List.replicate (level * width) ' ' ++ text

/-- What is known between two lines: the state, the open brackets and the lines laid out so far,
the latest first. -/
structure State where
  lexical : Lexical
  openers : Openers
  written : List (List Char)

def State.start : State :=
  ⟨.code, [], []⟩

/-- A blank line, unless nothing or a blank line stands before it. -/
def pushBlank : List (List Char) → List (List Char)
  | [] => []
  | [] :: r => [] :: r
  | line :: r => [] :: line :: r

/-- The lines without a blank one at their end. -/
def popBlank : List (List Char) → List (List Char)
  | [] :: r => r
  | lines => lines

/-- A line that goes on with a comment; its text stays as it is. -/
def commentLine (width number : Nat) (s : State) (text : List Char) : Except Error State := do
  let line := indented width (depth s.openers) text
  let (l, openers) ← scan number s.lexical s.openers text
  return ⟨l, openers, line :: s.written⟩

/-- A line of code, which is not blank.  The closing brackets that it starts with indent it as the
line that opened them, and take away a blank line before it. -/
def codeLine (width number : Nat) (s : State) (text : List Char) : Except Error State := do
  let leading := leadingClosers text
  match leading[s.openers.length]? with
  | some found => .error (.unbalanced number found)
  | none =>
    let line := indented width (depth (s.openers.drop leading.length)) text
    let written := if leading = [] then s.written else popBlank s.written
    let (l, openers) ← scan number s.lexical s.openers text
    match l with
    | .quoted _ => .error (.unterminatedString number)
    | _ => return ⟨l, openers, line :: written⟩

/-- Lay out the line called `number`. -/
def step (width number : Nat) (s : State) (raw : List Char) : Except Error State :=
  let text := Text.trim raw
  if s.lexical = .blockComment then commentLine width number s text
  else if text = [] then .ok { s with written := pushBlank s.written }
  else codeLine width number s text

/-- Lay out lines that are counted from `number` on. -/
def run (width : Nat) : Nat → State → List (List Char) → Except Error State
  | _, s, [] => .ok s
  | number, s, raw :: r => do run width (number + 1) (← step width number s raw) r

/-- The line ends with an opening bracket. -/
def opensBlock (line : List Char) : Bool :=
  match (Text.trimEnd line).getLast? with
  | some c => isOpener c
  | none => false

/-- The lines without the blank ones that follow a line ending with an opening bracket. -/
def dropAfterOpener (afterOpener : Bool) : List (List Char) → List (List Char)
  | [] => []
  | line :: r =>
    if line = [] ∧ afterOpener then dropAfterOpener true r
    else line :: dropAfterOpener (opensBlock line) r

/-- The lines without the blank ones at their end. -/
def dropTrailing (lines : List (List Char)) : List (List Char) :=
  (lines.reverse.dropWhile (· = [])).reverse

/-- The lines of a text, without their ends. -/
def linesOf (code : List Char) : List (List Char) :=
  let lines := code.splitOn '\n'
  if lines.getLast? = some [] then lines.dropLast else lines

def unlines (lines : List (List Char)) : List Char :=
  lines.flatMap (· ++ ['\n'])

/-- The lines of a script laid out, with indents of the given width. -/
def layoutLines (width : Nat) (lines : List (List Char)) : Except Error (List (List Char)) := do
  let s ← run width 1 State.start lines
  match s.openers.getLast? with
  | some o => .error (.unclosed o.line o.bracket)
  | none => return dropTrailing (dropAfterOpener false s.written.reverse)

end Layout

/-- A script laid out, with indents of the given width. -/
def layout (width : Nat) (code : String) : Except Layout.Error String := do
  let lines ← Layout.layoutLines width (Layout.linesOf code.toList)
  return String.ofList (Layout.unlines lines)

end LoadTest

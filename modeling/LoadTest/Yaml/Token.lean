import LoadTest.Yaml.Folding

/-!
The tokens of a YAML text.

Tokens mark where collections start and end, whether by brackets or by indentation.  A scalar that
turns out to be the key of a mapping is only known for one when the colon behind it is met, so the
place of the last possible key is remembered on every level of brackets and the marks are put in
front of it later.
-/

namespace LoadTest
namespace Yaml

inductive Token where
  | directive
  | documentStart
  | documentEnd
  /-- A sequence or a mapping that its indentation holds together. -/
  | blockSequence
  | blockMapping
  | blockEnd
  | flowSequence
  | flowSequenceEnd
  | flowMapping
  | flowMappingEnd
  /-- The dash in front of an item. -/
  | item
  | comma
  | key
  | value
  | alias (name : String)
  | anchor (name : String)
  | tag (name : String)
  | scalar (text : String) (plain : Bool)
  deriving DecidableEq

/-- A place where a key may have started. -/
structure PossibleKey where
  /-- The number of tokens in front of it. -/
  tokens : Nat
  /-- Nothing but a key can stand there. -/
  required : Bool
  line : Nat
  index : Nat
  column : Nat

/-- A text read up to some place. -/
structure Reading where
  cursor : Cursor
  tokens : Array Token
  /-- The indentation of the innermost block collection, and those around it. -/
  indents : List Nat
  /-- A key may start at the next token. -/
  keyAllowed : Bool
  /-- The last possible key on every level of brackets, innermost first. -/
  keys : List (Option PossibleKey)

namespace Reading

def start (s : List Char) : Reading :=
  ⟨Cursor.start s, #[], [], true, [none]⟩

def inFlow (r : Reading) : Bool :=
  1 < r.keys.length

def push (r : Reading) (t : Token) : Reading :=
  { r with tokens := r.tokens.push t }

/-- Put a token behind the first `n`. -/
def insertAt (r : Reading) (n : Nat) (t : Token) : Reading :=
  { r with tokens := r.tokens.extract 0 n ++ #[t] ++ r.tokens.extract n r.tokens.size }

def advance (r : Reading) (n : Nat) : Reading :=
  { r with cursor := r.cursor.advance n }

def allowKey (r : Reading) (b : Bool) : Reading :=
  { r with keyAllowed := b }

/-! ## Possible keys -/

/-- The innermost possible key is none after all. -/
def dropKey (r : Reading) : Option Reading :=
  match r.keys with
  | some k :: ks => if k.required then none else some { r with keys := none :: ks }
  | _ => some r

/-- Remember the next token as a possible key. -/
def saveKey (r : Reading) : Option Reading :=
  if r.keyAllowed then do
    let r ← r.dropKey
    let c := r.cursor
    let required := !r.inFlow && r.indents.head? = some c.column
    let k : PossibleKey := ⟨r.tokens.size, required, c.line, c.index, c.column⟩
    return { r with keys := some k :: r.keys.tail }
  else some r

/-- A key stays on its line and has at most 1024 characters. -/
def isStale (c : Cursor) (k : PossibleKey) : Bool :=
  k.line < c.line || k.index + 1024 < c.index

def freshKey? (c : Cursor) : Option PossibleKey → Option (Option PossibleKey)
  | none => some none
  | some k =>
    if isStale c k then (if k.required then none else some none) else some (some k)

def dropStaleKeys (r : Reading) : Option Reading :=
  (r.keys.mapM (freshKey? r.cursor)).map fun keys => { r with keys }

/-! ## Indentation -/

/-- The column lies further in than the innermost collection. -/
def isDeeper (indents : List Nat) (column : Nat) : Bool :=
  match indents with
  | [] => true
  | n :: _ => n < column

/-- Open a block collection at `column`, unless one is open there; its mark goes behind the first
`place` tokens. -/
def indentTo (r : Reading) (column place : Nat) (t : Token) : Reading :=
  if !r.inFlow && isDeeper r.indents column then
    { r.insertAt place t with indents := column :: r.indents }
  else r

/-- The indents that stay at a column, and how many do not. -/
def closedIndents (column : Option Nat) : List Nat → List Nat × Nat
  | [] => ([], 0)
  | n :: ns =>
    if column.all (· < n) then
      let (kept, closed) := closedIndents column ns
      (kept, closed + 1)
    else (n :: ns, 0)

/-- Close the block collections that lie further in than `column`, or all of them. -/
def dedentTo (r : Reading) (column : Option Nat) : Reading :=
  if r.inFlow then r
  else
    let (indents, closed) := closedIndents column r.indents
    { r with indents, tokens := r.tokens ++ Array.replicate closed Token.blockEnd }

/-! ## Between tokens -/

/-- Pass blanks, comments and breaks. -/
def skipToToken : Nat → Reading → Reading
  | 0, r => r
  | fuel + 1, r =>
    let c := r.cursor
    match c.peek 0 with
    | none => r
    | some x =>
      if c.column = 0 && x.toNat = 0xFEFF then skipToToken fuel (r.advance 1)
      else if x = ' ' || (x = '\t' && (r.inFlow || !r.keyAllowed)) then
        skipToToken fuel (r.advance 1)
      else if x = '#' then skipToToken fuel (r.advance (restOfLine c).length)
      else if isBreak x then
        skipToToken fuel { r with cursor := c.nextLine, keyAllowed := r.keyAllowed || !r.inFlow }
      else r

/-! ## Tokens -/

/-- Everything open by indentation ends at a mark between documents. -/
def endBlocks (r : Reading) : Option Reading :=
  return (← (r.dedentTo none).dropKey).allowKey false

def isNameChar (c : Char) : Bool :=
  c.isAlphanum || c = '_' || c = '-'

/-- The name of an anchor or an alias, behind its mark. -/
def readName (c : Cursor) : Option (String × Cursor) :=
  let name := c.rest.takeWhile isNameChar
  let behind := c.advance name.length
  let ended := behind.endsWord 0 || behind.seesWhere 0 fun x => "?:,]\x7d%@`".toList.contains x
  if name = [] || !ended then none else some (String.ofList name, behind)

def isTagChar (c : Char) : Bool :=
  isNameChar c || ";/?:@&=+$.!~*'()%".toList.contains c

/-- A tag, with the tags of the core schema under their full names. -/
def readTag (inFlow : Bool) (c : Cursor) : Option (String × Cursor) :=
  if c.sees 1 '<' then
    let name := (c.rest.drop 2).takeWhile fun x => isTagChar x || x = ',' || x = '[' || x = ']'
    let behind := c.advance (name.length + 2)
    if name ≠ [] && behind.sees 0 '>' && (behind.advance 1).endsWord 0 then
      some (String.ofList name, behind.advance 1)
    else none
  else
    let name := (c.rest.drop 1).takeWhile isTagChar
    let behind := c.advance (name.length + 1)
    let ended := behind.endsWord 0 || (inFlow && behind.sees 0 ',')
    if !ended then none
    else
      match name with
      | '!' :: core =>
        if core = [] then none else some ("tag:yaml.org,2002:" ++ String.ofList core, behind)
      | _ => if name.contains '!' then none else some ("!" ++ String.ofList name, behind)

/-- A directive: the version of YAML, or anything else that is understood. -/
def readDirective (r : Reading) : Option Reading := do
  let r ← r.endBlocks
  let line := restOfLine r.cursor
  let words := ((String.ofList line).splitOn " ").filter (· ≠ "")
  let behind := r.advance line.length
  match words with
  | "%YAML" :: version :: _ =>
    if version = "1.1" || version = "1.2" then return behind.push .directive else none
  | "%TAG" :: _ :: _ :: _ => return behind.push .directive
  | _ => none

def openFlow (r : Reading) (t : Token) : Option Reading := do
  let r ← r.saveKey
  return ({ r with keys := none :: r.keys, keyAllowed := true }.push t).advance 1

def closeFlow (r : Reading) (t : Token) : Option Reading := do
  let r ← r.dropKey
  let keys :=
    match r.keys with
    | _ :: k :: ks => k :: ks
    | ks => ks
  return ({ r with keys, keyAllowed := false }.push t).advance 1

/-- The dash in front of an item. -/
def readItem (r : Reading) : Option Reading := do
  if !r.inFlow && !r.keyAllowed then none
  else
    let r := r.indentTo r.cursor.column r.tokens.size .blockSequence
    return (((← r.dropKey).allowKey true).push .item).advance 1

/-- The question mark in front of a key. -/
def readKey (r : Reading) : Option Reading := do
  if !r.inFlow && !r.keyAllowed then none
  else
    let r := r.indentTo r.cursor.column r.tokens.size .blockMapping
    return (((← r.dropKey).allowKey !r.inFlow).push .key).advance 1

/-- The colon in front of a value.  What was remembered as a possible key is one now. -/
def readValue (r : Reading) : Option Reading :=
  match r.keys with
  | some k :: ks =>
    let r := ({ r with keys := none :: ks }.insertAt k.tokens .key).indentTo k.column k.tokens
      .blockMapping
    some (((r.allowKey false).push .value).advance 1)
  | _ =>
    if !r.inFlow && !r.keyAllowed then none
    else
      let r := r.indentTo r.cursor.column r.tokens.size .blockMapping
      some (((r.allowKey !r.inFlow).push .value).advance 1)

/-- A token that may be part of a key. -/
def pushKeyPart (r : Reading) (t : Token) (c : Cursor) : Option Reading := do
  let r ← r.saveKey
  return ({ r with cursor := c }.push t).allowKey false

def readBlock (literal : Bool) (r : Reading) : Option Reading := do
  let r ← r.dropKey
  let (text, c) ← readBlockScalar literal r.indents.head? (r.cursor.advance 1)
  return ({ r with cursor := c }.push (.scalar (String.ofList text) false)).allowKey true

def readPlainScalar (r : Reading) : Option Reading := do
  let indent :=
    match r.indents with
    | n :: _ => n + 1
    | [] => 0
  let fuel := r.cursor.rest.length + 1
  let p ← readPlain r.inFlow indent fuel ⟨[], Gap.none, r.cursor⟩
  let r ← r.pushKeyPart (.scalar (String.ofList p.text) true) p.cursor
  return r.allowKey p.gap.isBroken

/-- A plain scalar starts with the character here. -/
def startsPlain (r : Reading) (x : Char) : Bool :=
  let c := r.cursor
  !(isBlank x || "-?:,[]\x7b\x7d#&*!|>%@`\"".toList.contains x || x = '\'') ||
    (x = '-' && !c.seesWhere 1 isBlank) ||
    (!r.inFlow && (x = '?' || x = ':') && !c.endsWord 1)

/-- Read the token that starts with `x`. -/
def readToken (r : Reading) (x : Char) : Option Reading :=
  let c := r.cursor
  if c.column = 0 && x = '%' then r.readDirective
  else if c.atDocumentMark '-' then do
    return ((← r.endBlocks).push .documentStart).advance 3
  else if c.atDocumentMark '.' then do
    return ((← r.endBlocks).push .documentEnd).advance 3
  else if x = '[' then r.openFlow .flowSequence
  else if x = '{' then r.openFlow .flowMapping
  else if x = ']' then r.closeFlow .flowSequenceEnd
  else if x = '}' then r.closeFlow .flowMappingEnd
  else if x = ',' then do return (((← r.dropKey).allowKey true).push .comma).advance 1
  else if x = '-' && c.endsWord 1 then r.readItem
  else if x = '?' && (r.inFlow || c.endsWord 1) then r.readKey
  else if x = ':' && (r.inFlow || c.endsWord 1) then r.readValue
  else if x = '*' then do
    let (name, c) ← readName (c.advance 1)
    r.pushKeyPart (.alias name) c
  else if x = '&' then do
    let (name, c) ← readName (c.advance 1)
    r.pushKeyPart (.anchor name) c
  else if x = '!' then do
    let (name, c) ← readTag r.inFlow c
    r.pushKeyPart (.tag name) c
  else if x = '|' && !r.inFlow then r.readBlock true
  else if x = '>' && !r.inFlow then r.readBlock false
  else if x = '\'' || x = '"' then do
    let (text, c) ← readQuoted x (c.rest.length + 1) (c.advance 1) []
    r.pushKeyPart (.scalar (String.ofList text) false) c
  else if r.startsPlain x then r.readPlainScalar
  else none

/-- Read all tokens.  Each step passes a character, so the length of the text is fuel enough. -/
def readAll : Nat → Reading → Option Reading
  | 0, _ => none
  | fuel + 1, r => do
    let r ← (r.skipToToken r.cursor.rest.length).dropStaleKeys
    match r.cursor.peek 0 with
    | none => r.endBlocks
    | some x => readAll fuel (← (r.dedentTo (some r.cursor.column)).readToken x)

end Reading

/-- The tokens of a text. -/
def tokens? (text : String) : Option (List Token) := do
  let s := text.toList
  let r := Reading.start s
  if !r.cursor.rest.all isPrintable then none
  else return (← r.readAll (s.length + 1)).tokens.toList

end Yaml
end LoadTest

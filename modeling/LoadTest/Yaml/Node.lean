import LoadTest.Yaml.Token

/-!
The nodes of a YAML document: scalars, sequences and mappings.

An alias is a copy of the node that it names, so a document is a tree.
-/

namespace LoadTest
namespace Yaml

structure Scalar where
  text : String
  plain : Bool
  tag : Option String
  deriving DecidableEq

inductive Node where
  | scalar (s : Scalar)
  | sequence (tag : Option String) (items : List Node)
  | mapping (tag : Option String) (entries : List (Node × Node))
  deriving Inhabited

/-- What stands where a node was left out. -/
def Node.empty : Node :=
  .scalar ⟨"", true, none⟩

/-- Nodes that aliases may name, the latest first. -/
abbrev Anchors := List (String × Node)

/-- What is left of the tokens, and the anchors met so far. -/
structure Source where
  tokens : List Token
  anchors : Anchors

/-- A reader of tokens. -/
abbrev Reader := StateT Source Option

namespace Reader

def peek : Reader (Option Token) := do
  return (← get).tokens.head?

def skip : Reader Unit :=
  modify fun s => { s with tokens := s.tokens.drop 1 }

/-- The next token is one of `ts`. -/
def sees (ts : List Token) : Reader Bool := do
  return (← peek).any ts.contains

/-- Pass the token `t` if it is next. -/
def accept (t : Token) : Reader Bool := do
  if ← sees [t] then
    skip
    return true
  else return false

def expect (t : Token) : Reader Unit := do
  if ← accept t then return () else failure

/-- The anchor and the tag in front of a node, in either order. -/
def properties : Nat → Option String → Option String → Reader (Option String × Option String)
  | 0, a, t => return (a, t)
  | fuel + 1, a, t => do
    match ← peek, a, t with
    | some (.anchor name), none, _ =>
      skip
      properties fuel (some name) t
    | some (.tag name), _, none =>
      skip
      properties fuel a (some name)
    | _, _, _ => return (a, t)

/-- Let the node be known under its anchor. -/
def remember (anchor : Option String) (n : Node) : Reader Node := do
  match anchor with
  | some name =>
    modify fun s => { s with anchors := (name, n) :: s.anchors }
    return n
  | none => return n

mutual

/-- A node.  `block` allows collections that are held together by indentation, and `sameColumn` a
sequence as deep as the mapping around it. -/
def node (fuel : Nat) (block sameColumn : Bool) : Reader Node := do
  match fuel with
  | 0 => failure
  | fuel + 1 =>
    match ← peek with
    | some (.alias name) =>
      skip
      match (← get).anchors.lookup name with
      | some n => return n
      | none => failure
    | _ =>
      let (anchor, tag) ← properties 2 none none
      let n ← content fuel block sameColumn tag (anchor.isSome || tag.isSome)
      remember anchor n

/-- What follows the properties of a node. -/
def content (fuel : Nat) (block sameColumn : Bool) (tag : Option String) (mayBeEmpty : Bool) :
    Reader Node := do
  match fuel with
  | 0 => failure
  | fuel + 1 =>
    match ← peek with
    | some .item =>
      if sameColumn then return .sequence tag (← itemsSameColumn fuel)
      else if mayBeEmpty then return .scalar ⟨"", true, tag⟩
      else failure
    | some (.scalar text plain) =>
      skip
      -- a lone `!` says nothing about a scalar
      return .scalar ⟨text, plain, tag.filter (· ≠ "!")⟩
    | some .flowSequence =>
      skip
      return .sequence tag (← flowItems fuel true)
    | some .flowMapping =>
      skip
      return .mapping tag (← flowEntries fuel true)
    | some .blockSequence =>
      if block then
        skip
        return .sequence tag (← blockItems fuel)
      else if mayBeEmpty then return .scalar ⟨"", true, tag⟩
      else failure
    | some .blockMapping =>
      if block then
        skip
        return .mapping tag (← blockEntries fuel)
      else if mayBeEmpty then return .scalar ⟨"", true, tag⟩
      else failure
    | _ => if mayBeEmpty then return .scalar ⟨"", true, tag⟩ else failure

/-- A node, or the empty one if one of `ends` is next. -/
def nodeUnless (fuel : Nat) (ends : List Token) (block sameColumn : Bool) : Reader Node := do
  match fuel with
  | 0 => failure
  | fuel + 1 => if ← sees ends then return Node.empty else node fuel block sameColumn

/-- The items of a sequence up to the end of its indentation. -/
def blockItems (fuel : Nat) : Reader (List Node) := do
  match fuel with
  | 0 => failure
  | fuel + 1 =>
    if ← accept .item then
      let n ← nodeUnless fuel [.item, .blockEnd] true false
      return n :: (← blockItems fuel)
    else
      expect .blockEnd
      return []

/-- The items of a sequence as deep as the mapping around it. -/
def itemsSameColumn (fuel : Nat) : Reader (List Node) := do
  match fuel with
  | 0 => failure
  | fuel + 1 =>
    if ← accept .item then
      let n ← nodeUnless fuel [.item, .key, .value, .blockEnd] true false
      return n :: (← itemsSameColumn fuel)
    else return []

/-- The entries of a mapping up to the end of its indentation. -/
def blockEntries (fuel : Nat) : Reader (List (Node × Node)) := do
  match fuel with
  | 0 => failure
  | fuel + 1 =>
    let ends : List Token := [.key, .value, .blockEnd]
    if ← accept .blockEnd then return []
    else
      expect .key
      let k ← nodeUnless fuel ends true true
      let v ← if ← accept .value then nodeUnless fuel ends true true else pure Node.empty
      return (k, v) :: (← blockEntries fuel)

/-- The items of a bracketed sequence; an item may be a mapping of one entry. -/
def flowItems (fuel : Nat) (first : Bool) : Reader (List Node) := do
  match fuel with
  | 0 => failure
  | fuel + 1 =>
    if ← accept .flowSequenceEnd then return []
    else
      if !first then expect .comma
      if ← accept .flowSequenceEnd then return []
      else if ← accept .key then
        let k ← nodeUnless fuel [.value, .comma, .flowSequenceEnd] false false
        let v ←
          if ← accept .value then nodeUnless fuel [.comma, .flowSequenceEnd] false false
          else pure Node.empty
        return .mapping none [(k, v)] :: (← flowItems fuel false)
      else
        let n ← node fuel false false
        return n :: (← flowItems fuel false)

/-- The entries of a bracketed mapping; a node alone is a key without a value. -/
def flowEntries (fuel : Nat) (first : Bool) : Reader (List (Node × Node)) := do
  match fuel with
  | 0 => failure
  | fuel + 1 =>
    if ← accept .flowMappingEnd then return []
    else
      if !first then expect .comma
      if ← accept .flowMappingEnd then return []
      else if ← accept .key then
        let k ← nodeUnless fuel [.value, .comma, .flowMappingEnd] false false
        let v ←
          if ← accept .value then nodeUnless fuel [.comma, .flowMappingEnd] false false
          else pure Node.empty
        return (k, v) :: (← flowEntries fuel false)
      else
        let k ← node fuel false false
        return (k, Node.empty) :: (← flowEntries fuel false)

end

/-- Pass the tokens `t` that are next. -/
def skipAll (t : Token) : Nat → Reader Unit
  | 0 => return ()
  | fuel + 1 => do if ← accept t then skipAll t fuel else return ()

/-- The node behind the mark of a document, which may be left out. -/
def markedNode (fuel : Nat) : Reader Node := do
  skipAll .directive fuel
  expect .documentStart
  match ← peek with
  | none => return Node.empty
  | some _ => nodeUnless fuel [.directive, .documentStart, .documentEnd] true false

/-- The one document of a text; a text without any is an empty node. -/
def document (fuel : Nat) : Reader Node := do
  match ← peek with
  | none => return Node.empty
  | some _ =>
    let n ←
      if ← sees [.directive, .documentStart] then markedNode fuel else node fuel true false
    skipAll .documentEnd fuel
    match ← peek with
    | none => return n
    | some _ => failure

end Reader

namespace Node

/-- How deep collections are nested in a node. -/
def depth : Node → Nat
  | scalar _ => 0
  | sequence _ items => 1 + itemsDepth items
  | mapping _ entries => 1 + entriesDepth entries
where
  itemsDepth : List Node → Nat
    | [] => 0
    | n :: r => max n.depth (itemsDepth r)
  entriesDepth : List (Node × Node) → Nat
    | [] => 0
    | (k, v) :: r => max (max k.depth v.depth) (entriesDepth r)

/-- Collections may be nested this deep. -/
def maxDepth : Nat := 128

/-- The document that a text holds, if it is one. -/
def ofText? (text : String) : Option Node := do
  let tokens ← tokens? text
  let (n, _) ← (Reader.document (4 * tokens.length + 4)).run ⟨tokens, []⟩
  if n.depth ≤ maxDepth then return n else none

end Node
end Yaml
end LoadTest

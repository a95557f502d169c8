import LoadTest.Json.Number
import LoadTest.Json.Record
import LoadTest.Yaml.Node

/-!
The values of YAML nodes.

A plain scalar is what the core schema makes of it: null, a truth value, a number or else a text.
Where a text is asked for, any scalar is one, as it is written.
-/

namespace LoadTest
namespace Yaml

/-! ## The core schema -/

def isNullText (s : String) : Bool :=
  s = "null" || s = "Null" || s = "NULL" || s = "~"

def bool? (s : String) : Option Bool :=
  if s = "true" || s = "True" || s = "TRUE" then some true
  else if s = "false" || s = "False" || s = "FALSE" then some false
  else none

/-- `s` without a plus sign in front. -/
def dropPlus (s : List Char) : List Char :=
  match s with
  | '+' :: r => r
  | _ => s

/-- `s` without a sign in front. -/
def dropSign (s : List Char) : List Char :=
  match s with
  | '+' :: r | '-' :: r => r
  | _ => s

/-- A zero before other digits makes a text, not a number. -/
def isPaddedNumber (s : List Char) : Bool :=
  match dropSign s with
  | '0' :: d :: r => (d :: r).all Char.isDigit
  | _ => false

/-- The number that `s` denotes in a base of at most sixteen. -/
def natInBase? (base : Nat) (s : List Char) : Option Nat :=
  if s = [] then none
  else s.foldlM (fun n c => do
    let d ← hexValue? c
    if d < base then some (base * n + d) else none) 0

/-- The number after one of the marks `0x`, `0o` and `0b`. -/
def markedNat? : List Char → Option Nat
  | '0' :: 'x' :: r => natInBase? 16 r
  | '0' :: 'o' :: r => natInBase? 8 r
  | '0' :: 'b' :: r => natInBase? 2 r
  | _ => none

/-- A whole number without a minus sign. -/
def nat? (s : List Char) : Option Nat :=
  match markedNat? (dropPlus s) with
  | some n => some n
  | none => if isPaddedNumber s then none else natInBase? 10 (dropPlus s)

/-- A whole number. -/
def int? (s : List Char) : Option Int :=
  match nat? s with
  | some n => some n
  | none =>
    match s with
    | '-' :: r =>
      match markedNat? r with
      | some n => some (-n)
      | none => if isPaddedNumber s then none else (natInBase? 10 r).map fun n => -n
    | _ => none

/-- The nearest float to `digits * 10 ^ exponent`, if there is one below infinity. -/
def nearestFloat? (digits : List Char) (exponent : Int) : Option Float :=
  let m := Json.decimalValue digits
  if m = 0 then some 0
  else
    let top := exponent + Int.ofNat digits.length
    if 800 < top then none
    else if top < -800 then some 0
    else
      let x := Float.ofScientific m (exponent < 0) exponent.natAbs
      if Decimal.isFinite x then some x else none

/-- A decimal with an optional point and an optional exponent, and at least one digit. -/
def unsignedFloat? (s : List Char) : Option Float :=
  let (whole, rest) := Json.spanDigits s
  let (part, rest) :=
    match rest with
    | '.' :: r => Json.spanDigits r
    | _ => ([], rest)
  if whole = [] ∧ part = [] then none
  else
    let exponent : Option Int :=
      match rest with
      | [] => some 0
      | 'e' :: r | 'E' :: r =>
        match Json.exponent? r with
        | some (e, []) => some e
        | _ => none
      | _ => none
    exponent.bind fun e => nearestFloat? (whole ++ part) (e - Int.ofNat part.length)

def positiveInfinity : Float := 1 / 0

def notANumber : Float := 0 / 0

/-- A number, an infinity or not a number at all, each with a point where it needs one. -/
def float? (s : List Char) : Option Float :=
  let unsigned := dropPlus s
  let text := String.ofList s
  if [".inf", ".Inf", ".INF"].contains (String.ofList unsigned) then some positiveInfinity
  else if ["-.inf", "-.Inf", "-.INF"].contains text then some (-positiveInfinity)
  else if [".nan", ".NaN", ".NAN"].contains text then some notANumber
  else
    match unsigned with
    | '-' :: r => if unsigned = s then (unsignedFloat? r).map fun x => -x else none
    | _ => unsignedFloat? unsigned

/-- A whole number as a value; one of more than 64 bits has none. -/
def integerValue? (n : Int) : Option Json :=
  if Json.isWord n then some (.int n) else none

/-- Whole numbers up to this magnitude are told from floats. -/
def isWideWord (n : Int) : Bool :=
  -Int.ofNat (Nat.pow 2 127) ≤ n && n < Int.ofNat (Nat.pow 2 128)

/-- What the core schema makes of a plain scalar. -/
def plainValue? (text : String) : Option Json :=
  if text.isEmpty || isNullText text then some .null
  else
    match bool? text with
    | some b => some (.bool b)
    | none =>
      let s := text.toList
      match int? s with
      | some n =>
        if isWideWord n then integerValue? n else (float? s).map .float
      | none =>
        if isPaddedNumber s then some (.str text)
        else
          match float? s with
          | some x => some (.float x)
          | none => some (.str text)

def coreTag (name : String) : String :=
  "tag:yaml.org,2002:" ++ name

/-- A tag of one's own, which nothing here knows. -/
def isLocalTag (tag : Option String) : Bool :=
  tag.any (·.startsWith "!")

namespace Scalar

/-- The value of a scalar; a tag of the core schema asks for its kind. -/
def value? (s : Scalar) : Option Json :=
  if isLocalTag s.tag then none
  else
    match s.tag with
    | none => if s.plain then plainValue? s.text else some (.str s.text)
    | some t =>
      let chars := s.text.toList
      if t = coreTag "bool" then (bool? s.text).map .bool
      else if t = coreTag "int" then (int? chars).bind integerValue?
      else if t = coreTag "float" then (float? chars).map .float
      else if t = coreTag "null" then if isNullText s.text then some .null else none
      else some (.str s.text)

/-- A plain scalar that stands for nothing. -/
def isNothing (s : Scalar) : Bool :=
  s.plain && (s.tag = none || s.tag = some (coreTag "null")) &&
    (s.text.isEmpty || isNullText s.text)

end Scalar

namespace Node

/-! ## Values of any shape -/

/-- The scalar that a key is. -/
def scalar? : Node → Option Scalar
  | scalar s => some s
  | _ => none

mutual

/-- The value of a node, with `keyText` giving the names of its fields. -/
def value? (keyText : Scalar → Option String) : Node → Option Json
  | scalar s => s.value?
  | sequence tag items =>
    if isLocalTag tag then none else (values? keyText items).map .arr
  | mapping tag entries =>
    if isLocalTag tag then none else (fieldValues? keyText entries).map .obj

def values? (keyText : Scalar → Option String) : List Node → Option (List Json)
  | [] => some []
  | n :: r => do return (← n.value? keyText) :: (← values? keyText r)

def fieldValues? (keyText : Scalar → Option String) :
    List (Node × Node) → Option (List (String × Json))
  | [] => some []
  | (k, n) :: r => do
    let name ← k.scalar?.bind keyText
    return (name, ← n.value? keyText) :: (← fieldValues? keyText r)

end

/-- Any scalar names a field. -/
def anyKey (s : Scalar) : Option String :=
  some s.text

/-- Only a text names a field. -/
def textKey (s : Scalar) : Option String :=
  s.value?.bind Json.str?

/-! ## Values of a known shape -/

/-- An empty plain scalar stands for an empty collection. -/
def isLeftOut : Node → Bool
  | scalar s => s.plain && s.text.isEmpty
  | _ => false

def fields? (n : Node) : Option (List (String × Node)) :=
  match n with
  | mapping _ entries => entries.mapM fun (k, v) => k.scalar?.map fun s => (s.text, v)
  | _ => if n.isLeftOut then some [] else none

def items? (n : Node) : Option (List Node) :=
  match n with
  | sequence _ items => some items
  | _ => if n.isLeftOut then some [] else none

/-- Any scalar is a text. -/
def text? (n : Node) : Option String :=
  n.scalar?.map Scalar.text

/-- A text, or none where nothing stands. -/
def optionalText? (n : Node) : Option (Option String) :=
  n.scalar?.map fun s => if s.isNothing then none else some s.text

/-- The text of a plain scalar. -/
def plainText? (n : Node) : Option String :=
  n.scalar?.bind fun s => if s.plain then some s.text else none

/-- A whole number from zero to below `bound`. -/
def natBelow? (bound : Nat) (n : Node) : Option Nat :=
  (n.plainText?.bind fun s => int? s.toList).bind fun m => (Json.int m).nat? bound

def uint32? (n : Node) : Option UInt32 :=
  (n.natBelow? UInt32.size).map UInt32.ofNat

def uint64? (n : Node) : Option UInt64 :=
  (n.natBelow? UInt64.size).map UInt64.ofNat

def float? (n : Node) : Option Float :=
  n.plainText?.bind fun s => Yaml.float? s.toList

def bool? (n : Node) : Option Bool :=
  n.plainText?.bind Yaml.bool?

def listOf? {α : Type} (read : Node → Option α) (n : Node) : Option (List α) := do
  (← n.items?).mapM read

def dictOf? {α : Type} (read : Node → Option α) (n : Node) : Option (Dict α) := do
  let entries ← (← n.fields?).mapM fun e => (read e.2).map (e.1, ·)
  return Dict.ofList entries

end Node
end Yaml
end LoadTest

import LoadTest.Json.Basic

/-!
Numbers in JSON text.

A number without a point or an exponent is whole.  Any other is the whole number of its leading
digits, as many as 64 bits hold, scaled by a power of ten in floating point; a number too large
for a float is refused.
-/

namespace LoadTest
namespace Json

def digitValue (c : Char) : Nat :=
  c.toNat - 0x30

/-- The number that decimal digits denote. -/
def decimalValue (digits : List Char) : Nat :=
  digits.foldl (fun n c => 10 * n + digitValue c) 0

/-- The leading digits that fit 64 bits, added to `n`, and how many digits remain. -/
def leading : Nat → List Char → Nat × Nat
  | n, [] => (n, 0)
  | n, c :: r =>
    let m := 10 * n + digitValue c
    if m < UInt64.size then leading m r else (n, r.length + 1)

def powerOfTen (n : Nat) : Float :=
  Float.ofScientific 1 false n

/-- `x * 10 ^ e`, in at most `steps` divisions when `e` is far below zero. -/
def scale : Nat → Float → Int → Option Float
  | steps, x, e =>
    if e.natAbs ≤ 308 then
      if 0 ≤ e then
        let y := x * powerOfTen e.natAbs
        if Decimal.isFinite y then some y else none
      else some (x / powerOfTen e.natAbs)
    else if x == 0 then some x
    else if 0 ≤ e then none
    else
      match steps with
      | 0 => some 0
      | steps + 1 => scale steps (x / powerOfTen 308) (e + 308)

def signed (negative : Bool) (x : Float) : Float :=
  if negative then -x else x

/-- The number with the given digits before and after the point and after the exponent mark. -/
def fraction? (negative : Bool) (whole part : List Char) (exponent : Int) : Option Json :=
  let (n, left) := leading 0 whole
  let (m, rest) := leading n part
  let e := exponent + Int.ofNat left - Int.ofNat (part.length - rest)
  (scale 4 (Float.ofNat m) e).map fun x => float (signed negative x)

/-- A number without point and exponent; minus zero is a float. -/
def whole (negative : Bool) (digits : List Char) : Option Json :=
  let n := decimalValue digits
  if negative then
    if 0 < n ∧ n ≤ Nat.pow 2 63 then some (int (-n))
    else if n < UInt64.size then some (float (-(Float.ofNat n)))
    else fraction? negative digits [] 0
  else if n < UInt64.size then some (int n)
  else fraction? negative digits [] 0

/-- The digits at the start of a text and the rest. -/
def spanDigits (s : List Char) : List Char × List Char :=
  (s.takeWhile Char.isDigit, s.dropWhile Char.isDigit)

/-- The exponent after its mark, with its sign, and the rest. -/
def exponent? (s : List Char) : Option (Int × List Char) :=
  let (negative, s) :=
    match s with
    | '-' :: r => (true, r)
    | '+' :: r => (false, r)
    | _ => (false, s)
  let (digits, rest) := spanDigits s
  if digits = [] then none
  else
    let n := decimalValue digits
    some (if negative then -Int.ofNat n else Int.ofNat n, rest)

/-- The digits of the whole part: no zero before another digit. -/
def wholeDigits? (s : List Char) : Option (List Char × List Char) :=
  match spanDigits s with
  | ([], _) => none
  | ('0' :: _ :: _, _) => none
  | (digits, rest) => some (digits, rest)

/-- An optional exponent, which makes a number with `part` behind the point a fraction. -/
def afterPoint? (negative : Bool) (digits part s : List Char) : Option (Json × List Char) :=
  match s with
  | 'e' :: r | 'E' :: r => do
    let (e, rest) ← exponent? r
    return (← fraction? negative digits part e, rest)
  | _ => (fraction? negative digits part 0).map (·, s)

/-- The number at the start of a text, and the rest. -/
def number? (s : List Char) : Option (Json × List Char) := do
  let (negative, s) :=
    match s with
    | '-' :: r => (true, r)
    | _ => (false, s)
  let (digits, rest) ← wholeDigits? s
  match rest with
  | '.' :: r =>
    let (part, rest) := spanDigits r
    if part = [] then none else afterPoint? negative digits part rest
  | 'e' :: _ | 'E' :: _ => afterPoint? negative digits [] rest
  | _ => (whole negative digits).map (·, rest)

end Json
end LoadTest

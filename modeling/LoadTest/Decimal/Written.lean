import LoadTest.Decimal.Shortest

/-!
Decimals as text.

Two forms are in use.  `positional` never has an exponent and is what a script and a shown
parameter hold; `scientific` marks every number as a fraction and turns to an exponent outside
`1e-5 ≤ |x| < 1e16`, as a saved document does.
-/

namespace LoadTest
namespace Decimal

def zeros (n : Nat) : String :=
  String.ofList (List.replicate n '0')

/-- The decimal digits `s` with a point `point` places after their start. -/
def withPoint (s : String) (point : Nat) : String :=
  String.ofList (s.toList.take point) ++ "." ++ String.ofList (s.toList.drop point)

def Digits.positional (d : Digits) : String :=
  let s := toString d.digits
  let point := Int.ofNat s.length + d.exponent
  if 0 ≤ d.exponent then s ++ zeros d.exponent.toNat
  else if 0 < point then withPoint s point.toNat
  else "0." ++ zeros (-point).toNat ++ s

/-- The exponent after an `e`, with its sign. -/
def exponentText (e : Int) : String :=
  if e < 0 then "e-" ++ toString e.natAbs else "e+" ++ toString e.natAbs

def Digits.scientific (d : Digits) : String :=
  let s := toString d.digits
  let point := Int.ofNat s.length + d.exponent
  if -5 < point ∧ point ≤ 16 then
    if 0 ≤ d.exponent then d.positional ++ ".0" else d.positional
  else
    (if s.length = 1 then s else withPoint s 1) ++ exponentText (point - 1)

def signText (negative : Bool) : String :=
  if negative then "-" else ""

/-- The text of a number in a script: a whole number has no point, and there is no exponent. -/
def plainText (x : Float) : String :=
  match Binary.ofFloat x with
  | .nan => "NaN"
  | .infinite negative => signText negative ++ "inf"
  | .finite negative 0 _ => signText negative ++ "0"
  | .finite negative m e => signText negative ++ (shortest .up m e).positional

/-- The text of a number in a document; there is none for an infinity or a NaN. -/
def documentText? (x : Float) : Option String :=
  match Binary.ofFloat x with
  | .nan | .infinite _ => none
  | .finite negative 0 _ => some (signText negative ++ "0.0")
  | .finite negative m e => some (signText negative ++ (shortest .toEven m e).scientific)

end Decimal
end LoadTest

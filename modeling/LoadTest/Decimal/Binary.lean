/-!
A floating-point number taken apart: sign, mantissa and binary exponent, all exact.
-/

namespace LoadTest
namespace Decimal

/-- What the bits of a `Float` say. -/
inductive Binary where
  | nan
  | infinite (negative : Bool)
  /-- The number `mantissa * 2 ^ exponent`, with the sign kept apart so that zero has one too. -/
  | finite (negative : Bool) (mantissa : Nat) (exponent : Int)
  deriving DecidableEq

/-- The bit in front of the fraction, which is not stored. -/
def hiddenBit : Nat := Nat.pow 2 52

namespace Binary

def ofFloat (x : Float) : Binary :=
  let bits := x.toBits.toNat
  let negative := bits / Nat.pow 2 63 = 1
  let field := bits / hiddenBit % 2048
  let fraction := bits % hiddenBit
  if field = 2047 then
    if fraction = 0 then infinite negative else nan
  else if field = 0 then finite negative fraction (-1074)
  else finite negative (hiddenBit + fraction) (Int.ofNat field - 1075)

def isFinite : Binary → Bool
  | finite .. => true
  | _ => false

/-- The value, if it is a whole number. -/
def integer? : Binary → Option Int
  | finite negative m e =>
    let magnitude : Option Nat :=
      if 0 ≤ e then some (m * Nat.pow 2 e.toNat)
      else if m % Nat.pow 2 (-e).toNat = 0 then some (m / Nat.pow 2 (-e).toNat)
      else none
    magnitude.map fun n => if negative then -Int.ofNat n else Int.ofNat n
  | _ => none

end Binary

/-- Neither an infinity nor a NaN. -/
def isFinite (x : Float) : Bool :=
  (Binary.ofFloat x).isFinite

end Decimal
end LoadTest

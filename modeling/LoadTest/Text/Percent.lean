/-!
Percent-encoding of the UTF-8 bytes of a text, and its decoding.

Only the unreserved characters of a URL stay as they are, so an encoded text has none of the
characters that separate the parts of a query.
-/

namespace LoadTest
namespace Text

/-- Letters, digits and `-` `.` `_` `~`. -/
def isUnreserved (c : Char) : Bool :=
  c.isAlphanum || c = '-' || c = '.' || c = '_' || c = '~'

/-- The digit for `n`, which is below sixteen. -/
def hexDigit (n : Nat) : Char :=
  if n < 10 then Char.ofNat (n + 0x30) else Char.ofNat (n - 10 + 0x41)

/-- A byte as itself when it is an unreserved character, and else as `%` and two digits. -/
def percentByte (b : UInt8) : List Char :=
  let c := Char.ofNat b.toNat
  if isUnreserved c then [c] else ['%', hexDigit (b.toNat / 16), hexDigit (b.toNat % 16)]

/-- The bytes of a text in UTF-8. -/
def utf8 (s : List Char) : List UInt8 :=
  s.flatMap String.utf8EncodeChar

def percentEncode (s : List Char) : List Char :=
  (utf8 s).flatMap percentByte

/-- The value of a digit that `hexDigit` writes. -/
def hexValue? (c : Char) : Option Nat :=
  if '0' ≤ c ∧ c ≤ '9' then some (c.toNat - 0x30)
  else if 'A' ≤ c ∧ c ≤ 'F' then some (c.toNat - 0x41 + 10)
  else none

/-- The bytes of a percent-encoded text; a `%` without two digits is refused. -/
def percentDecode? : List Char → Option (List UInt8)
  | [] => some []
  | '%' :: a :: b :: s => do
    let high ← hexValue? a
    let low ← hexValue? b
    let rest ← percentDecode? s
    pure (UInt8.ofNat (high * 16 + low) :: rest)
  | c :: s => do
    if isUnreserved c then pure (UInt8.ofNat c.toNat :: (← percentDecode? s)) else none

@[simp] theorem percentEncode_nil : percentEncode [] = [] := rfl

theorem percentEncode_append (s t : List Char) :
    percentEncode (s ++ t) = percentEncode s ++ percentEncode t := by
  simp [percentEncode, utf8]

end Text
end LoadTest

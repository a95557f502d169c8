import LoadTest.Decimal.Binary

/-!
The shortest decimal that reads back as a given binary number.

The reals that round to the number `m * 2 ^ e` form an interval around it.  The decimal chosen is
the point of that interval on the coarsest grid `10 ^ k` that has one; of two such points the
nearer one is taken, and `Tie` says which when both are equally near.
-/

namespace LoadTest
namespace Decimal

/-- Which of two neighbours equally near is taken. -/
inductive Tie where
  | toEven
  | up
  deriving DecidableEq

/-- The positive decimal `digits * 10 ^ exponent`. -/
structure Digits where
  digits : Nat
  exponent : Int
  deriving DecidableEq

/-- The interval that rounds to `m * 2 ^ e`, in quarters of `2 ^ e`: below a power of two the
neighbour is half as far.  The ends round to an even mantissa only. -/
structure Interval where
  low : Nat
  value : Nat
  high : Nat
  closed : Bool

def Interval.around (m : Nat) (e : Int) : Interval where
  low := if m = hiddenBit ∧ -1074 < e then 4 * m - 1 else 4 * m - 2
  value := 4 * m
  high := 4 * m + 2
  closed := m % 2 = 0

/-- The fraction `2 ^ (e - 2) / 10 ^ k`, numerator and denominator: the length of a quarter of
`2 ^ e` in steps of the grid `10 ^ k`. -/
def quarterOnGrid (e k : Int) : Nat × Nat :=
  (Nat.pow 2 (e - 2).toNat * Nat.pow 10 (-k).toNat,
    Nat.pow 2 (2 - e).toNat * Nat.pow 10 k.toNat)

/-- The point of the grid `10 ^ k` that the interval offers, if it has one. -/
def pointOnGrid (tie : Tie) (i : Interval) (e k : Int) : Option Nat :=
  let (num, den) := quarterOnGrid e k
  let below := i.value * num / den
  let above := below + 1
  let hasBelow := 0 < below &&
    if i.closed then i.low * num ≤ below * den else i.low * num < below * den
  let hasAbove := if i.closed then above * den ≤ i.high * num else above * den < i.high * num
  if hasBelow && hasAbove then
    match compare (2 * i.value * num) ((below + above) * den) with
    | .lt => some below
    | .gt => some above
    | .eq =>
      match tie with
      | .toEven => some (if below % 2 = 0 then below else above)
      | .up => some above
  else if hasBelow then some below
  else if hasAbove then some above
  else none

/-- The first of the `n` grids `10 ^ k`, `10 ^ (k - 1)`, … with a point in the interval. -/
def coarsest (tie : Tie) (i : Interval) (e : Int) : Nat → Int → Option Digits
  | 0, _ => none
  | n + 1, k =>
    match pointOnGrid tie i e k with
    | some d => some ⟨d, k⟩
    | none => coarsest tie i e n (k - 1)

/-- A power of ten above `m * 2 ^ e`, by its exponent. -/
def gridAbove (m : Nat) (e : Int) : Int :=
  (Int.ofNat m.log2 + 1 + e) * 30103 / 100000 + 2

/-- The shortest decimal for `m * 2 ^ e`, where `m` is positive.  Twenty-two grids are enough:
seventeen digits always read back, and the search starts at most four grids too high. -/
def shortest (tie : Tie) (m : Nat) (e : Int) : Digits :=
  (coarsest tie (Interval.around m e) e 22 (gridAbove m e)).getD ⟨m * Nat.pow 2 e.toNat, 0⟩

end Decimal
end LoadTest

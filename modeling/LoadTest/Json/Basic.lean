import LoadTest.Dict
import LoadTest.Decimal.Binary

/-!
JSON values.

Whole numbers and fractions are told apart, and an object keeps its fields in the order in which
they were written, repetitions included.  `canonical` is the value as a map knows it: fields in
order of their names, the last of equal names, and numbers that have a JSON form.
-/

namespace LoadTest

inductive Json where
  | null
  | bool (b : Bool)
  | int (n : Int)
  | float (x : Float)
  | str (s : String)
  | arr (items : List Json)
  | obj (fields : List (String × Json))
  deriving Inhabited

namespace Json

/-- A number with a fraction; an infinity or a NaN has no JSON form and is written as null. -/
def number (x : Float) : Json :=
  if Decimal.isFinite x then float x else null

/-- A whole number of 64 bits, with or without a sign. -/
def isWord (n : Int) : Bool :=
  -Int.ofNat (Nat.pow 2 63) ≤ n && n < Int.ofNat UInt64.size

/-- A whole number as it is kept: one of more than 64 bits becomes a float. -/
def integer (n : Int) : Json :=
  if isWord n then int n else number (Float.ofInt n)

mutual

def canonical : Json → Json
  | null => null
  | bool b => bool b
  | int n => integer n
  | float x => number x
  | str s => str s
  | arr items => arr (canonicalItems items)
  | obj fields => obj (Dict.ofList (canonicalFields fields)).entries

def canonicalItems : List Json → List Json
  | [] => []
  | j :: r => j.canonical :: canonicalItems r

def canonicalFields : List (String × Json) → List (String × Json)
  | [] => []
  | (k, j) :: r => (k, j.canonical) :: canonicalFields r

end

theorem canonicalItems_eq_map (l : List Json) : canonicalItems l = l.map canonical := by
  induction l with
  | nil => rfl
  | cons j r ih => simp [canonicalItems, ih]

theorem canonicalFields_eq_map (l : List (String × Json)) :
    canonicalFields l = l.map fun e => (e.1, e.2.canonical) := by
  induction l with
  | nil => rfl
  | cons e r ih => simp [canonicalFields, ih]

theorem canonical_number (x : Float) : (number x).canonical = number x := by
  unfold number
  split <;> simp_all [canonical, number]

theorem canonical_integer (n : Int) : (integer n).canonical = integer n := by
  unfold integer
  split
  · simp_all [canonical, integer]
  · exact canonical_number _

mutual

/-- A canonical value is its own canonical form. -/
theorem canonical_canonical : ∀ j : Json, j.canonical.canonical = j.canonical
  | null => rfl
  | bool _ => rfl
  | int n => by simp only [canonical, canonical_integer]
  | float x => by simp only [canonical, canonical_number]
  | str _ => rfl
  | arr items => by
    simp only [canonical, canonicalItems_eq_map]
    congr 1
    simpa [canonicalItems_eq_map] using canonical_items items
  | obj fields => by
    have hf := canonical_fields fields
    simp only [canonical]
    congr 2
    rw [canonicalFields_eq_map]
    have : (Dict.ofList (canonicalFields fields)).entries.map (fun e => (e.1, e.2.canonical))
        = (Dict.ofList (canonicalFields fields)).entries := by
      conv => rhs; rw [← List.map_id (Dict.ofList (canonicalFields fields)).entries]
      exact List.map_congr_left fun e he => by
        simp [hf e (Dict.mem_of_mem_ofList he)]
    rw [this, Dict.ofList_entries]

theorem canonical_items : ∀ l : List Json,
    (l.map canonical).map canonical = l.map canonical
  | [] => rfl
  | j :: r => by simp [canonical_canonical j, canonical_items r]

theorem canonical_fields : ∀ l : List (String × Json),
    ∀ e ∈ canonicalFields l, e.2.canonical = e.2
  | [] => by simp [canonicalFields]
  | (k, j) :: r => by
    intro e he
    simp only [canonicalFields, List.mem_cons] at he
    rcases he with rfl | he
    · exact canonical_canonical j
    · exact canonical_fields r e he

end

/-- The value of a field of an object. -/
def field? (j : Json) (name : String) : Option Json :=
  match j with
  | obj fields => fields.lookup name
  | _ => none

def str? : Json → Option String
  | str s => some s
  | _ => none

def bool? : Json → Option Bool
  | bool b => some b
  | _ => none

def array? : Json → Option (List Json)
  | arr items => some items
  | _ => none

def object? : Json → Option (List (String × Json))
  | obj fields => some fields
  | _ => none

/-- Any number, as a float. -/
def float? : Json → Option Float
  | int n => some (Float.ofInt n)
  | float x => some x
  | _ => none

/-- A whole number from zero to below `bound`. -/
def nat? (bound : Nat) : Json → Option Nat
  | int n => if 0 ≤ n ∧ n < bound then some n.toNat else none
  | _ => none

def isNull : Json → Bool
  | null => true
  | _ => false

end Json
end LoadTest

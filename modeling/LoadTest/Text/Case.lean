import LoadTest.Text.Blank
import LoadTest.Text.CaseTable
import LoadTest.Text.CasedTable

/-!
Upper and lower case of a text, after Unicode: some letters grow (`ß` has the upper case `SS`),
and a capital sigma at the end of a word has a lower case of its own.
-/

namespace LoadTest
namespace Text

/-- The images of `c` under a table of runs and of longer images. -/
def mapCase (runs : List Run) (expansions : List (Nat × List Nat)) (c : Char) : List Char :=
  match expansions.lookup c.toNat with
  | some image => image.map Char.ofNat
  | none =>
    match runs.findSome? (·.image? c.toNat) with
    | some n => [Char.ofNat n]
    | none => [c]

def upperChar (c : Char) : List Char :=
  if c.toNat < 0x80 then [c.toUpper] else mapCase upperRuns upperExpansions c

def lowerChar (c : Char) : List Char :=
  if c.toNat < 0x80 then [c.toLower] else mapCase lowerRuns lowerExpansions c

def isCased (c : Char) : Bool :=
  inRanges casedRanges c.toNat

def isCaseIgnorable (c : Char) : Bool :=
  inRanges ignorableRanges c.toNat

/-- The first character of `s` that is not case-ignorable is cased. -/
def meetsCased (s : List Char) : Bool :=
  ((s.dropWhile isCaseIgnorable).head?.map isCased).getD false

def capitalSigma : Char := 'Σ'

/-- The lower case of a capital sigma between `before`, nearest first, and `after`. -/
def lowerSigma (before after : List Char) : Char :=
  if meetsCased before && !meetsCased after then 'ς' else 'σ'

/-- The lower case of `s`, which follows the characters `before`, nearest first. -/
def lowerFrom (before : List Char) : List Char → List Char
  | [] => []
  | c :: s =>
    (if c = capitalSigma then [lowerSigma before s] else lowerChar c) ++ lowerFrom (c :: before) s

def lower (s : List Char) : List Char :=
  lowerFrom [] s

def upper (s : List Char) : List Char :=
  s.flatMap upperChar

@[simp] theorem lower_nil : lower [] = [] := rfl

@[simp] theorem upper_nil : upper [] = [] := rfl

theorem upper_append (s t : List Char) : upper (s ++ t) = upper s ++ upper t := by
  simp [upper]

end Text
end LoadTest

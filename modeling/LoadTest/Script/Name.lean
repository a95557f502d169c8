/-!
The name of the function that a scenario becomes.

Words are separated by blanks; of each only ASCII letters, digits and underscores are kept.  The
first word starts in lower case and every other one in upper case.  An underscore goes in front
of a name that would start with a digit or be empty.
-/

namespace LoadTest
namespace Script

def isNameChar (c : Char) : Bool :=
  c.isAlphanum || c = '_'

/-- A character that a name may start with. -/
def isNameStart (c : Char) : Bool :=
  c.isAlpha || c = '_'

/-- The words of `s`, as far as they are kept. -/
def nameWords (s : List Char) : List (List Char) :=
  ((s.splitOn ' ').map (·.filter isNameChar)).filter (· ≠ [])

def mapFirst (f : Char → Char) : List Char → List Char
  | [] => []
  | c :: r => f c :: r

/-- Words joined, the first letter of each but the first one raised. -/
def camelCase : List (List Char) → List Char
  | [] => []
  | w :: ws => mapFirst Char.toLower w ++ ws.flatMap (mapFirst Char.toUpper)

/-- `s` as it is if it is a name, and else behind an underscore. -/
def guardStart (s : List Char) : List Char :=
  match s with
  | [] => ['_']
  | c :: _ => if isNameStart c then s else '_' :: s

def functionChars (s : List Char) : List Char :=
  guardStart (camelCase (nameWords s))

/-- The function that the scenario called `name` becomes. -/
def functionName (name : String) : String :=
  String.ofList (functionChars name.toList)

end Script
end LoadTest

import LoadTest.Text.Search

/-!
Tokens: a name between two pairs of braces, which stands for the value of a variable.
-/

namespace LoadTest
namespace Token

def opening : List Char := ['{', '{']

def closing : List Char := ['}', '}']

/-- The token for the variable `name`. -/
def written (name : List Char) : List Char :=
  opening ++ name ++ closing

/-- A name that a token can have: not empty, and no token starts inside it. -/
def isName (s : List Char) : Bool :=
  !s.isEmpty && !Text.occurs opening s

/-- The names of the tokens in a text, in order, repetitions included.  Reading goes on behind the
first closing braces after each pair of opening ones. -/
def names (s : List Char) : List (List Char) :=
  match _outer : Text.cut? opening s with
  | none => []
  | some (_, after) =>
    match _inner : Text.cut? closing after with
    | none => []
    | some (name, rest) => if isName name then name :: names rest else names rest
termination_by s.length
decreasing_by
  all_goals
    have := Text.length_of_cut? _outer
    have := Text.length_of_cut? _inner
    simp only [opening, closing, List.length_cons, List.length_nil] at *
    omega

end Token
end LoadTest

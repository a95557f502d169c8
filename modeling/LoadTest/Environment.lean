import LoadTest.Dict
import LoadTest.Token

/-!
Environments: values for the tokens of a test.
-/

namespace LoadTest

structure Environment where
  name : String
  description : Option String
  /-- The values of the variables, by name. -/
  values : Dict String
  deriving DecidableEq

namespace Environment

def new (name : String) : Environment :=
  ⟨name, none, Dict.empty⟩

def empty : Environment :=
  new ""

/-- Give the variable `name` a value. -/
def withVariable (e : Environment) (name value : String) : Environment :=
  { e with values := e.values.insert name value }

/-- Every token of one variable replaced by its value. -/
def substituteOne (s : List Char) (v : String × String) : List Char :=
  Text.replace (Token.written v.1.toList) v.2.toList s

/-- The tokens of known variables replaced by their values, one variable after the other in the
order of their names.  A value that brings a token is replaced in turn if that comes later. -/
def substituteChars (e : Environment) (s : List Char) : List Char :=
  if Text.occurs Token.opening s then e.values.entries.foldl substituteOne s else s

def substitute (e : Environment) (text : String) : String :=
  String.ofList (e.substituteChars text.toList)

end Environment

/-- The names of the tokens in `text`. -/
def unresolvedTokens (text : String) : List String :=
  (Token.names text.toList).map String.ofList

end LoadTest

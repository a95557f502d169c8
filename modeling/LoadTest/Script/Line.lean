import LoadTest.Json.Quoted

/-!
Lines of a script.

A line is made of code and of texts that stand between quotes in it, so what a user has written
can be told from what the script is.
-/

namespace LoadTest
namespace Script

inductive Piece where
  | code (s : String)
  | quoted (s : String)
  deriving DecidableEq

abbrev Line := List Piece

def Piece.render : Piece → String
  | code s => s
  | quoted s => Json.quote s

def Line.render (l : Line) : String :=
  String.join (l.map Piece.render)

/-- Lines as text, each with its end. -/
def renderLines (lines : List Line) : String :=
  String.join (lines.map fun l => l.render ++ "\n")

end Script
end LoadTest

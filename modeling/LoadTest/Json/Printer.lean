import LoadTest.Json.Basic
import LoadTest.Json.Quoted
import LoadTest.Decimal.Written

/-!
JSON values as text: on one line without blanks, or with one item or field a line.
-/

namespace LoadTest
namespace Json

def floatText (x : Float) : String :=
  (Decimal.documentText? x).getD "null"

mutual

/-- The text without any blanks. -/
def compact : Json → String
  | null => "null"
  | bool b => if b then "true" else "false"
  | int n => toString n
  | float x => floatText x
  | str s => quote s
  | arr items => "[" ++ ",".intercalate (compactItems items) ++ "]"
  | obj fields => "\x7b" ++ ",".intercalate (compactFields fields) ++ "\x7d"

def compactItems : List Json → List String
  | [] => []
  | j :: r => j.compact :: compactItems r

def compactFields : List (String × Json) → List String
  | [] => []
  | (k, j) :: r => (quote k ++ ":" ++ j.compact) :: compactFields r

end

/-- The start of a line inside `level` brackets. -/
def margin (level : Nat) : String :=
  String.ofList (List.replicate (2 * level) ' ')

/-- A bracketed list with a line for each entry; an empty one stays on its line. -/
def bracketed (level : Nat) (opening closing : String) (entries : List String) : String :=
  match entries with
  | [] => opening ++ closing
  | _ => opening ++ "\n" ++ ",\n".intercalate (entries.map (margin (level + 1) ++ ·)) ++
      "\n" ++ margin level ++ closing

mutual

/-- The text with an entry a line, inside `level` brackets. -/
def prettyAt (level : Nat) : Json → String
  | arr items => bracketed level "[" "]" (prettyItems (level + 1) items)
  | obj fields => bracketed level "\x7b" "\x7d" (prettyFields (level + 1) fields)
  | null => "null"
  | bool b => if b then "true" else "false"
  | int n => toString n
  | float x => floatText x
  | str s => quote s

def prettyItems (level : Nat) : List Json → List String
  | [] => []
  | j :: r => j.prettyAt level :: prettyItems level r

def prettyFields (level : Nat) : List (String × Json) → List String
  | [] => []
  | (k, j) :: r => (quote k ++ ": " ++ j.prettyAt level) :: prettyFields level r

end

def pretty (j : Json) : String :=
  j.prettyAt 0

end Json
end LoadTest

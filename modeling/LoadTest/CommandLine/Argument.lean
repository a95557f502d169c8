import LoadTest.Record
import LoadTest.Text.Search

/-!
The arguments of a command: options, each with a value.

A value is attached to its option or is the next argument, which then has to be a word.
-/

namespace LoadTest
namespace CommandLine

/-- One argument as it is written. -/
inductive Argument where
  /-- Written `--name` or `--name=value`. -/
  | long (name : String) (value : Option String)
  /-- Written `-c`, `-cvalue` or `-c=value`. -/
  | short (letter : Char) (value : Option String)
  /-- Two dashes alone, which end the options. -/
  | stop
  | word (text : String)
  deriving DecidableEq

namespace Argument

def ofChars : List Char → Argument
  | ['-', '-'] => stop
  | '-' :: '-' :: r =>
    match Text.cut? ['='] r with
    | some (name, value) => long (String.ofList name) (some (String.ofList value))
    | none => long (String.ofList r) none
  | ['-', c] => short c none
  | '-' :: c :: '=' :: value => short c (some (String.ofList value))
  | '-' :: c :: value => short c (some (String.ofList value))
  | s => word (String.ofList s)

def ofText (s : String) : Argument :=
  ofChars s.toList

/-- The text of an argument that is a word. -/
def word? : Argument → Option String
  | word text => some text
  | _ => none

end Argument

/-- An option: its name, and the letter that it may be shortened to. -/
structure Setting where
  name : String
  letter : Option Char
  deriving DecidableEq

/-- The values that were given, each under the name of its option. -/
abbrev Given := List (String × String)

/-- The option of `known` that an argument names, with the value attached to it. -/
def settingOf? (known : List Setting) : Argument → Option (Setting × Option String)
  | .long name value => (known.find? (·.name = name)).map (·, value)
  | .short letter value => (known.find? (·.letter = some letter)).map (·, value)
  | _ => none

/-- What `args` give for the options of `known`, if they hold nothing else. -/
def given? (known : List Setting) : List String → Option Given
  | [] => some []
  | arg :: rest =>
    match Argument.ofText arg with
    | .stop => if rest = [] then some [] else none
    | a =>
      match settingOf? known a with
      | none => none
      | some (s, some value) => (given? known rest).map ((s.name, value) :: ·)
      | some (s, none) =>
        match rest with
        | [] => none
        | next :: rest => do
          let value ← (Argument.ofText next).word?
          return (s.name, value) :: (← given? known rest)

/-- A path is not empty. -/
def path? (value : String) : Option String :=
  if value.isEmpty then none else some value

/-- A variable and its value, divided by the first equals sign. -/
def assignment? (value : String) : Option (String × String) :=
  (Text.cut? ['='] value.toList).map fun (k, v) => (String.ofList k, String.ofList v)

end CommandLine
end LoadTest

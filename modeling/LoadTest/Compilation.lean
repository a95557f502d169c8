import LoadTest.Completeness
import LoadTest.Config
import LoadTest.Layout
import LoadTest.Plan.OfComplete
import LoadTest.Script

/-!
From a test to a script: the test is read as a complete one, planned, written and laid out.
-/

namespace LoadTest

inductive FormatError where
  | layout (e : Layout.Error)
  /-- A formatter other than the built-in one has failed. -/
  | external (message : String)
  deriving DecidableEq

def FormatError.message : FormatError → String
  | layout e => e.message
  | external message => "external formatter failed: " ++ message

/-- What lays out a script. -/
abbrev Formatter := String → Except FormatError String

/-- The built-in formatter, with indents of the given width. -/
def Formatter.builtIn (width : Nat) : Formatter := fun code =>
  (layout width code).mapError .layout

inductive CompileError where
  | incomplete (issues : List Issue)
  | format (e : FormatError)
  deriving DecidableEq

def CompileError.message : CompileError → String
  | incomplete issues => "test is not complete: " ++ "; ".intercalate (issues.map Issue.message)
  | format e => "failed to format script: " ++ e.message

/-- A token that is left in a script. -/
structure Warning where
  token : String
  environment : String
  deriving DecidableEq

def Warning.message (w : Warning) : String :=
  "no value for variable `" ++ w.token ++ "` in environment `" ++ w.environment ++ "`"

/-- What writing a script comes to: its code, which is not laid out yet, and the warnings given on
the way. -/
structure Emission where
  code : String
  warnings : List Warning

/-- What a compilation comes to: a script or an error, and the warnings given on the way. -/
structure Compilation where
  result : Except CompileError String
  warnings : List Warning

namespace Plan

/-- The warnings that writing the script gives. -/
def warnings (e : Environment) (p : Plan) (warnUnresolved : Bool) : List Warning :=
  if warnUnresolved then (p.unresolved e).map fun token => ⟨token, e.name⟩ else []

/-- Write the script of `p` in the environment `e`. -/
def emit (e : Environment) (warnUnresolved : Bool) (p : Plan) : Emission :=
  ⟨p.script e, p.warnings e warnUnresolved⟩

end Plan

namespace Test

/-- The plan of a test, if it is complete. -/
def plan (t : Test) : Except CompileError Plan :=
  match t.complete with
  | .ok c => .ok (Plan.ofComplete c)
  | .error issues => .error (.incomplete issues)

/-- Compile with a formatter of one's own.  Names are compared again with the environment applied,
which may make them clash. -/
def compileWith (format : Formatter) (warnUnresolved : Bool) (e : Environment) (t : Test) :
    Compilation :=
  match t.complete with
  | .error issues => ⟨.error (.incomplete issues), []⟩
  | .ok c =>
    match Completeness.nameClashes e.substitute c.scenarios with
    | [] =>
      let written := (Plan.ofComplete c).emit e warnUnresolved
      ⟨(format written.code).mapError .format, written.warnings⟩
    | clashes => ⟨.error (.incomplete clashes), []⟩

/-- Compile with the built-in formatter. -/
def compile (config : Config) (e : Environment) (t : Test) : Compilation :=
  t.compileWith (Formatter.builtIn config.indentWidth.toNat) config.warnUnresolved e

end Test
end LoadTest

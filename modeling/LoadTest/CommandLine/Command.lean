import LoadTest.CommandLine.Argument

/-!
The commands, as they are given by arguments.
-/

namespace LoadTest
namespace CommandLine

open Record (required withDefault valuesOf)

/-- What a test is compiled with. -/
structure CompileOptions where
  environment : Option String
  /-- Variables that take the place of those in the environment. -/
  assignments : List (String × String)
  config : Option String
  /-- Where the script goes, if it is not to be printed. -/
  out : Option String
  deriving DecidableEq

inductive Command where
  | compile (file : String) (options : CompileOptions)
  | validate (file : String)
  /-- Print the plan of the test. -/
  | plan (file : String)
  deriving DecidableEq

namespace Command

def file : Setting := ⟨"file", some 'f'⟩

def environment : Setting := ⟨"env", some 'e'⟩

def vars : Setting := ⟨"vars", some 'D'⟩

def config : Setting := ⟨"config", none⟩

def out : Setting := ⟨"out", some 'o'⟩

/-- The value of an option that may be left out. -/
def pathIfGiven? (s : Setting) (given : Given) : Option (Option String) :=
  withDefault none (fun value => (path? value).map some) s.name given

def compile? (given : Given) : Option Command := do
  return compile (← required path? file.name given) {
    environment := ← pathIfGiven? environment given
    assignments := ← (valuesOf vars.name given).mapM assignment?
    config := ← pathIfGiven? config given
    out := ← pathIfGiven? out given }

/-- The command that `args` give, if they are right. -/
def ofArguments? : List String → Option Command
  | "compile" :: args => (given? [file, environment, vars, config, out] args).bind compile?
  | "validate" :: args => do
    return validate (← required path? file.name (← given? [file] args))
  | "ir" :: args => do
    return plan (← required path? file.name (← given? [file] args))
  | _ => none

/-- The files that a command reads. -/
def paths : Command → List String
  | compile file o => file :: (o.environment.toList ++ o.config.toList)
  | validate file | plan file => [file]

end Command
end CommandLine
end LoadTest

import LoadTest.CommandLine.Command
import LoadTest.Compilation
import LoadTest.Json.Printer
import LoadTest.Loading
import LoadTest.Plan.Json

/-!
What a command comes to: lines for the log, and an outcome.

A command reads its files, in order, before it does anything else; the first that fails ends it.
-/

namespace LoadTest
namespace CommandLine

/-! ## Reports -/

inductive Level where
  | info
  | warn
  | error
  deriving DecidableEq

def Level.name : Level → String
  | info => "INFO"
  | warn => "WARN"
  | error => "ERROR"

/-- The part of the program that a line comes from. -/
inductive Origin where
  | command
  | compiler
  | script
  deriving DecidableEq

def Origin.name : Origin → String
  | command => "loadblocks"
  | compiler => "loadblocks::compiler::core"
  | script => "loadblocks::compiler::emitter"

structure LogLine where
  level : Level
  origin : Origin
  message : String
  deriving DecidableEq

def LogLine.shown (l : LogLine) : String :=
  l.level.name ++ " " ++ l.origin.name ++ ": " ++ l.message

inductive Outcome where
  | done
  /-- Print `text`. -/
  | print (text : String)
  /-- Write `text` to the file `path`. -/
  | write (path text : String)
  | failed (message : String)
  deriving DecidableEq

structure Report where
  log : List LogLine
  outcome : Outcome
  deriving DecidableEq

namespace Report

def failed (message : String) : Report :=
  ⟨[], .failed message⟩

def loadFailed (e : LoadError) : Report :=
  failed e.message

/-- The issues of the test in a file. -/
def incomplete (file : String) (issues : List Issue) : Report :=
  ⟨issues.map fun i => ⟨.error, .command, i.message⟩,
    .failed (file ++ " has " ++ toString issues.length ++ " issue(s)")⟩

/-- The line after a script has been written. -/
def written (path : String) : LogLine :=
  ⟨.info, .command, "Script written to " ++ path⟩

/-- The error when a script could not be written. -/
def writeFailed (path : String) : String :=
  "Failed to write script to " ++ path

end Report

/-! ## Running -/

/-- The bytes of the files that can be read. -/
abbrev Files := String → Option ByteArray

def Files.file (fs : Files) (path : String) : File :=
  ⟨path, fs path⟩

/-- The scenarios on the canvas of a test. -/
def scenarioCount (t : Test) : Nat :=
  t.roots.countP fun r => r.block.kind = .scenario

namespace CompileOptions

/-- The environment of a compilation, which is called `default` if it has no file. -/
def loadEnvironment (fs : Files) (o : CompileOptions) : Except LoadError Environment := do
  let e ←
    match o.environment with
    | some path => Environment.load (fs.file path)
    | none => pure (Environment.new "default")
  return o.assignments.foldl (fun e v => e.withVariable v.1 v.2) e

def loadConfig (fs : Files) (o : CompileOptions) : Except LoadError Config :=
  match o.config with
  | some path => Config.load (fs.file path)
  | none => pure Config.default

end CompileOptions

namespace Report

/-- The line after a test has been compiled. -/
def compiled (t : Test) (e : Environment) : LogLine :=
  ⟨.info, .compiler, "compiled " ++ toString (scenarioCount t) ++
    " scenario(s) against environment `" ++ e.name ++ "`"⟩

def ofCompilation (file : String) (out : Option String) (t : Test) (e : Environment)
    (c : Compilation) : Report :=
  let warnings := c.warnings.map fun w => ⟨.warn, .script, w.message⟩
  match c.result with
  | .ok script =>
    ⟨warnings ++ [compiled t e],
      match out with
      | some path => .write path script
      | none => .print script⟩
  | .error (.incomplete issues) => incomplete file issues
  | .error e => ⟨warnings, .failed e.message⟩

def compile (fs : Files) (file : String) (o : CompileOptions) : Except LoadError Report := do
  let t ← Test.load (fs.file file)
  let e ← o.loadEnvironment fs
  let config ← o.loadConfig fs
  return ofCompilation file o.out t e (t.compile config e)

def validate (fs : Files) (file : String) : Except LoadError Report := do
  let t ← Test.load (fs.file file)
  match t.complete with
  | .ok _ =>
    let message := file ++ ": " ++ toString (scenarioCount t) ++ " scenario(s) ok"
    return ⟨[⟨.info, .command, message⟩], .done⟩
  | .error issues => return incomplete file issues

def plan (fs : Files) (file : String) : Except LoadError Report := do
  let t ← Test.load (fs.file file)
  match t.plan with
  | .ok p => return ⟨[], .print (p.toJson.pretty ++ "\n")⟩
  | .error e => return failed e.message

end Report

/-- What a command comes to. -/
def Command.run (fs : Files) (c : Command) : Report :=
  let report :=
    match c with
    | compile file o => Report.compile fs file o
    | validate file => Report.validate fs file
    | plan file => Report.plan fs file
  match report with
  | .ok r => r
  | .error e => Report.loadFailed e

end CommandLine
end LoadTest

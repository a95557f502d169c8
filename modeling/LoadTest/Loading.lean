import LoadTest.Config
import LoadTest.Environment.Json
import LoadTest.Environment.Yaml
import LoadTest.Json.Reader
import LoadTest.Test.Yaml

/-!
Tests, environments and settings from files.

The name of a file tells its format.  A file that cannot be read, or that is no text, has failed
before its format is looked at.
-/

namespace LoadTest

inductive Format where
  | json
  | yaml
  deriving DecidableEq

namespace Format

def name : Format → String
  | json => "JSON"
  | yaml => "YAML"

/-- What stands behind the last point of a file's name, unless nothing stands before it. -/
def extension? (path : String) : Option String :=
  let name := path.toList.reverse.takeWhile (· ≠ '/')
  match name.span (· ≠ '.') with
  | (ext, '.' :: _ :: _) => some (String.ofList ext.reverse)
  | _ => none

/-- Files ending in `.json` are JSON, and all others YAML. -/
def ofPath (path : String) : Format :=
  if extension? path = some "json" then json else yaml

end Format

inductive LoadError where
  | unreadable (path : String)
  | malformed (format : Format) (path : String)
  | unsupported (path : String) (cause : DocumentError)
  deriving DecidableEq

def LoadError.message : LoadError → String
  | unreadable path => "Failed to read file from " ++ path
  | malformed format path => "Failed to deserialize " ++ format.name ++ " content from " ++ path
  | unsupported path _ => "Unsupported document " ++ path

/-- A file under its path; without bytes it cannot be read. -/
structure File where
  path : String
  bytes : Option ByteArray

namespace File

variable {α : Type}

/-- The text of a file in UTF-8. -/
def text? (f : File) : Option String :=
  f.bytes.bind String.fromUTF8?

/-- The value in a file of either format. -/
def load (ofJson? : Json → Option α) (ofYaml? : Yaml.Node → Option α) (f : File) :
    Except LoadError α :=
  match f.text? with
  | none => .error (.unreadable f.path)
  | some text =>
    let format := Format.ofPath f.path
    let value :=
      match format with
      | .json => (Json.ofText? text).bind ofJson?
      | .yaml => (Yaml.Node.ofText? text).bind ofYaml?
    match value with
    | some x => .ok x
    | none => .error (.malformed format f.path)

/-- A text is read back from its own bytes. -/
@[simp] theorem text?_toUTF8 (path s : String) : text? ⟨path, some s.toUTF8⟩ = some s := by
  simp only [text?, Option.bind_some, String.fromUTF8?]
  exact dif_pos s.isValidUTF8

end File

/-- The test that a file holds as a document. -/
def Test.load (f : File) : Except LoadError Test := do
  let d ← f.load Document.ofJson? Document.ofYaml?
  d.toTest.mapError (.unsupported f.path)

def Environment.load (f : File) : Except LoadError Environment :=
  f.load Environment.ofJson? Environment.ofYaml?

def Config.load (f : File) : Except LoadError Config :=
  f.load Config.ofJson? Config.ofYaml?

end LoadTest

import LoadTest.Json.Record
import LoadTest.Yaml.Resolution

/-!
Settings of a compilation.
-/

namespace LoadTest

structure Config where
  /-- The blanks of one indent in the script. -/
  indentWidth : UInt64
  /-- Warn of every token that the environment has no value for. -/
  warnUnresolved : Bool
  deriving DecidableEq

namespace Config

open Record (withDefault)

def default : Config := ⟨2, true⟩

def toJson (c : Config) : Json :=
  .obj [("indent_width", .int c.indentWidth.toNat), ("warn_unresolved", .bool c.warnUnresolved)]

def ofJson? (j : Json) : Option Config := do
  let fields ← j.object?
  return {
    indentWidth := ← withDefault default.indentWidth Json.uint64? "indent_width" fields
    warnUnresolved := ← withDefault default.warnUnresolved Json.bool? "warn_unresolved" fields }

def ofYaml? (n : Yaml.Node) : Option Config := do
  let fields ← n.fields?
  return {
    indentWidth := ← withDefault default.indentWidth Yaml.Node.uint64? "indent_width" fields
    warnUnresolved := ← withDefault default.warnUnresolved Yaml.Node.bool? "warn_unresolved" fields }

end Config
end LoadTest

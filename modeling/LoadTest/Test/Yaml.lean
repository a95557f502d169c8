import LoadTest.Test.Json
import LoadTest.Yaml.Resolution

/-!
Documents as YAML.

A block on the canvas is read through the values of its fields, and what it holds like a block in
JSON.  Only its own id is a text however it is written.
-/

namespace LoadTest

open Record (required)
open Yaml (Node)

namespace Block

/-- The value of one field of a block. -/
def fieldOfYaml? (name : String) (n : Node) : Option Json :=
  if name = "id" then n.text?.map .str else n.value? Node.textKey

def ofYaml? (n : Node) : Option Block := do
  let fields ← (← n.fields?).mapM fun (name, v) => (fieldOfYaml? name v).map (name, ·)
  ofJson? (.obj fields)

end Block

namespace Library

def ofYaml? (n : Node) : Option Library :=
  (n.value? Node.anyKey).map ofJson

end Library

namespace Root

def ofYaml? (n : Node) : Option Root := do
  let fields ← n.fields?
  return {
    position := {
      top := ← required Node.float? "top" fields
      left := ← required Node.float? "left" fields }
    block := ← required Block.ofYaml? "block" fields }

end Root

namespace Document

def ofYaml? (n : Node) : Option Document := do
  let fields ← n.fields?
  return {
    version := ← required Node.uint32? "version" fields
    library := ← required Library.ofYaml? "library" fields
    roots := ← required (Node.listOf? Root.ofYaml?) "roots" fields }

end Document
end LoadTest

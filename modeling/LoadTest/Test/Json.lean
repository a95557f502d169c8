import LoadTest.Block.Json
import LoadTest.Test

/-!
Tests and documents as JSON.
-/

namespace LoadTest

open Record (required)

namespace Root

def toJson (r : Root) : Json :=
  .obj [("type", .str "root"), ("top", Json.number r.position.top),
    ("left", Json.number r.position.left), ("block", r.block.toJson)]

/-- The field `type` is written for readers of the file; it is not looked at. -/
def ofJson? (j : Json) : Option Root := do
  let fields ← j.object?
  return {
    position := {
      top := ← required Json.float? "top" fields
      left := ← required Json.float? "left" fields }
    block := ← required Block.ofJson? "block" fields }

end Root

namespace Test

def toJson (t : Test) : Json :=
  .obj [("library", t.library.schema), ("roots", .arr (t.roots.map Root.toJson))]

def ofJson? (j : Json) : Option Test := do
  let fields ← j.object?
  return {
    library := ← required (fun j => some (Library.ofJson j)) "library" fields
    roots := ← required (Json.listOf? Root.ofJson?) "roots" fields }

end Test

namespace Document

def toJson (d : Document) : Json :=
  .obj [("version", .int d.version.toNat), ("library", d.library.schema),
    ("roots", .arr (d.roots.map Root.toJson))]

def ofJson? (j : Json) : Option Document := do
  let fields ← j.object?
  return {
    version := ← required Json.uint32? "version" fields
    library := ← required (fun j => some (Library.ofJson j)) "library" fields
    roots := ← required (Json.listOf? Root.ofJson?) "roots" fields }

end Document
end LoadTest

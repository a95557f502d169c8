import LoadTest.Environment
import LoadTest.Json.Record

/-!
Environments as JSON.
-/

namespace LoadTest
namespace Environment

open Json (optional)
open Record (withDefault)

/-- The field of the description, which is left out when there is none. -/
def descriptionField : Option String → List (String × Json)
  | none => []
  | some s => [("description", .str s)]

def toJson (e : Environment) : Json :=
  .obj (("name", .str e.name) :: descriptionField e.description ++
    [("variables", Json.ofDict .str e.values)])

def ofJson? (j : Json) : Option Environment := do
  let fields ← j.object?
  return {
    name := ← withDefault "" Json.str? "name" fields
    description := ← optional Json.str? "description" fields
    values := ← withDefault Dict.empty (Json.dictOf? Json.str?) "variables" fields }

end Environment
end LoadTest

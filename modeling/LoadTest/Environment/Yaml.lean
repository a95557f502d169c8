import LoadTest.Environment
import LoadTest.Record
import LoadTest.Yaml.Resolution

/-!
Environments as YAML.

Names and values are texts, so a scalar is taken as it is written: `1.50` stays `1.50`.
-/

namespace LoadTest
namespace Environment

open Record (withDefault)
open Yaml (Node)

def ofYaml? (n : Node) : Option Environment := do
  let fields ← n.fields?
  return {
    name := ← withDefault "" Node.text? "name" fields
    description := ← withDefault none Node.optionalText? "description" fields
    values := ← withDefault Dict.empty (Node.dictOf? Node.text?) "variables" fields }

end Environment
end LoadTest

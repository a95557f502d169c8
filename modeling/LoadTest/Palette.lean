import LoadTest.Template

/-!
The palette: templates to build a test from, those of the test's library among them.
-/

namespace LoadTest

structure Category where
  id : String
  name : String
  templates : List Template

namespace Category

/-! ## Built-in templates -/

def scenarios : Category where
  id := "scenarios"
  name := "Scenarios"
  templates := [
    ⟨.newScenario "scenario-template" ""⟩,
    ⟨.constantVus "executor-template" 1 "1m"⟩]

/-- The template of a check expects the status 200, under a fresh id. -/
def steps : Fresh Category := do
  let expectation ← Expectation.freshStatus 200
  return {
    id := "steps"
    name := "Steps"
    templates := [
      ⟨.newGroup "group-template" ""⟩,
      ⟨.newRequest "http-request-template" "get" ""⟩,
      ⟨.newCheck "check-template" [expectation]⟩,
      ⟨.newSleep "sleep-template" 1⟩] }

/-! ## Templates of a library

The schema is Swagger 2.0 or OpenAPI 3: the type of a parameter stands in the parameter or in its
field `schema`. -/

def methods : List String := ["get", "post"]

def dropSlashes (s : List Char) : List Char :=
  s.dropWhile (· = '/')

/-- `path` on `base` with one slash between them; without a base the path alone. -/
def joinUrl (base path : String) : String :=
  if base.isEmpty then path
  else
    String.ofList ((dropSlashes base.toList.reverse).reverse ++ '/' :: dropSlashes path.toList)

/-- The value that a query parameter starts with: its default, if that has the declared type. -/
def initialValue (schema : Json) : Parameter :=
  let default := schema.field? "default"
  match (schema.field? "type").bind Json.str? with
  | some "integer" | some "number" => .number ((default.bind Json.float?).getD 0)
  | some "boolean" => .boolean ((default.bind Json.bool?).getD false)
  | _ => .string ((default.bind Json.str?).getD "")

/-- A declared query parameter with its initial value. -/
def queryParameter? (p : Json) : Option (String × Parameter) :=
  if (p.field? "in").bind Json.str? = some "query" then
    ((p.field? "name").bind Json.str?).map fun name =>
      (name, initialValue ((p.field? "schema").getD p))
  else none

/-- The query parameters of an operation; the last declaration of a name counts. -/
def queryParameters (operation : Json) : Dict Parameter :=
  Dict.ofList ((((operation.field? "parameters").bind Json.array?).getD []).filterMap
    queryParameter?)

/-- The summary of an operation, or its method and path if it has none. -/
def operationName (method path : String) (operation : Json) : String :=
  match (operation.field? "summary").bind Json.str? with
  | some s => if s.isEmpty then method.toUpper ++ " " ++ path else s
  | none => method.toUpper ++ " " ++ path

def operationTemplate (base path method : String) (operation : Json) : Template where
  block := .library ("library-" ++ method ++ "-" ++ path)
    { name := operationName method path operation
      method
      url := joinUrl base path
      parameters := queryParameters operation }
    none

/-- The operations of a path, `get` before `post`. -/
def pathTemplates (base : String) (path : String × Json) : List Template :=
  methods.filterMap fun method =>
    (path.2.field? method).map (operationTemplate base path.1 method)

/-- One template for each operation, in the order of the paths. -/
def ofLibrary (l : Library) : Category :=
  let base := ((l.schema.field? "x-synced-from").bind Json.str?).getD ""
  let title := (((l.schema.field? "info").bind (·.field? "title")).bind Json.str?).getD "API"
  let paths := ((l.schema.field? "paths").bind Json.object?).getD []
  { id := "api", name := title, templates := paths.flatMap (pathTemplates base) }

end Category

/-- The categories offered for a test. -/
def Test.palette (t : Test) : Fresh (List Category) := do
  return [Category.scenarios, ← Category.steps, Category.ofLibrary t.library]

end LoadTest

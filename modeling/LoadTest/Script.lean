import LoadTest.Environment
import LoadTest.Plan
import LoadTest.Script.Line
import LoadTest.Script.Name
import LoadTest.Text.Case
import LoadTest.Text.Percent
import LoadTest.Decimal.Written

/-!
The k6 script of a plan, before it is laid out.

Every text of the plan that an environment may change is substituted where it is written;
`Plan.texts` lists these texts in the order of the script, and with it the tokens that are left.
-/

namespace LoadTest
namespace Script

open Piece (code quoted)

/-! ## Requests -/

/-- The function of the `http` module for a method in lower case, if it has one that takes the
URL first. -/
def shorthand? (method : String) : Option String :=
  match method with
  | "get" => some "get"
  | "post" => some "post"
  | "put" => some "put"
  | "patch" => some "patch"
  | "delete" | "del" => some "del"
  | "head" => some "head"
  | "options" => some "options"
  | _ => none

/-- The declared parameters as a query, with their values substituted. -/
def queryText (e : Environment) (parameters : List Plan.Pair) : List Char :=
  ['&'].intercalate (parameters.map fun p =>
    Text.percentEncode p.name.toList ++ '=' :: Text.percentEncode (e.substituteChars p.value.toList))

/-- What joins a query to a URL: nothing behind a `?` or `&`, and else whichever is missing. -/
def querySeparator (url : List Char) : List Char :=
  if !url.contains '?' then ['?']
  else if url.getLast? = some '?' || url.getLast? = some '&' then []
  else ['&']

/-- The substituted URL with the declared parameters behind it. -/
def requestUrl (e : Environment) (c : Plan.Call) : String :=
  let url := e.substituteChars c.url.toList
  if c.parameters = [] then String.ofList url
  else String.ofList (url ++ querySeparator url ++ queryText e c.parameters)

/-- The method as the script names it. -/
def verb (method : List Char) : String :=
  String.ofList (Text.upper (Text.lower method))

/-- Headers as the fields of an object. -/
def headerPieces (e : Environment) : List Plan.Pair → List Piece
  | [] => []
  | [h] => [quoted h.name, code ": ", quoted (e.substitute h.value)]
  | h :: r => quoted h.name :: code ": " :: quoted (e.substitute h.value) :: code ", " ::
      headerPieces e r

/-- The call that sends a request. -/
def requestPieces (e : Environment) (c : Plan.Call) : List Piece :=
  let url := quoted (requestUrl e c)
  let method := c.method.toList
  if c.headers = [] then
    match shorthand? (String.ofList (Text.lower method)) with
    | some function => [code ("http." ++ function ++ "("), url, code ")"]
    | none => [code "http.request(", quoted (verb method), code ", ", url, code ")"]
  else
    [code "http.request(", quoted (verb method), code ", ", url,
      code ", null, \x7b headers: \x7b "] ++ headerPieces e c.headers ++ [code " \x7d \x7d)"]

/-! ## Steps -/

def assertionLine (e : Environment) : Plan.Assertion → Line
  | .hasStatus n =>
    let status := toString n.toNat
    [quoted ("status is " ++ status), code (": (r) => r.status === " ++ status ++ ",")]
  | .bodyContains text =>
    let text := e.substitute text
    [quoted ("body contains " ++ text), code ": (r) => r.body.includes(", quoted text, code "),"]

mutual

def stepLines (e : Environment) : Plan.Step → List Line
  | .request c => [requestPieces e c ++ [code ";"]]
  | .group name steps =>
    [[code "group(", quoted (e.substitute name), code ", () => \x7b"]] ++ stepsLines e steps ++
      [[code "\x7d);"]]
  | .check target as =>
    [[code "response = "] ++ requestPieces e target ++ [code ";"],
      [code "check(response, \x7b"]] ++ as.map (assertionLine e) ++ [[code "\x7d);"]]
  | .sleep x => [[code ("sleep(" ++ Decimal.plainText x ++ ");")]]

/-- Steps with a blank line before each. -/
def stepsLines (e : Environment) : List Plan.Step → List Line
  | [] => []
  | s :: r => [] :: stepLines e s ++ stepsLines e r

end

/-! ## Scenarios -/

def scenarioFunction (e : Environment) (s : Plan.Scenario) : String :=
  functionName (e.substitute s.name)

def startLines : Option UInt32 → List Line
  | none => []
  | some n => [[code ("startVUs: " ++ toString n.toNat ++ ",")]]

def stageLine (e : Environment) (s : Stage) : Line :=
  [code ("\x7b target: " ++ toString s.target.toNat ++ ", duration: "),
    quoted (e.substitute s.duration), code " \x7d,"]

def executorLines (e : Environment) : Executor → List Line
  | .constant vus duration =>
    [[code "executor: ", quoted "constant-vus", code ","],
      [code ("vus: " ++ toString vus.toNat ++ ",")],
      [code "duration: ", quoted (e.substitute duration), code ","]]
  | .ramping startVus stages =>
    [[code "executor: ", quoted "ramping-vus", code ","]] ++ startLines startVus ++
      [[code "stages: ["]] ++ stages.map (stageLine e) ++ [[code "],"]]

/-- The entry of a scenario in the options. -/
def optionLines (e : Environment) (s : Plan.Scenario) : List Line :=
  let function := scenarioFunction e s
  [[code (function ++ ": \x7b")]] ++ executorLines e s.executor ++
    [[code "exec: ", quoted function, code ","], [code "\x7d,"]]

/-- The function of a scenario, with a blank line before it. -/
def functionLines (e : Environment) (s : Plan.Scenario) : List Line :=
  [[], [code ("export function " ++ scenarioFunction e s ++ "() \x7b")],
    [code "let response = null;"]] ++ stepsLines e s.steps ++ [[code "\x7d"]]

def headLines : List Line :=
  [[code "import http from ", quoted "k6/http", code ";"],
    [code "import \x7b check, group, sleep \x7d from ", quoted "k6", code ";"], []]

def lines (e : Environment) (p : Plan) : List Line :=
  headLines ++ [[code "export const options = \x7b"], [code "scenarios: \x7b"]] ++
    p.scenarios.flatMap (optionLines e) ++ [[code "\x7d,"], [code "\x7d;"]] ++
    p.scenarios.flatMap (functionLines e)

end Script

/-- The script of `p` in the environment `e`, not laid out yet. -/
def Plan.script (e : Environment) (p : Plan) : String :=
  Script.renderLines (Script.lines e p)

/-! ## Texts that an environment may change -/

namespace Plan

def Call.texts (c : Call) : List String :=
  c.url :: c.parameters.map Pair.value ++ c.headers.map Pair.value

def Assertion.texts : Assertion → List String
  | .hasStatus _ => []
  | .bodyContains s => [s]

mutual

def Step.texts : Step → List String
  | .request c => c.texts
  | .group name steps => name :: stepsTexts steps
  | .check target as => target.texts ++ as.flatMap Assertion.texts
  | .sleep _ => []

def stepsTexts : List Step → List String
  | [] => []
  | s :: r => s.texts ++ stepsTexts r

end

def executorTexts : Executor → List String
  | .constant _ duration => [duration]
  | .ramping _ stages => stages.map Stage.duration

/-- The texts in the order of the script.  The name of a scenario is one of its options and of its
function. -/
def texts (p : Plan) : List String :=
  p.scenarios.flatMap (fun s => s.name :: executorTexts s.executor) ++
    p.scenarios.flatMap (fun s => s.name :: stepsTexts s.steps)

/-- The tokens that are left in the script, once for each text that leaves them. -/
def unresolved (e : Environment) (p : Plan) : List String :=
  p.texts.flatMap fun t => unresolvedTokens (e.substitute t)

end Plan
end LoadTest

import LoadTest.Block.Json
import LoadTest.Plan

/-!
Plans as JSON.
-/

namespace LoadTest
namespace Plan

open Record (required withDefault)

namespace Pair

def toJson (p : Pair) : Json :=
  .obj [("name", .str p.name), ("value", .str p.value)]

def ofJson? (j : Json) : Option Pair := do
  let fields ← j.object?
  return {
    name := ← required Json.str? "name" fields
    value := ← required Json.str? "value" fields }

end Pair

namespace Call

def toFields (c : Call) : List (String × Json) :=
  [("name", .str c.name), ("method", .str c.method), ("url", .str c.url),
    ("parameters", .arr (c.parameters.map Pair.toJson)),
    ("headers", .arr (c.headers.map Pair.toJson))]

def toJson (c : Call) : Json :=
  .obj c.toFields

def ofFields? (fields : List (String × Json)) : Option Call := do
  return {
    name := ← required Json.str? "name" fields
    method := ← required Json.str? "method" fields
    url := ← required Json.str? "url" fields
    parameters := ← withDefault [] (Json.listOf? Pair.ofJson?) "parameters" fields
    headers := ← withDefault [] (Json.listOf? Pair.ofJson?) "headers" fields }

def ofJson? (j : Json) : Option Call := do
  ofFields? (← j.object?)

end Call

namespace Assertion

def toJson : Assertion → Json
  | hasStatus n => .obj [("type", .str "has-status"), ("status", .int n.toNat)]
  | bodyContains s => .obj [("type", .str "body-contains"), ("value", .str s)]

def ofJson? (j : Json) : Option Assertion := do
  let fields ← j.object?
  match ← required Json.str? "type" fields with
  | "has-status" => return hasStatus (← required Json.uint16? "status" fields)
  | "body-contains" => return bodyContains (← required Json.str? "value" fields)
  | _ => none

end Assertion

namespace Step

mutual

def toJson : Step → Json
  | request c => .obj (("type", .str "http-request") :: c.toFields)
  | group name steps =>
    .obj [("type", .str "group"), ("name", .str name), ("steps", .arr (toJsons steps))]
  | check target as =>
    .obj [("type", .str "check"), ("target", target.toJson),
      ("checks", .arr (as.map Assertion.toJson))]
  | sleep x => .obj [("type", .str "sleep"), ("seconds", Json.number x)]

def toJsons : List Step → List Json
  | [] => []
  | s :: r => s.toJson :: toJsons r

end

/-- The step with the given fields, whose readings as lists of steps are `lists`. -/
def ofFields? (fields : List (String × Json)) (lists : List (String × Option (List Step))) :
    Option Step := do
  match ← required Json.str? "type" fields with
  | "http-request" => return request (← Call.ofFields? fields)
  | "group" =>
    return group (← required Json.str? "name" fields) (← required (fun r => r) "steps" lists)
  | "check" =>
    return check (← required Call.ofJson? "target" fields)
      (← required (Json.listOf? Assertion.ofJson?) "checks" fields)
  | "sleep" => return sleep (← required Json.float? "seconds" fields)
  | _ => none

mutual

def ofJson? : Json → Option Step
  | .obj fields => ofFields? fields (readFields fields)
  | _ => none

/-- Every field read as a list of steps. -/
def readFields : List (String × Json) → List (String × Option (List Step))
  | [] => []
  | (name, j) :: r => (name, listOfJson? j) :: readFields r

def listOfJson? : Json → Option (List Step)
  | .arr items => ofJsons? items
  | _ => none

def ofJsons? : List Json → Option (List Step)
  | [] => some []
  | j :: r => do return (← ofJson? j) :: (← ofJsons? r)

end

end Step

namespace Scenario

def toJson (s : Scenario) : Json :=
  .obj [("name", .str s.name), ("executor", s.executor.toJson),
    ("steps", .arr (Step.toJsons s.steps))]

def ofJson? (j : Json) : Option Scenario := do
  let fields ← j.object?
  return {
    name := ← required Json.str? "name" fields
    executor := ← required Executor.ofJson? "executor" fields
    steps := ← required Step.listOfJson? "steps" fields }

end Scenario

def toJson (p : Plan) : Json :=
  .obj [("scenarios", .arr (p.scenarios.map Scenario.toJson))]

def ofJson? (j : Json) : Option Plan := do
  let fields ← j.object?
  return ⟨← required (Json.listOf? Scenario.ofJson?) "scenarios" fields⟩

end Plan
end LoadTest

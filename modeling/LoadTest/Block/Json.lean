import LoadTest.Block.Basic
import LoadTest.Json.Record

/-!
Blocks and what they hold as JSON.

Every `toJson` writes the fields in a fixed order; the `ofJson?` beside it reads them in any
order.  Kinds are told apart by the field `type`.
-/

namespace LoadTest

open Json (optional)
open Record (required withDefault)

namespace NameValue

def toJson (p : NameValue) : Json :=
  .obj [("id", .str p.id), ("name", .str p.name), ("value", .str p.value)]

def ofJson? (j : Json) : Option NameValue := do
  let fields ← j.object?
  return {
    id := ← required Json.str? "id" fields
    name := ← required Json.str? "name" fields
    value := ← required Json.str? "value" fields }

end NameValue

namespace Parameter

def toJson : Parameter → Json
  | string s => .obj [("type", .str "string"), ("value", .str s)]
  | number x => .obj [("type", .str "number"), ("value", Json.number x)]
  | boolean b => .obj [("type", .str "boolean"), ("value", .bool b)]

def ofJson? (j : Json) : Option Parameter := do
  let fields ← j.object?
  match ← required Json.str? "type" fields with
  | "string" => return string (← required Json.str? "value" fields)
  | "number" => return number (← required Json.float? "value" fields)
  | "boolean" => return boolean (← required Json.bool? "value" fields)
  | _ => none

end Parameter

namespace Expectation

def toJson : Expectation → Json
  | status id code => .obj [("type", .str "status"), ("id", .str id), ("value", .int code.toNat)]
  | contains id text => .obj [("type", .str "contains"), ("id", .str id), ("value", .str text)]

def ofJson? (j : Json) : Option Expectation := do
  let fields ← j.object?
  match ← required Json.str? "type" fields with
  | "status" =>
    return status (← required Json.str? "id" fields) (← required Json.uint16? "value" fields)
  | "contains" =>
    return contains (← required Json.str? "id" fields) (← required Json.str? "value" fields)
  | _ => none

end Expectation

namespace Stage

def toJson (s : Stage) : Json :=
  .obj [("target", .int s.target.toNat), ("duration", .str s.duration)]

def ofJson? (j : Json) : Option Stage := do
  let fields ← j.object?
  return {
    target := ← required Json.uint32? "target" fields
    duration := ← required Json.str? "duration" fields }

end Stage

namespace Executor

/-- The field of the initial load, which is left out when there is none. -/
def startField : Option UInt32 → List (String × Json)
  | none => []
  | some n => [("startVUs", .int n.toNat)]

def toJson : Executor → Json
  | constant vus duration =>
    .obj [("type", .str "constant-vus"), ("vus", .int vus.toNat), ("duration", .str duration)]
  | ramping startVus stages =>
    .obj (("type", .str "ramping-vus") :: startField startVus ++
      [("stages", .arr (stages.map Stage.toJson))])

def ofJson? (j : Json) : Option Executor := do
  let fields ← j.object?
  match ← required Json.str? "type" fields with
  | "constant-vus" =>
    return constant (← required Json.uint32? "vus" fields) (← required Json.str? "duration" fields)
  | "ramping-vus" =>
    return ramping (← optional Json.uint32? "startVUs" fields)
      (← required (Json.listOf? Stage.ofJson?) "stages" fields)
  | _ => none

end Executor

namespace Slot

/-- A slot is written as its name, or as an object with that one field, which is null. -/
def ofJson? : Json → Option Slot
  | .str s => ofName? s
  | .obj [(s, .null)] => ofName? s
  | _ => none

def toJson (s : Slot) : Json :=
  .str s.name

end Slot

namespace Request

def toFields (r : Request) : List (String × Json) :=
  [("name", .str r.name), ("method", .str r.method), ("url", .str r.url),
    ("parameters", .arr (r.parameters.map NameValue.toJson)),
    ("headers", .arr (r.headers.map NameValue.toJson))]

def ofFields? (fields : List (String × Json)) : Option Request := do
  return {
    name := ← required Json.str? "name" fields
    method := ← required Json.str? "method" fields
    url := ← required Json.str? "url" fields
    parameters := ← withDefault [] (Json.listOf? NameValue.ofJson?) "parameters" fields
    headers := ← withDefault [] (Json.listOf? NameValue.ofJson?) "headers" fields }

end Request

namespace LibraryCall

def toFields (c : LibraryCall) : List (String × Json) :=
  [("name", .str c.name), ("method", .str c.method), ("url", .str c.url),
    ("parameters", Json.ofDict Parameter.toJson c.parameters)]

def ofFields? (fields : List (String × Json)) : Option LibraryCall := do
  return {
    name := ← required Json.str? "name" fields
    method := ← required Json.str? "method" fields
    url := ← required Json.str? "url" fields
    parameters := ← withDefault Dict.empty (Json.dictOf? Parameter.ofJson?) "parameters" fields }

end LibraryCall

namespace Block

/-! ## Writing -/

/-- The id and the kind, which every block starts with. -/
def heading (id : BlockId) (k : Kind) : List (String × Json) :=
  [("id", .str id), ("type", .str k.name)]

mutual

def toJson : Block → Json
  | scenario id name e s =>
    .obj (heading id .scenario ++
      [("name", .str name), ("executor", slotToJson e), ("step", slotToJson s)])
  | group id name s n =>
    .obj (heading id .group ++
      [("name", .str name), ("step", slotToJson s), ("next", slotToJson n)])
  | request id r n => .obj (heading id .request ++ r.toFields ++ [("next", slotToJson n)])
  | library id c n => .obj (heading id .library ++ c.toFields ++ [("next", slotToJson n)])
  | check id es t n =>
    .obj (heading id .check ++
      [("target", slotToJson t), ("checks", .arr (es.map Expectation.toJson)),
        ("next", slotToJson n)])
  | executor id shape => .obj (heading id .executor ++ [("executor", shape.toJson)])
  | sleep id x n => .obj (heading id .sleep ++ [("seconds", Json.number x), ("next", slotToJson n)])

def slotToJson : Option Block → Json
  | none => .null
  | some b => b.toJson

end

/-! ## Reading

Every field of an object is first read as a slot.  A field that is no slot of the block fails that
reading or passes it, and is not looked at again. -/

/-- The slot called `name`, which may be missing. -/
def slotIn? (name : String) (slots : List (String × Option (Option Block))) :
    Option (Option Block) :=
  withDefault none (fun r => r) name slots

/-- The block with the given fields, whose readings as slots are `slots`. -/
def ofFields? (fields : List (String × Json)) (slots : List (String × Option (Option Block))) :
    Option Block := do
  let id ← required Json.str? "id" fields
  match ← required Json.str? "type" fields with
  | "scenario" =>
    return scenario id (← required Json.str? "name" fields) (← slotIn? "executor" slots)
      (← slotIn? "step" slots)
  | "group" =>
    return group id (← required Json.str? "name" fields) (← slotIn? "step" slots)
      (← slotIn? "next" slots)
  | "http-request" => return request id (← Request.ofFields? fields) (← slotIn? "next" slots)
  | "library" => return library id (← LibraryCall.ofFields? fields) (← slotIn? "next" slots)
  | "check" =>
    return check id (← withDefault [] (Json.listOf? Expectation.ofJson?) "checks" fields)
      (← slotIn? "target" slots) (← slotIn? "next" slots)
  | "executor" => return executor id (← required Executor.ofJson? "executor" fields)
  | "sleep" => return sleep id (← required Json.float? "seconds" fields) (← slotIn? "next" slots)
  | _ => none

mutual

def ofJson? : Json → Option Block
  | .obj fields => ofFields? fields (readSlots fields)
  | _ => none

/-- Every field read as a slot. -/
def readSlots : List (String × Json) → List (String × Option (Option Block))
  | [] => []
  | (name, j) :: r => (name, readSlot j) :: readSlots r

def readSlot : Json → Option (Option Block)
  | .null => some none
  | .obj fields => (ofFields? fields (readSlots fields)).map some
  | _ => none

end

end Block
end LoadTest

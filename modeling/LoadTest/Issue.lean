import LoadTest.Block.Json

/-!
What keeps a test from being complete.
-/

namespace LoadTest

inductive Issue where
  | missingExecutor (scenario : BlockId)
  | missingCheckTarget (check : BlockId)
  /-- The slot of `owner` does not accept the kind of block that it holds. -/
  | wrongSlotKind (owner : BlockId) (slot : Slot) (found : Kind)
  /-- The target of a check has a block behind it. -/
  | chainedTarget (check target : BlockId)
  | duplicateId (id : BlockId)
  | emptyStages (executor : BlockId)
  /-- Two scenarios become functions of one name. -/
  | duplicateScenarioName (first second : BlockId) (function : String)
  deriving DecidableEq

namespace Issue

def message : Issue → String
  | missingExecutor scenario => "scenario " ++ scenario ++ " has no executor"
  | missingCheckTarget check => "check " ++ check ++ " has no target request"
  | wrongSlotKind owner slot found =>
    "slot `" ++ slot.name ++ "` of block " ++ owner ++ " cannot hold a " ++ found.name ++ " block"
  | chainedTarget check target =>
    "target " ++ target ++ " of check " ++ check ++ " has steps chained after it"
  | duplicateId id => "block id " ++ id ++ " is used more than once"
  | emptyStages executor => "ramping executor " ++ executor ++ " has no stages"
  | duplicateScenarioName first second function =>
    "scenarios " ++ first ++ " and " ++ second ++ " both compile to `" ++ function ++ "`"

def toJson : Issue → Json
  | missingExecutor scenario =>
    .obj [("issue", .str "missing-executor"), ("scenario", .str scenario)]
  | missingCheckTarget check =>
    .obj [("issue", .str "missing-check-target"), ("check", .str check)]
  | wrongSlotKind owner slot found =>
    .obj [("issue", .str "wrong-slot-kind"), ("owner", .str owner), ("slot", slot.toJson),
      ("found", .str found.name)]
  | chainedTarget check target =>
    .obj [("issue", .str "chained-target"), ("check", .str check), ("target", .str target)]
  | duplicateId id => .obj [("issue", .str "duplicate-id"), ("id", .str id)]
  | emptyStages executor => .obj [("issue", .str "empty-stages"), ("executor", .str executor)]
  | duplicateScenarioName first second function =>
    .obj [("issue", .str "duplicate-scenario-name"), ("first", .str first),
      ("second", .str second), ("function", .str function)]

end Issue
end LoadTest

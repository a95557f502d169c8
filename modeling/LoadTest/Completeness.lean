import LoadTest.Complete
import LoadTest.Issue
import LoadTest.Script.Name

/-!
Reading a test as a complete one.

The scenarios on the canvas are read in order; everything else on it is passed over.  Reading goes
on past an issue wherever something is left to look at, so that all issues are reported at once.
-/

namespace LoadTest
namespace Completeness

/-- What reading has met so far: the issues, the ids, and the ids reported as repeated. -/
structure Progress where
  issues : List Issue
  seen : List BlockId
  reported : List BlockId

def Progress.start : Progress := ⟨[], [], []⟩

/-- A reading that may report issues.  Where it looks for something it finds nothing if that is
not complete. -/
abbrev Reading := StateM Progress

def report (i : Issue) : Reading Unit :=
  modify fun p => { p with issues := p.issues ++ [i] }

/-- Report an issue and find nothing. -/
def fail {α : Type} (i : Issue) : Reading (Option α) := do
  report i
  return none

/-- Meet the id of a block: `true` the first time.  A repeated id is reported once. -/
def meet (id : BlockId) : Reading Bool := do
  let p ← get
  if p.seen.contains id then
    if !p.reported.contains id then
      set { p with issues := p.issues ++ [Issue.duplicateId id], reported := id :: p.reported }
    return false
  else
    set { p with seen := id :: p.seen }
    return true

/-- The request that a check looks at, with its id. -/
def readTarget (check : BlockId) : Option Block → Reading (Option (BlockId × Request))
  | none => fail (.missingCheckTarget check)
  | some (.request id r next) => do
    if ← meet id then
      if next.isSome then fail (.chainedTarget check id) else return some (id, r)
    else return none
  | some b => fail (.wrongSlotKind check .target b.kind)

/-- The load shape of a scenario, with its id. -/
def readExecutor (scenario : BlockId) : Option Block → Reading (Option (BlockId × Executor))
  | none => fail (.missingExecutor scenario)
  | some (.executor id shape) => do
    if ← meet id then
      if shape.isStageless then fail (.emptyStages id) else return some (id, shape)
    else return none
  | some b => fail (.wrongSlotKind scenario .executor b.kind)

/-- A step in front of the steps behind it, unless its id was met before. -/
def consStep (isNew : Bool) (step : Option Complete.Step) (rest : Option (List Complete.Step)) :
    Option (List Complete.Step) :=
  if isNew then do return (← step) :: (← rest) else none

mutual

/-- The steps of the chain that starts with a block. -/
def readSteps : Block → Reading (Option (List Complete.Step))
  | .group id name s n => do
    let isNew ← meet id
    let steps ← readChain id .step s
    let rest ← readChain id .next n
    return consStep isNew (steps.map (.group id name)) rest
  | .request id r n => do
    let isNew ← meet id
    let rest ← readChain id .next n
    return consStep isNew (some (.request id r)) rest
  | .library id call n => do
    let isNew ← meet id
    let rest ← readChain id .next n
    return consStep isNew (some (.library id call)) rest
  | .check id es t n => do
    let isNew ← meet id
    let target ← readTarget id t
    let rest ← readChain id .next n
    return consStep isNew (target.map fun (t, r) => .check id es t r) rest
  | .sleep id x n => do
    let isNew ← meet id
    let rest ← readChain id .next n
    return consStep isNew (some (.sleep id x)) rest
  | .scenario .. | .executor .. => return none

/-- The steps of the chain in a slot, which may be empty. -/
def readChain (owner : BlockId) (slot : Slot) : Option Block → Reading (Option (List Complete.Step))
  | none => return some []
  | some b => if slot.accepts b.kind then readSteps b else fail (.wrongSlotKind owner slot b.kind)

end

def readScenario : Block → Reading (Option Complete.Scenario)
  | .scenario id name e s => do
    let isNew ← meet id
    let executor ← readExecutor id e
    let steps ← readChain id .step s
    if isNew then
      return do
        let (executorId, shape) ← executor
        return ⟨id, name, executorId, shape, ← steps⟩
    else return none
  | _ => return none

/-- The scenarios on the canvas that are complete, and whether all of them are. -/
def readRoots : List Root → Reading (List Complete.Root × Bool)
  | [] => return ([], true)
  | r :: rs => do
    let found ← readScenario r.block
    let (roots, all) ← readRoots rs
    match found with
    | some s => return (⟨r.position, s⟩ :: roots, all)
    | none => return (roots, false)

/-- The block of a root is a scenario. -/
def isScenario (r : Root) : Bool :=
  r.block.kind = .scenario

/-- The scenarios that become a function which an earlier one has become, once `resolve` is
applied to their names.  `known` lists the functions so far with their scenarios. -/
def nameClashesFrom (resolve : String → String) :
    List (String × BlockId) → List Complete.Scenario → List Issue
  | _, [] => []
  | known, s :: r =>
    let function := Script.functionName (resolve s.name)
    match known.lookup function with
    | some first =>
      .duplicateScenarioName first s.id function :: nameClashesFrom resolve known r
    | none => nameClashesFrom resolve ((function, s.id) :: known) r

def nameClashes (resolve : String → String) (scenarios : List Complete.Scenario) : List Issue :=
  nameClashesFrom resolve [] scenarios

end Completeness

/-- The complete test that `t` is, or all its issues. -/
def Test.complete (t : Test) : Except (List Issue) Complete.Test :=
  let ((roots, all), p) :=
    (Completeness.readRoots (t.roots.filter Completeness.isScenario)).run .start
  let issues :=
    p.issues ++ Completeness.nameClashes (fun name => name) (roots.map Complete.Root.scenario)
  if all && issues.isEmpty then .ok ⟨t.library, roots⟩ else .error issues

end LoadTest

import LoadTest.Test

/-!
Complete tests: every scenario has an executor, every slot holds what belongs there.

A chain of blocks is a list of steps, and the target of a check is a request with nothing behind
it, so a complete test cannot be anything else.  `toTest` puts the blocks and their slots back.
-/

namespace LoadTest
namespace Complete

inductive Step where
  | group (id : BlockId) (name : String) (steps : List Step)
  | request (id : BlockId) (request : Request)
  | library (id : BlockId) (call : LibraryCall)
  | check (id : BlockId) (expectations : List Expectation) (targetId : BlockId) (target : Request)
  | sleep (id : BlockId) (seconds : Float)

structure Scenario where
  id : BlockId
  name : String
  executorId : BlockId
  executor : Executor
  steps : List Step

structure Root where
  position : Position
  scenario : Scenario

structure Test where
  library : Library
  roots : List Root

mutual

/-- The block of a step, with `next` behind it. -/
def Step.toBlock (next : Option Block) : Step → Block
  | .group id name steps => .group id name (chainOf steps) next
  | .request id r => .request id r next
  | .library id call => .library id call next
  | .check id es targetId target => .check id es (some (.request targetId target none)) next
  | .sleep id x => .sleep id x next

/-- The chain of blocks of a list of steps. -/
def chainOf : List Step → Option Block
  | [] => none
  | s :: r => some (s.toBlock (chainOf r))

end

def Scenario.toBlock (s : Scenario) : Block :=
  .scenario s.id s.name (some (.executor s.executorId s.executor)) (chainOf s.steps)

def Root.toRoot (r : Root) : LoadTest.Root :=
  ⟨r.position, r.scenario.toBlock⟩

def Test.toTest (t : Test) : LoadTest.Test :=
  ⟨t.library, t.roots.map Root.toRoot⟩

def Test.scenarios (t : Test) : List Scenario :=
  t.roots.map Root.scenario

end Complete
end LoadTest

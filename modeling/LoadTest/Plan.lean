import LoadTest.Block.Content

/-!
Plans: what a test does, step by step.

A plan has no ids and no slots.  A chain of blocks is a list of steps, and library calls are
requests like any other.
-/

namespace LoadTest
namespace Plan

structure Pair where
  name : String
  value : String
  deriving DecidableEq

/-- A request to be sent; the parameters make up its query. -/
structure Call where
  name : String
  method : String
  url : String
  parameters : List Pair
  headers : List Pair
  deriving DecidableEq

inductive Assertion where
  | hasStatus (status : UInt16)
  | bodyContains (value : String)
  deriving DecidableEq

inductive Step where
  | request (call : Call)
  | group (name : String) (steps : List Step)
  | check (target : Call) (assertions : List Assertion)
  | sleep (seconds : Float)

structure Scenario where
  name : String
  executor : Executor
  steps : List Step

end Plan

structure Plan where
  scenarios : List Plan.Scenario

end LoadTest

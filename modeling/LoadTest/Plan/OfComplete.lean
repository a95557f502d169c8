import LoadTest.Complete
import LoadTest.Plan

/-!
The plan of a complete test: ids are left out, and library calls become requests.
-/

namespace LoadTest
namespace Plan

namespace Pair

def ofNameValue (p : NameValue) : Pair :=
  ⟨p.name, p.value⟩

end Pair

namespace Call

def ofRequest (r : Request) : Call where
  name := r.name
  method := r.method
  url := r.url
  parameters := r.parameters.map Pair.ofNameValue
  headers := r.headers.map Pair.ofNameValue

/-- The parameters that are sent: those that have a value. -/
def libraryPairs (parameters : Dict Parameter) : List Pair :=
  (parameters.entries.filter fun p => !p.2.isEmptyString).map fun p => ⟨p.1, p.2.shown⟩

def ofLibraryCall (c : LibraryCall) : Call where
  name := c.name
  method := c.method
  url := c.url
  parameters := libraryPairs c.parameters
  headers := []

end Call

namespace Assertion

def ofExpectation : Expectation → Assertion
  | .status _ code => hasStatus code
  | .contains _ text => bodyContains text

end Assertion

mutual

def Step.ofComplete : Complete.Step → Step
  | .group _ name steps => .group name (stepsOf steps)
  | .request _ r => .request (Call.ofRequest r)
  | .library _ c => .request (Call.ofLibraryCall c)
  | .check _ es _ target => .check (Call.ofRequest target) (es.map Assertion.ofExpectation)
  | .sleep _ x => .sleep x

def stepsOf : List Complete.Step → List Step
  | [] => []
  | s :: r => Step.ofComplete s :: stepsOf r

end

def Scenario.ofComplete (s : Complete.Scenario) : Scenario :=
  ⟨s.name, s.executor, stepsOf s.steps⟩

def ofComplete (t : Complete.Test) : Plan :=
  ⟨t.scenarios.map Scenario.ofComplete⟩

theorem stepsOf_eq_map (steps : List Complete.Step) : stepsOf steps = steps.map Step.ofComplete := by
  induction steps with
  | nil => rfl
  | cons s r ih => simp [stepsOf, ih]

end Plan
end LoadTest

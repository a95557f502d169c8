import LoadTest.Block.Basic
import LoadTest.Supply

/-!
Blocks built from nothing, and linked into chains.

What is entered by hand gets a fresh id; a block's own id is always given.
-/

namespace LoadTest

namespace NameValue

def fresh (name value : String) : Fresh NameValue := do
  return ⟨← Supply.draw, name, value⟩

end NameValue

namespace Expectation

def freshStatus (code : UInt16) : Fresh Expectation := do
  return status (← Supply.draw) code

def freshContains (text : String) : Fresh Expectation := do
  return contains (← Supply.draw) text

end Expectation

namespace Block

/-! ## Blocks with empty slots -/

def newScenario (id : BlockId) (name : String) : Block :=
  scenario id name none none

def newGroup (id : BlockId) (name : String) : Block :=
  group id name none none

def newRequest (id : BlockId) (method url : String) : Block :=
  request id { name := "", method, url, parameters := [], headers := [] } none

def newLibrary (id : BlockId) (name method url : String) : Block :=
  library id { name, method, url, parameters := Dict.empty } none

def newCheck (id : BlockId) (expectations : List Expectation) : Block :=
  check id expectations none none

def newSleep (id : BlockId) (seconds : Float) : Block :=
  sleep id seconds none

def constantVus (id : BlockId) (vus : UInt32) (duration : String) : Block :=
  executor id (.constant vus duration)

def rampingVus (id : BlockId) (startVus : Option UInt32) (stages : List (UInt32 × String)) : Block :=
  executor id (.ramping startVus (stages.map fun s => ⟨s.1, s.2⟩))

/-! ## Edits -/

/-- Put `c` into a slot in place of what it holds. -/
def withChild (b : Block) (s : Slot) (c : Block) : Block :=
  b.setChild s (some c)

/-- Name the block, if its kind has a name. -/
def named (b : Block) (name : String) : Block :=
  match b with
  | scenario id _ e s => scenario id name e s
  | group id _ s n => group id name s n
  | request id r n => request id { r with name } n
  | library id call n => library id { call with name } n
  | b => b

/-- Add a query parameter to a request, or set one of a library call. -/
def withParameter (b : Block) (name value : String) : Fresh Block := do
  match b with
  | request id r n =>
    return request id { r with parameters := r.parameters ++ [← NameValue.fresh name value] } n
  | library id call n =>
    return library id { call with parameters := call.parameters.insert name (.string value) } n
  | b => return b

def withHeader (b : Block) (name value : String) : Fresh Block := do
  match b with
  | request id r n =>
    return request id { r with headers := r.headers ++ [← NameValue.fresh name value] } n
  | b => return b

/-- Put the shape of a constant load into a scenario, under an id made from the scenario's. -/
def withConstantVus (b : Block) (vus : UInt32) (duration : String) : Block :=
  b.withChild .executor (constantVus (b.id ++ "-executor") vus duration)

/-! ## Chains -/

/-- `b` in front of a chain; without a `next` slot it drops the chain. -/
def link (b : Block) : Option Block → Option Block
  | none => some b
  | some tail => some (b.withChild .next tail)

/-- The blocks linked in order, and the head of that chain. -/
def chain (blocks : List Block) : Option Block :=
  blocks.foldr link none

/-- Put the chain of `steps` into a scenario or a group; an empty list leaves it as it is. -/
def withSteps (b : Block) (steps : List Block) : Block :=
  match chain steps with
  | none => b
  | some head => b.withChild .step head

@[simp] theorem chain_nil : chain [] = none := rfl

@[simp] theorem chain_cons (b : Block) (r : List Block) : chain (b :: r) = link b (chain r) := rfl

end Block
end LoadTest

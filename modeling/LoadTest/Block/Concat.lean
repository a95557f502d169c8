import LoadTest.Block.Basic

/-!
Joining two chains.
-/

namespace LoadTest

/-- An edit that the caller must not ask for. -/
inductive Fault where
  /-- The id stands for more than one block. -/
  | sharedId (id : BlockId)
  /-- A chain was to be put behind a block without a `next` slot. -/
  | noNextSlot (kind : Kind)
  deriving DecidableEq

def Fault.message : Fault → String
  | sharedId id => "block id " ++ id ++ " is reachable from more than one slot"
  | noNextSlot kind => kind.name ++ " blocks have no next slot"

namespace Block

mutual

/-- The chain that starts with the first block, with the second block at its end. -/
def concat : Block → Block → Except Fault Block
  | group id name s n, tail => return group id name s (some (← concatNext n tail))
  | request id r n, tail => return request id r (some (← concatNext n tail))
  | library id c n, tail => return library id c (some (← concatNext n tail))
  | check id es t n, tail => return check id es t (some (← concatNext n tail))
  | sleep id x n, tail => return sleep id x (some (← concatNext n tail))
  | scenario .., _ => .error (.noNextSlot .scenario)
  | executor .., _ => .error (.noNextSlot .executor)

/-- The chain in a `next` slot, with `tail` at its end. -/
def concatNext : Option Block → Block → Except Fault Block
  | none, tail => return tail
  | some b, tail => b.concat tail

end

/-- A block without a `next` slot cannot head a chain. -/
theorem concat_of_not_isStep {b : Block} (h : b.kind.isStep = false) (tail : Block) :
    b.concat tail = .error (.noNextSlot b.kind) := by
  cases b <;> simp_all [kind, Kind.isStep, concat]

end Block
end LoadTest

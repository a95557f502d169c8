import LoadTest.Block.Content

/-!
Blocks and their slots.

A block owns other blocks through its slots, which may be empty and may hold a block of any kind:
`Slot.accepts` says what belongs there, but nothing here enforces it.  `Kind.slots` is the one
place that knows which slots a block has and in which order they are visited; `slots` and
`children` are views through it.
-/

namespace LoadTest

inductive Slot where
  /-- The load shape of a scenario. -/
  | executor
  /-- The head of the chain nested in a scenario or a group. -/
  | step
  /-- The continuation of a chain. -/
  | next
  /-- The request that a check looks at. -/
  | target
  deriving DecidableEq, Repr

inductive Kind where
  | scenario
  | group
  | request
  | library
  | check
  | executor
  | sleep
  deriving DecidableEq, Repr

inductive Block where
  | scenario (id : BlockId) (name : String) (executor step : Option Block)
  | group (id : BlockId) (name : String) (step next : Option Block)
  | request (id : BlockId) (request : Request) (next : Option Block)
  | library (id : BlockId) (call : LibraryCall) (next : Option Block)
  | check (id : BlockId) (expectations : List Expectation) (target next : Option Block)
  | executor (id : BlockId) (shape : Executor)
  | sleep (id : BlockId) (seconds : Float) (next : Option Block)

namespace Kind

def name : Kind → String
  | scenario => "scenario"
  | group => "group"
  | request => "http-request"
  | library => "library"
  | check => "check"
  | executor => "executor"
  | sleep => "sleep"

/-- The slots of a block, in the order in which they are visited. -/
def slots : Kind → List Slot
  | scenario => [.executor, .step]
  | group => [.step, .next]
  | check => [.next, .target]
  | request | library | sleep => [.next]
  | executor => []

/-- A block that does something when its turn comes. -/
def isStep : Kind → Bool
  | group | request | library | check | sleep => true
  | scenario | executor => false

def hasSlot (k : Kind) (s : Slot) : Bool :=
  k.slots.contains s

/-- Chains are made of steps. -/
theorem hasSlot_next (k : Kind) : k.hasSlot .next = k.isStep := by
  cases k <;> rfl

theorem nodup_slots (k : Kind) : k.slots.Nodup := by
  cases k <;> decide

end Kind

namespace Slot

def name : Slot → String
  | executor => "executor"
  | step => "step"
  | next => "next"
  | target => "target"

def all : List Slot := [executor, step, next, target]

def ofName? (s : String) : Option Slot :=
  all.find? (·.name == s)

/-- A block of kind `k` belongs in the slot. -/
def accepts : Slot → Kind → Bool
  | executor, k => k = .executor
  | step, k | next, k => k.isStep
  | target, k => k = .request

/-- A chain slot keeps what it holds behind a block put there; the others hold one block. -/
def isChain : Slot → Bool
  | step | next => true
  | executor | target => false

@[simp] theorem ofName?_name (s : Slot) : ofName? s.name = some s := by
  cases s <;> decide

end Slot

namespace Block

def id : Block → BlockId
  | scenario id .. | group id .. | request id .. | library id .. | check id .. | executor id _
  | sleep id .. => id

def kind : Block → Kind
  | scenario .. => .scenario
  | group .. => .group
  | request .. => .request
  | library .. => .library
  | check .. => .check
  | executor .. => .executor
  | sleep .. => .sleep

/-- The block in a slot, if the slot exists and is not empty. -/
def child? : Block → Slot → Option Block
  | scenario _ _ e _, .executor => e
  | scenario _ _ _ s, .step => s
  | group _ _ s _, .step => s
  | group _ _ _ n, .next => n
  | request _ _ n, .next => n
  | library _ _ n, .next => n
  | check _ _ t _, .target => t
  | check _ _ _ n, .next => n
  | sleep _ _ n, .next => n
  | _, _ => none

/-- Put `c` into a slot; a block without that slot stays as it is. -/
def setChild : Block → Slot → Option Block → Block
  | scenario id name _ s, .executor, c => scenario id name c s
  | scenario id name e _, .step, c => scenario id name e c
  | group id name _ n, .step, c => group id name c n
  | group id name s _, .next, c => group id name s c
  | request id r _, .next, c => request id r c
  | library id call _, .next, c => library id call c
  | check id es _ n, .target, c => check id es c n
  | check id es t _, .next, c => check id es t c
  | sleep id x _, .next, c => sleep id x c
  | b, _, _ => b

/-- The slots with what they hold, in visit order. -/
def slots (b : Block) : List (Slot × Option Block) :=
  b.kind.slots.map fun s => (s, b.child? s)

/-- The occupied slots with their blocks, in visit order. -/
def children (b : Block) : List (Slot × Block) :=
  b.slots.filterMap fun (s, c) => c.map (s, ·)

def setId : Block → BlockId → Block
  | scenario _ name e s, id => scenario id name e s
  | group _ name s n, id => group id name s n
  | request _ r n, id => request id r n
  | library _ call n, id => library id call n
  | check _ es t n, id => check id es t n
  | executor _ shape, id => executor id shape
  | sleep _ x n, id => sleep id x n

/-! ## Reading a slot that was written -/

theorem child?_eq_none {b : Block} {s : Slot} (h : b.kind.hasSlot s = false) :
    b.child? s = none := by
  cases b <;> cases s <;> simp_all [child?, kind, Kind.hasSlot, Kind.slots]

theorem setChild_eq_self {b : Block} {s : Slot} (h : b.kind.hasSlot s = false)
    (c : Option Block) : b.setChild s c = b := by
  cases b <;> cases s <;> simp_all [setChild, kind, Kind.hasSlot, Kind.slots]

theorem child?_setChild_self {b : Block} {s : Slot} (h : b.kind.hasSlot s = true)
    (c : Option Block) : (b.setChild s c).child? s = c := by
  cases b <;> cases s <;> simp_all [child?, setChild, kind, Kind.hasSlot, Kind.slots]

theorem child?_setChild_of_ne (b : Block) {s s' : Slot} (h : s' ≠ s) (c : Option Block) :
    (b.setChild s c).child? s' = b.child? s' := by
  cases b <;> cases s <;> cases s' <;> simp_all [child?, setChild]

@[simp] theorem setChild_child? (b : Block) (s : Slot) : b.setChild s (b.child? s) = b := by
  cases b <;> cases s <;> rfl

@[simp] theorem setChild_setChild (b : Block) (s : Slot) (c d : Option Block) :
    (b.setChild s c).setChild s d = b.setChild s d := by
  cases b <;> cases s <;> rfl

@[simp] theorem id_setChild (b : Block) (s : Slot) (c : Option Block) :
    (b.setChild s c).id = b.id := by
  cases b <;> cases s <;> rfl

@[simp] theorem kind_setChild (b : Block) (s : Slot) (c : Option Block) :
    (b.setChild s c).kind = b.kind := by
  cases b <;> cases s <;> rfl

@[simp] theorem id_setId (b : Block) (id : BlockId) : (b.setId id).id = id := by
  cases b <;> rfl

@[simp] theorem kind_setId (b : Block) (id : BlockId) : (b.setId id).kind = b.kind := by
  cases b <;> rfl

@[simp] theorem child?_setId (b : Block) (id : BlockId) (s : Slot) :
    (b.setId id).child? s = b.child? s := by
  cases b <;> cases s <;> rfl

theorem mem_children {b c : Block} {s : Slot} :
    (s, c) ∈ b.children ↔ b.child? s = some c := by
  cases b <;> cases s <;> simp [children, slots, kind, Kind.slots, child?]

end Block
end LoadTest

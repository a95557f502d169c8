import LoadTest.Dict
import LoadTest.Decimal.Written

/-!
What blocks hold besides other blocks: requests, expectations and load shapes.
-/

namespace LoadTest

/-- An opaque text, unique in a tree. -/
abbrev BlockId := String

/-- A query parameter or a header of a request. -/
structure NameValue where
  id : String
  name : String
  value : String
  deriving DecidableEq

/-- A parameter of an endpoint of the library. -/
inductive Parameter where
  | string (s : String)
  | number (x : Float)
  | boolean (b : Bool)

/-- What a check asks of a response. -/
inductive Expectation where
  | status (id : String) (code : UInt16)
  | contains (id : String) (text : String)
  deriving DecidableEq

structure Stage where
  target : UInt32
  duration : String
  deriving DecidableEq

/-- The shape of the load. -/
inductive Executor where
  | constant (vus : UInt32) (duration : String)
  | ramping (startVus : Option UInt32) (stages : List Stage)
  deriving DecidableEq

structure Request where
  name : String
  method : String
  url : String
  parameters : List NameValue
  headers : List NameValue
  deriving DecidableEq

/-- A call of an endpoint picked from the library. -/
structure LibraryCall where
  name : String
  method : String
  url : String
  parameters : Dict Parameter

namespace Parameter

/-- Whole numbers of this magnitude and above are shown as floats are. -/
def wholeBound : Nat := Nat.pow 2 63

/-- The parameter as it is sent.  A whole number is shown exactly, and without a sign if zero. -/
def shown : Parameter → String
  | string s => s
  | boolean b => if b then "true" else "false"
  | number x =>
    match (Decimal.Binary.ofFloat x).integer? with
    | some n => if n.natAbs < wholeBound then toString n else Decimal.plainText x
    | none => Decimal.plainText x

/-- The empty text, which stands for a parameter without a value. -/
def isEmptyString : Parameter → Bool
  | string s => s.isEmpty
  | _ => false

end Parameter

namespace Executor

/-- A ramping load without stages has no shape at all. -/
def isStageless : Executor → Bool
  | ramping _ stages => stages.isEmpty
  | constant .. => false

end Executor
end LoadTest

import LoadTest.Json.Basic
import LoadTest.Record

/-!
Fields, lists and maps of JSON values, read and written.
-/

namespace LoadTest
namespace Json

open Record (withDefault)

variable {β : Type}

/-- What `read` finds, and nothing for a null. -/
def orNull (read : Json → Option β) (j : Json) : Option (Option β) :=
  if j.isNull then some none else (read j).map some

/-- A field that may be missing or null. -/
def optional (read : Json → Option β) (name : String) (fields : List (String × Json)) :
    Option (Option β) :=
  withDefault none (orNull read) name fields

def listOf? (read : Json → Option β) (j : Json) : Option (List β) := do
  (← j.array?).mapM read

/-- A map; of two entries with one name the later one stays. -/
def dictOf? (read : Json → Option β) (j : Json) : Option (Dict β) := do
  let entries ← (← j.object?).mapM fun e => (read e.2).map (e.1, ·)
  return Dict.ofList entries

def ofDict (write : β → Json) (d : Dict β) : Json :=
  obj (d.entries.map fun e => (e.1, write e.2))

def ofOption (write : β → Json) : Option β → Json
  | none => null
  | some x => write x

/-! ## Words of a fixed width -/

def uint16? (j : Json) : Option UInt16 :=
  (j.nat? UInt16.size).map UInt16.ofNat

def uint32? (j : Json) : Option UInt32 :=
  (j.nat? UInt32.size).map UInt32.ofNat

def uint64? (j : Json) : Option UInt64 :=
  (j.nat? UInt64.size).map UInt64.ofNat

theorem nat?_int {n bound : Nat} (h : n < bound) : (int n).nat? bound = some n := by
  simp [nat?]
  omega

@[simp] theorem uint16?_int (n : UInt16) : uint16? (int n.toNat) = some n := by
  rw [uint16?, nat?_int n.toNat_lt]
  simp

@[simp] theorem uint32?_int (n : UInt32) : uint32? (int n.toNat) = some n := by
  rw [uint32?, nat?_int n.toNat_lt]
  simp

@[simp] theorem uint64?_int (n : UInt64) : uint64? (int n.toNat) = some n := by
  rw [uint64?, nat?_int n.toNat_lt]
  simp

end Json
end LoadTest

/-!
Records: lists of named fields, read by the names that are known.

A known field may stand anywhere among the others but only once; fields that are not known are
passed over.
-/

namespace LoadTest
namespace Record

variable {α β : Type}

/-- What stands in the fields called `name`, in order. -/
def valuesOf (name : String) (fields : List (String × α)) : List α :=
  (fields.filter (·.1 == name)).map Prod.snd

/-- A field that has to be there. -/
def required (read : α → Option β) (name : String) (fields : List (String × α)) : Option β :=
  match valuesOf name fields with
  | [v] => read v
  | _ => none

/-- A field with the value `default` when it is missing. -/
def withDefault (default : β) (read : α → Option β) (name : String) (fields : List (String × α)) :
    Option β :=
  match valuesOf name fields with
  | [] => some default
  | [v] => read v
  | _ => none

@[simp] theorem valuesOf_nil (name : String) :
    valuesOf name ([] : List (String × α)) = [] := rfl

theorem valuesOf_cons (name k : String) (v : α) (r : List (String × α)) :
    valuesOf name ((k, v) :: r) = if k = name then v :: valuesOf name r else valuesOf name r := by
  by_cases h : k = name <;> simp [valuesOf, h]

@[simp] theorem valuesOf_append (name : String) (r s : List (String × α)) :
    valuesOf name (r ++ s) = valuesOf name r ++ valuesOf name s := by
  simp [valuesOf]

end Record
end LoadTest

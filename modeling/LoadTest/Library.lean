import LoadTest.Json.Basic

/-!
The API schema that library blocks are taken from: any JSON value, kept in canonical form.
-/

namespace LoadTest

/-- A JSON value that is its own canonical form. -/
structure Library where
  schema : Json
  canonical_schema : schema.canonical = schema

namespace Library

def ofJson (j : Json) : Library :=
  ⟨j.canonical, j.canonical_canonical⟩

/-- The schema that a new test starts with. -/
def empty : Library :=
  ofJson (.obj [
    ("swagger", .str "2.0"),
    ("info", .obj [("title", .str "Untitled API"), ("version", .str "0.0.0")]),
    ("paths", .obj [])])

@[ext] theorem ext {a b : Library} (h : a.schema = b.schema) : a = b := by
  cases a
  cases b
  simp_all

@[simp] theorem ofJson_schema (l : Library) : ofJson l.schema = l :=
  ext l.canonical_schema

end Library
end LoadTest

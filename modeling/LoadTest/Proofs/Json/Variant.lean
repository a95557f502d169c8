import LoadTest.Json.Record
import Mathlib.Data.List.Nodup
import Mathlib.Data.List.Perm.Basic
import Mathlib.Logic.Relation

/-!
JSON values that say the same.

A shape says which fields an object is known to have.  Fields may stand in any order, others may
stand among them, and a slot that is empty may be missing or null; all of this also below fields,
items and entries.  Reading a value as of its shape cannot tell such variants apart.
-/

namespace LoadTest
namespace Json

open Record (valuesOf required withDefault)

/-- What a JSON value is read as. -/
inductive Shape where
  /-- Something without fields. -/
  | scalar
  /-- Any value, of which everything is kept. -/
  | schema
  | list (item : Shape)
  | dict (entry : Shape)
  | nameValue | parameter | expectation | stage | executor | block
  | root | test | document | environment | config
  | pair | call | assertion | step | scenario | plan

/-- A field that an object is known to have. -/
structure Field where
  name : String
  shape : Shape
  /-- A null is as good as no such field. -/
  optional : Bool

namespace Field

def plain (name : String) : Field := ⟨name, .scalar, false⟩

def slot (name : String) : Field := ⟨name, .block, true⟩

end Field

namespace Shape

open Json.Field (plain slot)

def requestFields (item : Shape) : List Field :=
  [plain "name", plain "method", plain "url", ⟨"parameters", .list item, false⟩,
    ⟨"headers", .list item, false⟩]

/-- The fields of an executor of the given type. -/
def executorFields : Option String → List Field
  | some "constant-vus" => [plain "vus", plain "duration"]
  | some "ramping-vus" => [⟨"startVUs", .scalar, true⟩, ⟨"stages", .list .stage, false⟩]
  | _ => []

def blockFields : Option String → List Field
  | some "scenario" => [plain "name", slot "executor", slot "step"]
  | some "group" => [plain "name", slot "step", slot "next"]
  | some "http-request" => requestFields .nameValue ++ [slot "next"]
  | some "library" =>
    [plain "name", plain "method", plain "url", ⟨"parameters", .dict .parameter, false⟩, slot "next"]
  | some "check" => [⟨"checks", .list .expectation, false⟩, slot "target", slot "next"]
  | some "executor" => [⟨"executor", .executor, false⟩]
  | some "sleep" => [plain "seconds", slot "next"]
  | _ => []

def assertionFields : Option String → List Field
  | some "has-status" => [plain "status"]
  | some "body-contains" => [plain "value"]
  | _ => []

def stepFields : Option String → List Field
  | some "http-request" => requestFields .pair
  | some "group" => [plain "name", ⟨"steps", .list .step, false⟩]
  | some "check" => [⟨"target", .call, false⟩, ⟨"checks", .list .assertion, false⟩]
  | some "sleep" => [plain "seconds"]
  | _ => []

/-- The fields that an object of a shape is known to have, by its `type`. -/
def fields : Shape → Option String → List Field
  | .scalar, _ | .schema, _ | .list _, _ | .dict _, _ => []
  | .nameValue, _ => [plain "id", plain "name", plain "value"]
  | .parameter, _ => [plain "type", plain "value"]
  | .expectation, _ => [plain "type", plain "id", plain "value"]
  | .stage, _ => [plain "target", plain "duration"]
  | .executor, tag => plain "type" :: executorFields tag
  | .block, tag => plain "type" :: plain "id" :: blockFields tag
  | .root, _ => [plain "top", plain "left", ⟨"block", .block, false⟩]
  | .test, _ => [⟨"library", .schema, false⟩, ⟨"roots", .list .root, false⟩]
  | .document, _ => [plain "version", ⟨"library", .schema, false⟩, ⟨"roots", .list .root, false⟩]
  | .environment, _ =>
    [plain "name", ⟨"description", .scalar, true⟩, ⟨"variables", .dict .scalar, false⟩]
  | .config, _ => [plain "indent_width", plain "warn_unresolved"]
  | .pair, _ => [plain "name", plain "value"]
  | .call, _ => requestFields .pair
  | .assertion, tag => plain "type" :: assertionFields tag
  | .step, tag => plain "type" :: stepFields tag
  | .scenario, _ =>
    [plain "name", ⟨"executor", .executor, false⟩, ⟨"steps", .list .step, false⟩]
  | .plan, _ => [⟨"scenarios", .list .scenario, false⟩]

/-- Whether other fields than the known ones are passed over. -/
def isRecord : Shape → Bool
  | .scalar | .schema | .list _ | .dict _ => false
  | _ => true

end Shape

/-- The `type` of an object. -/
def tag? (fields : List (String × Json)) : Option String :=
  required str? "type" fields

/-- One difference that reading does not see. -/
inductive Variant : Shape → Json → Json → Prop
  /-- The fields of an object, in another order. -/
  | order {s : Shape} {fields fields' : List (String × Json)} (names : (fields.map Prod.fst).Nodup)
      (perm : fields.Perm fields') : Variant s (.obj fields) (.obj fields')
  /-- A field that is not known. -/
  | unknown {s : Shape} {l r : List (String × Json)} {name : String} {v : Json}
      (record : s.isRecord = true) (other : ∀ f ∈ s.fields (tag? (l ++ r)), f.name ≠ name) :
      Variant s (.obj (l ++ r)) (.obj (l ++ (name, v) :: r))
  /-- A null for an optional field that is missing. -/
  | null {s : Shape} {l r : List (String × Json)} {f : Field}
      (known : f ∈ s.fields (tag? (l ++ r))) (optional : f.optional = true)
      (missing : ∀ e ∈ l ++ r, e.1 ≠ f.name) :
      Variant s (.obj (l ++ r)) (.obj (l ++ (f.name, .null) :: r))
  | field {s : Shape} {l r : List (String × Json)} {f : Field} {v w : Json}
      (known : f ∈ s.fields (tag? (l ++ (f.name, v) :: r))) (inner : Variant f.shape v w) :
      Variant s (.obj (l ++ (f.name, v) :: r)) (.obj (l ++ (f.name, w) :: r))
  | item {s : Shape} {l r : List Json} {v w : Json} (inner : Variant s v w) :
      Variant (.list s) (.arr (l ++ v :: r)) (.arr (l ++ w :: r))
  | entry {s : Shape} {l r : List (String × Json)} {k : String} {v w : Json}
      (inner : Variant s v w) :
      Variant (.dict s) (.obj (l ++ (k, v) :: r)) (.obj (l ++ (k, w) :: r))
  | schemaItem {l r : List Json} {v w : Json} (inner : Variant .schema v w) :
      Variant .schema (.arr (l ++ v :: r)) (.arr (l ++ w :: r))
  | schemaField {l r : List (String × Json)} {k : String} {v w : Json}
      (inner : Variant .schema v w) :
      Variant .schema (.obj (l ++ (k, v) :: r)) (.obj (l ++ (k, w) :: r))

/-- The two values are the same but for any number of such differences. -/
def Same (s : Shape) : Json → Json → Prop :=
  Relation.EqvGen (Variant s)

/-! ## What is found of a known field -/

theorem nodup_fields (s : Shape) (tag : Option String) : ((s.fields tag).map Field.name).Nodup := by
  cases s with
  | executor => simp only [Shape.fields, Shape.executorFields]; split <;> decide
  | block => simp only [Shape.fields, Shape.blockFields]; split <;> decide
  | assertion => simp only [Shape.fields, Shape.assertionFields]; split <;> decide
  | step => simp only [Shape.fields, Shape.stepFields]; split <;> decide
  | _ => simp [Shape.fields, Shape.requestFields, Field.plain]

theorem valuesOf_perm {fields fields' : List (String × Json)} (h : fields.Perm fields')
    (hnames : (fields.map Prod.fst).Nodup) (name : String) :
    valuesOf name fields = valuesOf name fields' := by
  induction h with
  | nil => rfl
  | cons e h ih =>
    rw [List.map_cons, List.nodup_cons] at hnames
    rw [Record.valuesOf_cons, Record.valuesOf_cons, ih hnames.2]
  | swap e e' l =>
    rw [List.map_cons, List.map_cons, List.nodup_cons, List.mem_cons, not_or] at hnames
    obtain ⟨k, v⟩ := e
    obtain ⟨k', v'⟩ := e'
    by_cases hk : k = name
    · have hk' : k' ≠ name := fun h => hnames.1.1 (h.trans hk.symm)
      simp only [Record.valuesOf_cons, if_pos hk, if_neg hk']
    · simp only [Record.valuesOf_cons, if_neg hk]
  | trans h h' ih ih' => rw [ih hnames, ih' ((h.map Prod.fst).nodup_iff.mp hnames)]

/-- What two variants have under the name of a known field. -/
inductive Field.Agree (f : Field) : List Json → List Json → Prop
  | refl (vs : List Json) : f.Agree vs vs
  | null (optional : f.optional = true) : f.Agree [] [.null]
  | value {l r : List Json} {v w : Json} (inner : Variant f.shape v w) :
      f.Agree (l ++ v :: r) (l ++ w :: r)

theorem valuesOf_insert_of_ne {l r : List (String × Json)} {k name : String} (h : k ≠ name)
    (v : Json) : valuesOf name (l ++ (k, v) :: r) = valuesOf name (l ++ r) := by
  rw [Record.valuesOf_append, Record.valuesOf_append, Record.valuesOf_cons, if_neg h]

theorem valuesOf_insert_self (l r : List (String × Json)) (name : String) (v : Json) :
    valuesOf name (l ++ (name, v) :: r) = valuesOf name l ++ v :: valuesOf name r := by
  rw [Record.valuesOf_append, Record.valuesOf_cons, if_pos rfl]

theorem valuesOf_eq_nil {fields : List (String × Json)} {name : String}
    (h : ∀ e ∈ fields, e.1 ≠ name) : valuesOf name fields = [] := by
  rw [valuesOf, List.map_eq_nil_iff, List.filter_eq_nil_iff]
  exact fun e he => by simpa using h e he

/-- Two variants of a record agree on each of its known fields. -/
theorem Variant.agree {s : Shape} {v w : Json} (h : Variant s v w) (hs : s.isRecord = true) :
    ∃ fields fields', v = .obj fields ∧ w = .obj fields' ∧
      ∀ f ∈ s.fields (tag? fields), f.Agree (valuesOf f.name fields) (valuesOf f.name fields') := by
  have heq : ∀ {tag : Option String} {f g : Field}, f ∈ s.fields tag → g ∈ s.fields tag →
      f.name = g.name → f = g :=
    fun hf hg => List.inj_on_of_nodup_map (nodup_fields s _) hf hg
  cases h with
  | order names perm =>
    refine ⟨_, _, rfl, rfl, fun f hf => ?_⟩
    rw [valuesOf_perm perm names f.name]
    exact .refl _
  | unknown record other =>
    refine ⟨_, _, rfl, rfl, fun f hf => ?_⟩
    rw [valuesOf_insert_of_ne (other f hf).symm]
    exact .refl _
  | @null _ l r g known optional missing =>
    refine ⟨_, _, rfl, rfl, fun f hf => ?_⟩
    by_cases hname : g.name = f.name
    · obtain rfl := heq known hf hname
      have hnone := valuesOf_eq_nil missing
      rw [Record.valuesOf_append, List.append_eq_nil_iff] at hnone
      rw [valuesOf_insert_self, Record.valuesOf_append, hnone.1, hnone.2]
      exact .null optional
    · rw [valuesOf_insert_of_ne hname]
      exact .refl _
  | @field _ l r g v w known inner =>
    refine ⟨_, _, rfl, rfl, fun f hf => ?_⟩
    by_cases hname : g.name = f.name
    · obtain rfl := heq known hf hname
      rw [valuesOf_insert_self, valuesOf_insert_self]
      exact .value inner
    · rw [valuesOf_insert_of_ne hname, valuesOf_insert_of_ne hname]
      exact .refl _
  | item | entry | schemaItem | schemaField => cases hs

end Json
end LoadTest

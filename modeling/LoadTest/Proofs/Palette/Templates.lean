import LoadTest.Proofs.Palette.Parameters
import Mathlib.Data.List.Forall2
import Mathlib.Data.List.TakeWhile

/-!
The templates that a palette offers.

The schema of a library may have any shape.  What counts are its endpoints: the methods `get` and
`post` of its paths (`Serves`).  There is one template for each, in the order of the paths and with
`get` before `post`, and no two templates of a palette have the same id (`templates_palette`).
-/

namespace LoadTest

/-! ## Endpoints -/

namespace Json

/-- The fields of a canonical value are canonical. -/
theorem canonical_of_field? {j v : Json} {name : String} (h : j.canonical = j)
    (hv : j.field? name = some v) : v.canonical = v := by
  cases j with
  | obj fields =>
    have hfields : (Dict.ofList (canonicalFields fields)).entries = fields := obj.inj h
    obtain ⟨before, after, hsplit, -⟩ := List.lookup_eq_some_iff.mp hv
    have hmem : (name, v) ∈ fields := hsplit ▸ List.mem_append_right _ List.mem_cons_self
    rw [← hfields] at hmem
    exact canonical_fields fields _ (Dict.mem_of_mem_ofList hmem)
  | _ => cases hv

/-- A canonical object has its fields in order. -/
theorem sorted_of_canonical {fields : List (String × Json)}
    (h : (obj fields).canonical = obj fields) : fields.Pairwise fun a b => a.1 < b.1 := by
  have hfields : (Dict.ofList (canonicalFields fields)).entries = fields := obj.inj h
  rw [← hfields]
  exact Dict.sorted _

end Json

namespace Library

/-- Where the library was fetched from. -/
def base (l : Library) : String :=
  ((l.schema.field? "x-synced-from").bind Json.str?).getD ""

/-- The paths of the library with what it has for them. -/
def paths (l : Library) : Dict Json where
  entries := ((l.schema.field? "paths").bind Json.object?).getD []
  sorted := by
    cases hfield : l.schema.field? "paths" with
    | none => exact .nil
    | some j =>
      cases j with
      | obj fields =>
        exact Json.sorted_of_canonical (Json.canonical_of_field? l.canonical_schema hfield)
      | _ => exact .nil

theorem get?_paths (l : Library) (path : String) :
    l.paths.get? path = (l.schema.field? "paths").bind (·.field? path) := by
  show List.lookup path (((l.schema.field? "paths").bind Json.object?).getD []) = _
  cases l.schema.field? "paths" with
  | none => rfl
  | some j => cases j <;> rfl

end Library

/-- A method of a path, and what the library says of it. -/
structure Endpoint where
  path : String
  method : String
  operation : Json

/-- The library has the endpoint: the item of its path has a field for `get` or `post`. -/
def Library.Serves (l : Library) (x : Endpoint) : Prop :=
  (x.method = "get" ∨ x.method = "post") ∧
    ((l.schema.field? "paths").bind (·.field? x.path)).bind (·.field? x.method) = some x.operation

namespace Endpoint

/-- By their paths, and `get` before `post`. -/
def Precedes (x y : Endpoint) : Prop :=
  x.path < y.path ∨ x.path = y.path ∧ x.method = "get" ∧ y.method = "post"

def templateId (x : Endpoint) : String :=
  "library-" ++ x.method ++ "-" ++ x.path

/-- The endpoints of a path. -/
def ofPath (path : String × Json) : List Endpoint :=
  Category.methods.filterMap fun method => (path.2.field? method).map (⟨path.1, method, ·⟩)

theorem mem_ofPath {path : String × Json} {x : Endpoint} : x ∈ ofPath path ↔
    x.path = path.1 ∧ x.method ∈ Category.methods ∧ path.2.field? x.method = some x.operation := by
  rw [ofPath, List.mem_filterMap]
  constructor
  · intro h
    obtain ⟨method, hmethod, hx⟩ := h
    obtain ⟨operation, hoperation, rfl⟩ := Option.map_eq_some_iff.mp hx
    exact ⟨rfl, hmethod, hoperation⟩
  · intro h
    obtain ⟨hpath, hmethod, hoperation⟩ := h
    refine ⟨x.method, hmethod, Option.map_eq_some_iff.mpr ⟨x.operation, hoperation, ?_⟩⟩
    rw [← hpath]

theorem pairwise_ofPath (path : String × Json) : (ofPath path).Pairwise Precedes := by
  have hmethods : Category.methods.Pairwise fun a b => a = "get" ∧ b = "post" := by decide
  refine List.Pairwise.filterMap _ (fun a b hab x hx y hy => ?_) hmethods
  obtain ⟨-, -, rfl⟩ := Option.map_eq_some_iff.mp hx
  obtain ⟨-, -, rfl⟩ := Option.map_eq_some_iff.mp hy
  exact .inr ⟨rfl, hab⟩

end Endpoint

namespace Library

open Endpoint (Precedes ofPath)

/-- The endpoints of the library, in order. -/
def endpoints (l : Library) : List Endpoint :=
  l.paths.entries.flatMap ofPath

theorem mem_endpoints {l : Library} {x : Endpoint} : x ∈ l.endpoints ↔ l.Serves x := by
  have hmethods : x.method ∈ Category.methods ↔ x.method = "get" ∨ x.method = "post" := by
    simp [Category.methods]
  rw [endpoints, List.mem_flatMap, Serves, ← get?_paths, Option.bind_eq_some_iff, ← hmethods]
  constructor
  · intro h
    obtain ⟨⟨path, item⟩, hitem, hx⟩ := h
    obtain ⟨hpath, hmethod, hoperation⟩ := Endpoint.mem_ofPath.mp hx
    exact ⟨hmethod, item, Dict.mem_entries_iff.mp (hpath ▸ hitem), hoperation⟩
  · intro h
    obtain ⟨hmethod, item, hitem, hoperation⟩ := h
    exact ⟨(x.path, item), Dict.mem_entries_iff.mpr hitem,
      Endpoint.mem_ofPath.mpr ⟨rfl, hmethod, hoperation⟩⟩

theorem pairwise_endpoints (l : Library) : l.endpoints.Pairwise Precedes := by
  rw [endpoints, List.pairwise_flatMap]
  refine ⟨fun path _ => Endpoint.pairwise_ofPath path, l.paths.sorted.imp ?_⟩
  intro a b hab x hx y hy
  rw [Precedes, (Endpoint.mem_ofPath.mp hx).1, (Endpoint.mem_ofPath.mp hy).1]
  exact .inl hab

end Library

/-! ## The template of an endpoint -/

/-- The path alone if there is no base, and else the base without the slashes at its end, one slash
and the path without those at its start. -/
def Joins (base path url : String) : Prop :=
  (base = "" ∧ url = path) ∨
    base ≠ "" ∧ ∃ front rest m n,
      base.toList = front ++ List.replicate m '/' ∧ front.getLast? ≠ some '/' ∧
      path.toList = List.replicate n '/' ++ rest ∧ rest.head? ≠ some '/' ∧
      url.toList = front ++ '/' :: rest

namespace Category

/-- The declarations among the parameters of an operation. -/
def declarations (operation : Json) : List Json :=
  ((operation.field? "parameters").bind Json.array?).getD []

/-- The template is one for the endpoint.  Its parameters are the query parameters that the
operation declares, each as it is declared last. -/
structure Offers (base : String) (x : Endpoint) (tmpl : Template) (call : LibraryCall) : Prop where
  block : tmpl.block = .library x.templateId call none
  method : call.method = x.method
  url : Joins base x.path call.url
  keys : ∀ name, name ∈ call.parameters.keys ↔ ∃ d ∈ declarations x.operation, Declares d name
  values : ∀ name value, (name, value) ∈ call.parameters.entries ↔
    ∃ d, LastDeclares x.operation name d ∧ value = initialValue (schemaOf d)

theorem exists_dropSlashes (s : List Char) :
    ∃ n, s = List.replicate n '/' ++ dropSlashes s ∧ (dropSlashes s).head? ≠ some '/' := by
  refine ⟨(s.takeWhile (· = '/')).length, ?_, fun hhead => ?_⟩
  · have hslashes : s.takeWhile (· = '/') =
        List.replicate (s.takeWhile (· = '/')).length '/' :=
      List.eq_replicate_iff.mpr ⟨rfl, fun c hc => by simpa using List.mem_takeWhile_imp hc⟩
    rw [← hslashes, dropSlashes, List.takeWhile_append_dropWhile]
  · have hdropped := List.head?_dropWhile_not (· = '/') s
    rw [← dropSlashes, hhead] at hdropped
    cases hdropped

theorem joins_joinUrl (base path : String) : Joins base path (joinUrl base path) := by
  rw [joinUrl]
  split
  · next hbase => exact .inl ⟨String.isEmpty_iff.mp hbase, rfl⟩
  · next hbase =>
    obtain ⟨m, hfront, hlast⟩ := exists_dropSlashes base.toList.reverse
    obtain ⟨n, hrest, hhead⟩ := exists_dropSlashes path.toList
    have hturned := congrArg List.reverse hfront
    rw [List.reverse_reverse, List.reverse_append, List.reverse_replicate] at hturned
    refine .inr ⟨fun h => hbase (String.isEmpty_iff.mpr h), _, _, m, n, hturned, ?_, hrest, hhead,
      String.toList_ofList⟩
    rwa [List.getLast?_reverse]

theorem mem_keys_queryParameters {operation : Json} {name : String} :
    name ∈ (queryParameters operation).keys ↔
      ∃ d ∈ declarations operation, Declares d name := by
  rw [queryParameters, Dict.mem_keys_ofList, List.mem_map, declarations]
  constructor
  · intro h
    obtain ⟨⟨found, x⟩, hmem, rfl⟩ := h
    obtain ⟨d, hd, hread⟩ := List.mem_filterMap.mp hmem
    exact ⟨d, hd, (queryParameter?_eq_some_iff.mp hread).1⟩
  · intro h
    obtain ⟨d, hd, hdeclares⟩ := h
    have hread := queryParameter?_eq_some_iff.mpr ⟨hdeclares, rfl⟩
    exact ⟨_, List.mem_filterMap.mpr ⟨d, hd, hread⟩, rfl⟩

theorem exists_offers (base : String) (x : Endpoint) :
    ∃ call, Offers base x (operationTemplate base x.path x.method x.operation) call :=
  ⟨_, rfl, rfl, joins_joinUrl base x.path, fun _ => mem_keys_queryParameters,
    fun _ _ => mem_queryParameters_iff⟩

theorem templates_ofLibrary (l : Library) : (ofLibrary l).templates =
    l.endpoints.map fun x => operationTemplate l.base x.path x.method x.operation := by
  rw [Library.endpoints, List.map_flatMap]
  refine List.flatMap_congr fun path _ => ?_
  rw [Endpoint.ofPath, List.map_filterMap]
  refine List.filterMap_congr fun method _ => ?_
  rw [Option.map_map]
  rfl

/-! ## Ids -/

/-- The ids of the templates that every palette has. -/
def builtInIds : List String :=
  ["scenario-template", "executor-template", "group-template", "http-request-template",
    "check-template", "sleep-template"]

theorem map_id_ofLibrary (l : Library) :
    (ofLibrary l).templates.map Template.id = l.endpoints.map Endpoint.templateId := by
  rw [templates_ofLibrary, List.map_map]
  rfl

end Category

namespace Endpoint

theorem toList_templateId (x : Endpoint) : x.templateId.toList =
    "library-".toList ++ (x.method.toList ++ '-' :: x.path.toList) := by
  simp [templateId, String.toList_append]

/-- An id tells the method and the path. -/
theorem templateId_ne {x y : Endpoint} (hx : x.method = "get" ∨ x.method = "post")
    (hy : y.method = "get" ∨ y.method = "post") (h : x.Precedes y) :
    x.templateId ≠ y.templateId := by
  intro heq
  have hchars := congrArg String.toList heq
  rw [toList_templateId, toList_templateId, List.append_cancel_left_eq] at hchars
  have hmethods : x.method = y.method := by
    rcases hx with hx | hx <;> rcases hy with hy | hy <;> rw [hx, hy] at hchars ⊢ <;>
      simp at hchars
  rw [hmethods, List.append_cancel_left_eq, List.cons_inj_right] at hchars
  rcases h with hlt | ⟨-, hget, hpost⟩
  · exact String.ne_of_lt hlt (String.toList_inj.mp hchars)
  · rw [hmethods, hpost] at hget
    exact absurd hget (by decide)

end Endpoint

namespace Test

open Category (Offers)

theorem run_palette (t : Test) (s : Supply) : (t.palette.run s).1 =
    [Category.scenarios, (Category.steps.run s).1, Category.ofLibrary t.library] := rfl

theorem map_id_palette (t : Test) (s : Supply) :
    ((t.palette.run s).1.flatMap Category.templates).map Template.id =
      Category.builtInIds ++ t.library.endpoints.map Endpoint.templateId := by
  have hbuiltIn : (Category.scenarios.templates ++ (Category.steps.run s).1.templates).map
      Template.id = Category.builtInIds := rfl
  rw [run_palette, List.flatMap_cons, List.flatMap_cons, List.flatMap_singleton,
    ← List.append_assoc, List.map_append, hbuiltIn, Category.map_id_ofLibrary]

theorem nodup_ids_palette (t : Test) (s : Supply) :
    (((t.palette.run s).1.flatMap Category.templates).map Template.id).Nodup := by
  rw [map_id_palette, List.nodup_append]
  refine ⟨by decide, ?_, fun i hi j hj heq => ?_⟩
  · rw [List.Nodup, List.pairwise_map]
    refine t.library.pairwise_endpoints.imp_of_mem fun hx hy h => ?_
    exact Endpoint.templateId_ne (Library.mem_endpoints.mp hx).1 (Library.mem_endpoints.mp hy).1 h
  · -- An id of an endpoint starts with an `l`, and none of the others does.
    have hbuiltIn : ∀ i ∈ Category.builtInIds, i.toList.head? ≠ some 'l' := by decide +kernel
    obtain ⟨x, -, rfl⟩ := List.mem_map.mp hj
    refine hbuiltIn i hi ?_
    rw [heq, Endpoint.toList_templateId]
    rfl

/-- The last category of a palette has one template for each endpoint of the library, in order, and
the template is a block that calls the endpoint.  The templates of all categories have different
ids, so the first with an id is the only one. -/
theorem templates_palette (t : Test) (s : Supply) :
    let templates := (t.palette.run s).1.flatMap Category.templates
    let library := Category.ofLibrary t.library
    (t.palette.run s).1.getLast? = some library ∧
      (∃ xs : List Endpoint, xs.Pairwise Endpoint.Precedes ∧ (∀ x, x ∈ xs ↔ t.library.Serves x) ∧
        List.Forall₂ (fun x tmpl => ∃ call, Offers t.library.base x tmpl call) xs
          library.templates) ∧
      (templates.map Template.id).Nodup ∧
      ∀ tmpl ∈ templates, templates.find? (·.id == tmpl.id) = some tmpl := by
  intro templates library
  have hids : (templates.map Template.id).Nodup := t.nodup_ids_palette s
  refine ⟨rfl, ⟨t.library.endpoints, t.library.pairwise_endpoints,
    fun x => Library.mem_endpoints, ?_⟩, hids, fun tmpl htmpl => ?_⟩
  · show List.Forall₂ _ _ (Category.ofLibrary t.library).templates
    rw [Category.templates_ofLibrary, List.forall₂_map_right_iff, List.forall₂_same]
    exact fun x _ => Category.exists_offers t.library.base x
  · have hsome : (templates.find? (·.id == tmpl.id)).isSome :=
      List.find?_isSome.mpr ⟨tmpl, htmpl, beq_self_eq_true tmpl.id⟩
    obtain ⟨found, hfound⟩ := Option.isSome_iff_exists.mp hsome
    have hid : found.id = tmpl.id := by simpa using List.find?_some hfound
    rw [hfound, List.inj_on_of_nodup_map hids (List.mem_of_find?_eq_some hfound) htmpl hid]

end Test
end LoadTest

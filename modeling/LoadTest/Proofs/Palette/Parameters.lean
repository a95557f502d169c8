import LoadTest.Compilation
import LoadTest.Palette
import LoadTest.Proofs.Plan.Gap

/-!
What a call of an endpoint sends.

A template of the library has a value for every query parameter that its endpoint declares, and a
plan sends all of them but the empty texts.  So the default of a parameter is sent if it has one of
its type; without one a text is left out, but a number is sent as `0` and a truth value as `false`
(`parameters_of_instance`).
-/

namespace LoadTest
namespace Category

/-! ## Declarations -/

/-- The template calls the endpoint that the library has `operation` for. -/
def Calls (l : Library) (tmpl : Template) (operation : Json) : Prop :=
  ∃ paths path item method, (l.schema.field? "paths").bind Json.object? = some paths ∧
    (path, item) ∈ paths ∧ method ∈ methods ∧ item.field? method = some operation ∧
      tmpl = operationTemplate (((l.schema.field? "x-synced-from").bind Json.str?).getD "") path
        method operation

theorem mem_templates_iff {l : Library} {tmpl : Template} :
    tmpl ∈ (ofLibrary l).templates ↔ ∃ operation, Calls l tmpl operation := by
  rw [ofLibrary, List.mem_flatMap]
  constructor
  · rintro ⟨⟨path, item⟩, hpath, htmpl⟩
    obtain ⟨method, hmethod, hitem⟩ := List.mem_filterMap.mp htmpl
    obtain ⟨operation, hoperation, rfl⟩ := Option.map_eq_some_iff.mp hitem
    obtain ⟨paths, hpaths⟩ : ∃ paths,
        (l.schema.field? "paths").bind Json.object? = some paths := by
      cases h : (l.schema.field? "paths").bind Json.object? with
      | none =>
        rw [h] at hpath
        cases hpath
      | some paths => exact ⟨paths, rfl⟩
    rw [hpaths, Option.getD_some] at hpath
    exact ⟨operation, paths, path, item, method, hpaths, hpath, hmethod, hoperation, rfl⟩
  · rintro ⟨operation, paths, path, item, method, hpaths, hpath, hmethod, hoperation, rfl⟩
    refine ⟨(path, item), ?_, List.mem_filterMap.mpr ⟨method, hmethod, ?_⟩⟩
    · rw [hpaths]
      exact hpath
    · rw [hoperation, Option.map_some]

/-- The declaration is one of a query parameter of this name. -/
structure Declares (declaration : Json) (name : String) : Prop where
  query : (declaration.field? "in").bind Json.str? = some "query"
  name : (declaration.field? "name").bind Json.str? = some name

instance (declaration : Json) (name : String) : Decidable (Declares declaration name) :=
  decidable_of_iff
    ((declaration.field? "in").bind Json.str? = some "query" ∧
      (declaration.field? "name").bind Json.str? = some name)
    ⟨fun h => ⟨h.1, h.2⟩, fun h => ⟨h.query, h.name⟩⟩

/-- The operation declares the query parameter `name`, for the last time by this declaration. -/
def LastDeclares (operation : Json) (name : String) (declaration : Json) : Prop :=
  ∃ before after, (operation.field? "parameters").bind Json.array? =
      some (before ++ declaration :: after) ∧
    Declares declaration name ∧ ∀ d ∈ after, ¬ Declares d name

/-- Where the type and the default of a parameter stand. -/
def schemaOf (declaration : Json) : Json :=
  (declaration.field? "schema").getD declaration

inductive ValueType where
  | number
  | boolean
  | text

/-- The declared type; whatever is no number and no truth value is a text. -/
def valueType (schema : Json) : ValueType :=
  match (schema.field? "type").bind Json.str? with
  | some "integer" | some "number" => .number
  | some "boolean" => .boolean
  | _ => .text

/-- The default that a parameter has, if that is of its type.  An empty text is none. -/
def default? (schema : Json) : Option Parameter :=
  let default := schema.field? "default"
  match valueType schema with
  | .number => (default.bind Json.float?).map .number
  | .boolean => (default.bind Json.bool?).map .boolean
  | .text => ((default.bind Json.str?).filter fun s => !s.isEmpty).map .string

/-- What is sent for a parameter of this type if it has no default. -/
def ValueType.standIn? : ValueType → Option String
  | number => some "0"
  | boolean => some "false"
  | text => none

/-- The text is sent for a parameter of this schema. -/
def Sends (schema : Json) (value : String) : Prop :=
  (∃ default, default? schema = some default ∧ default.shown = value) ∨
    (default? schema = none ∧ (valueType schema).standIn? = some value)

/-! ## Values -/

theorem initialValue_eq (schema : Json) : initialValue schema =
    match valueType schema with
    | .number => .number (((schema.field? "default").bind Json.float?).getD 0)
    | .boolean => .boolean (((schema.field? "default").bind Json.bool?).getD false)
    | .text => .string (((schema.field? "default").bind Json.str?).getD "") := by
  unfold initialValue valueType
  split <;> simp only [*]

theorem shown_zero : (Parameter.number 0).shown = "0" := by
  decide +kernel

/-- The initial value tells what is sent. -/
theorem sends_iff {schema : Json} {value : String} : Sends schema value ↔
    (initialValue schema).isEmptyString = false ∧ (initialValue schema).shown = value := by
  rw [Sends, default?, initialValue_eq]
  cases valueType schema with
  | number =>
    cases (schema.field? "default").bind Json.float? with
    | none => simp [ValueType.standIn?, Parameter.isEmptyString, shown_zero]
    | some x => simp [Parameter.isEmptyString]
  | boolean =>
    cases (schema.field? "default").bind Json.bool? with
    | none => simp [ValueType.standIn?, Parameter.isEmptyString, Parameter.shown]
    | some b => simp [Parameter.isEmptyString]
  | text =>
    cases (schema.field? "default").bind Json.str? with
    | none => simp [ValueType.standIn?, Parameter.isEmptyString]
    | some s =>
      by_cases hs : s = ""
      · simp [ValueType.standIn?, Parameter.isEmptyString, hs]
      · simp [Parameter.isEmptyString, hs]

theorem queryParameter?_eq_some_iff {declaration : Json} {name : String} {x : Parameter} :
    queryParameter? declaration = some (name, x) ↔
      Declares declaration name ∧ x = initialValue (schemaOf declaration) := by
  rw [queryParameter?, ← schemaOf]
  constructor
  · intro h
    split at h
    · next hquery =>
      obtain ⟨found, hfound, heq⟩ := Option.map_eq_some_iff.mp h
      cases heq
      exact ⟨⟨hquery, hfound⟩, rfl⟩
    · cases h
  · rintro ⟨⟨hquery, hname⟩, rfl⟩
    rw [if_pos hquery, hname, Option.map_some]

/-- Of the declarations of one name the last one gives the value. -/
theorem mem_queryParameters_iff {operation : Json} {name : String} {x : Parameter} :
    (name, x) ∈ (queryParameters operation).entries ↔
      ∃ declaration, LastDeclares operation name declaration ∧
        x = initialValue (schemaOf declaration) := by
  rw [queryParameters, Dict.mem_ofList_iff]
  constructor
  · rintro ⟨before, after, hsplit, hafter⟩
    -- The entries are those of some declarations, so the list of these is split with them.
    obtain ⟨front, rest, hlist, -, hrest⟩ := List.filterMap_eq_append_iff.mp hsplit
    obtain ⟨skipped, d, later, rfl, -, hd, rfl⟩ := List.filterMap_eq_cons_iff.mp hrest
    obtain ⟨hdeclares, rfl⟩ := queryParameter?_eq_some_iff.mp hd
    refine ⟨d, ⟨front ++ skipped, later, ?_, hdeclares, fun u hu hname => ?_⟩, rfl⟩
    · cases hlists : (operation.field? "parameters").bind Json.array? with
      | none =>
        rw [hlists] at hlist
        simp at hlist
      | some declarations =>
        rw [hlists, Option.getD_some] at hlist
        rw [hlist, List.append_assoc]
    · have hread := queryParameter?_eq_some_iff.mpr ⟨hname, rfl⟩
      exact hafter _ (List.mem_filterMap.mpr ⟨u, hu, hread⟩) rfl
  · rintro ⟨d, ⟨before, after, hlist, hdeclares, hafter⟩, rfl⟩
    have hread := queryParameter?_eq_some_iff.mpr ⟨hdeclares, rfl⟩
    refine ⟨before.filterMap queryParameter?, after.filterMap queryParameter?, ?_, ?_⟩
    · rw [hlist, Option.getD_some, List.filterMap_append, List.filterMap_cons, hread]
    · rintro ⟨_, _⟩ he rfl
      obtain ⟨u, hu, hread⟩ := List.mem_filterMap.mp he
      exact hafter u hu (queryParameter?_eq_some_iff.mp hread).1

end Category

/-- The block is a copy of the template, with any block behind it. -/
def Template.IsInstance (tmpl : Template) (o : Block) : Prop :=
  ∃ s, o = (tmpl.instantiate.run s).1.setChild .next (o.child? .next)

open Category in
/-- A copy has the parameters of the endpoint. -/
theorem Template.IsInstance.exists_library {l : Library} {tmpl : Template} {o : Block}
    (h : tmpl.IsInstance o) (htmpl : tmpl ∈ (ofLibrary l).templates) :
    ∃ id call, o = .library id call (o.child? .next) ∧
      ∀ operation, Calls l tmpl operation → call.parameters = queryParameters operation := by
  obtain ⟨operation, -, path, -, method, -, -, -, -, rfl⟩ := mem_templates_iff.mp htmpl
  obtain ⟨s, ho⟩ := h
  refine ⟨s.id s.used, _, ho, ?_⟩
  rintro other ⟨-, path', -, method', -, -, -, -, heq⟩
  obtain ⟨-, hcall, -⟩ := Block.library.inj (congrArg Template.block heq)
  exact congrArg LibraryCall.parameters hcall

namespace Plan.Call

/-! ## Pairs -/

theorem mem_libraryPairs_iff {parameters : Dict Parameter} {name value : String} :
    ⟨name, value⟩ ∈ libraryPairs parameters ↔ ∃ x, (name, x) ∈ parameters.entries ∧
      x.isEmptyString = false ∧ x.shown = value := by
  rw [libraryPairs, List.mem_map]
  constructor
  · rintro ⟨⟨found, x⟩, hfound, heq⟩
    cases heq
    obtain ⟨hmem, hfull⟩ := List.mem_filter.mp hfound
    exact ⟨x, hmem, by simpa using hfull, rfl⟩
  · rintro ⟨x, hmem, hfull, rfl⟩
    exact ⟨(name, x), List.mem_filter.mpr ⟨hmem, by simpa using hfull⟩, rfl⟩

theorem sorted_libraryPairs (parameters : Dict Parameter) :
    (libraryPairs parameters).Pairwise fun a b => a.name < b.name :=
  List.pairwise_map.mpr (parameters.sorted.sublist List.filter_sublist)

/-- The endpoint's declarations tell what a call of it sends. -/
theorem mem_libraryPairs_queryParameters {operation : Json} {name value : String} :
    ⟨name, value⟩ ∈ libraryPairs (Category.queryParameters operation) ↔
      ∃ declaration, Category.LastDeclares operation name declaration ∧
        Category.Sends (Category.schemaOf declaration) value := by
  rw [mem_libraryPairs_iff]
  simp only [Category.mem_queryParameters_iff, Category.sends_iff]
  constructor
  · rintro ⟨x, ⟨declaration, hlast, rfl⟩, hsent⟩
    exact ⟨declaration, hlast, hsent⟩
  · rintro ⟨declaration, hlast, hsent⟩
    exact ⟨_, ⟨declaration, hlast, rfl⟩, hsent⟩

end Plan.Call

namespace Test

open Complete (Gap)
open Category (Calls LastDeclares Sends schemaOf)

/-- A step of a test has a place in its plan. -/
theorem exists_gap_of_plan {t : Test} {p : Plan} (hp : t.plan = .ok p) {b o : Block}
    (hb : b ∈ t.scenarioBlocks) (ho : o ∈ Block.spineSlot (b.child? .step)) :
    ∃ g : Gap, t.complete = .ok (g.fill []) ∧ p = g.plan.fill [] ∧ g.Behind o := by
  obtain ⟨c, hc, rfl⟩ : ∃ c, t.complete = .ok c ∧ p = Plan.ofComplete c := by
    rw [plan] at hp
    split at hp
    · exact ⟨_, ‹_›, (Except.ok.inj hp).symm⟩
    · cases hp
  have hblocks : c.toTest.blocks = t.scenarioBlocks := by
    rw [(complete_eq_ok_iff.mp hc).1]
    rfl
  obtain ⟨g, rfl, hbehind⟩ := Complete.exists_gap_behind (hblocks ▸ hb) ho
  exact ⟨g, hc, Complete.ofComplete_fill g [], hbehind⟩

/-- An instance of a template of a library that is a step of a test is planned as a request, which
sends for each query parameter what the last declaration of it says. -/
theorem parameters_of_instance {t : Test} {p : Plan} (hp : t.plan = .ok p) {l : Library}
    {tmpl : Template} (htmpl : tmpl ∈ (Category.ofLibrary l).templates) {b o : Block}
    (hb : b ∈ t.scenarioBlocks) (ho : o ∈ Block.spineSlot (b.child? .step))
    (hinstance : tmpl.IsInstance o) :
    ∃ (g : Gap) (before : List Plan.Step) (call : Plan.Call),
      t.complete = .ok (g.fill []) ∧ g.Behind o ∧ p = g.plan.fill [] ∧
      g.plan.before = before ++ [.request call] ∧
      (call.parameters.Pairwise fun a b => a.name < b.name) ∧
      (∃ operation, Calls l tmpl operation) ∧
      ∀ operation, Calls l tmpl operation → ∀ name value, ⟨name, value⟩ ∈ call.parameters ↔
        ∃ declaration, LastDeclares operation name declaration ∧
          Sends (schemaOf declaration) value := by
  obtain ⟨g, hc, hplan, hbehind⟩ := exists_gap_of_plan hp hb ho
  obtain ⟨before, step, hbefore, hstep⟩ := id hbehind
  obtain ⟨id, call, hlibrary, hparameters⟩ := hinstance.exists_library htmpl
  have hcall : step = .library id call := by
    rw [hlibrary] at hstep
    cases step with
    | library id' call' =>
      obtain ⟨hid, hcall, -⟩ := Block.library.inj hstep
      rw [hid, hcall]
    | _ => cases hstep
  refine ⟨g, Plan.stepsOf before, Plan.Call.ofLibraryCall call, hc, hbehind, hplan,
    ?_, Plan.Call.sorted_libraryPairs _,
    Category.mem_templates_iff.mp htmpl, fun operation hcalls name value => ?_⟩
  · rw [Gap.plan, hbefore, Complete.stepsOf_append, hcall]
    rfl
  · rw [Plan.Call.ofLibraryCall, hparameters operation hcalls]
    exact Plan.Call.mem_libraryPairs_queryParameters

/-- An operation with a number that has no default and a text that has one. -/
def listing : Json :=
  .obj [("parameters", .arr [
    .obj [("in", .str "query"), ("name", .str "limit"), ("type", .str "integer")],
    .obj [("default", .str "name"), ("in", .str "query"), ("name", .str "sort"),
      ("type", .str "string")]])]

def petStore : Library :=
  .ofJson (.obj [("paths", .obj [("/pets", .obj [("get", listing)])])])

/-- A scenario with a copy of the template for the operation. -/
def browsingPets : Test :=
  let tmpl := Category.operationTemplate "" "/pets" "get" listing
  ⟨petStore, [⟨⟨0, 0⟩, .scenario "s" "Pets" (some (.executor "x" (.constant 1 "1m")))
    (some (tmpl.instantiate.run ⟨fun _ => "p", 0⟩).1)⟩]⟩

theorem parameters_of_instance_browsingPets : ∃ (g : Gap) (before : List Plan.Step)
    (call : Plan.Call), browsingPets.plan = .ok (g.plan.fill []) ∧
      g.plan.before = before ++ [.request call] ∧
      ⟨"limit", "0"⟩ ∈ call.parameters ∧ ⟨"sort", "name"⟩ ∈ call.parameters := by
  have hcalls : Calls petStore (Category.operationTemplate "" "/pets" "get" listing) listing :=
    ⟨[("/pets", .obj [("get", listing)])], "/pets", .obj [("get", listing)], "get", rfl,
      List.mem_singleton_self _, List.mem_cons_self, rfl, rfl⟩
  obtain ⟨p, hp⟩ : ∃ p, browsingPets.plan = .ok p := ⟨_, rfl⟩
  obtain ⟨g, before, call, -, -, rfl, hbefore, -, -, hparameters⟩ := parameters_of_instance hp
    (Category.mem_templates_iff.mpr ⟨_, hcalls⟩) List.mem_cons_self List.mem_cons_self
    ⟨⟨fun _ => "p", 0⟩, rfl⟩
  have hparameters := hparameters listing hcalls
  refine ⟨g, before, call, hp, hbefore, (hparameters _ _).mpr ?_, (hparameters _ _).mpr ?_⟩
  · exact ⟨_, ⟨[], _, rfl, by decide, by decide⟩, .inr ⟨rfl, rfl⟩⟩
  · exact ⟨_, ⟨[_], [], rfl, by decide, by decide⟩, .inl ⟨_, rfl, rfl⟩⟩

end Test
end LoadTest

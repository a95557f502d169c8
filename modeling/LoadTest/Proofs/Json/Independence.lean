import LoadTest.Config
import LoadTest.Environment.Json
import LoadTest.Plan.Json
import LoadTest.Proofs.Json.Respects
import LoadTest.Test.Json

/-!
What a JSON value is read as does not depend on how its records are written.
-/

namespace LoadTest

open Json (Shape Field Variant Respects respects_list respects_dict respects_schema respects_str
  respects_bool respects_float respects_uint16 respects_uint32 respects_uint64)
open Record (required valuesOf)

/-! ## Records of one kind -/

theorem NameValue.respects : Respects .nameValue NameValue.ofJson? := by
  intro v w h
  obtain ⟨fields, fields', rfl, rfl, hagree⟩ := h.agree rfl
  simp only [Shape.fields, Field.plain, List.forall_mem_cons] at hagree
  obtain ⟨hid, hname, hvalue, -⟩ := hagree
  simp only [ofJson?, Json.object?, Option.bind_eq_bind, Option.bind_some,
    respects_str.required hid, respects_str.required hname, respects_str.required hvalue]

theorem Stage.respects : Respects .stage Stage.ofJson? := by
  intro v w h
  obtain ⟨fields, fields', rfl, rfl, hagree⟩ := h.agree rfl
  simp only [Shape.fields, Field.plain, List.forall_mem_cons] at hagree
  obtain ⟨htarget, hduration, -⟩ := hagree
  simp only [ofJson?, Json.object?, Option.bind_eq_bind, Option.bind_some,
    respects_uint32.required htarget, respects_str.required hduration]

theorem Environment.respects : Respects .environment Environment.ofJson? := by
  intro v w h
  obtain ⟨fields, fields', rfl, rfl, hagree⟩ := h.agree rfl
  simp only [Shape.fields, Field.plain, List.forall_mem_cons] at hagree
  obtain ⟨hname, hdescription, hvariables, -⟩ := hagree
  simp only [ofJson?, Json.object?, Option.bind_eq_bind, Option.bind_some,
    respects_str.withDefault hname, respects_str.optional hdescription,
    (respects_dict respects_str).withDefault hvariables]

theorem Config.respects : Respects .config Config.ofJson? := by
  intro v w h
  obtain ⟨fields, fields', rfl, rfl, hagree⟩ := h.agree rfl
  simp only [Shape.fields, Field.plain, List.forall_mem_cons] at hagree
  obtain ⟨hwidth, hwarn, -⟩ := hagree
  simp only [ofJson?, Json.object?, Option.bind_eq_bind, Option.bind_some,
    respects_uint64.withDefault hwidth, respects_bool.withDefault hwarn]

/-! ## Records told apart by their `type` -/

/-- Two variants of a record with a `type` have the same one. -/
theorem Json.Variant.tagged {s : Shape} {v w : Json} (h : Variant s v w) (hs : s.isRecord = true)
    (htype : ∀ tag, Field.plain "type" ∈ s.fields tag) :
    ∃ fields fields', v = .obj fields ∧ w = .obj fields' ∧
      required str? "type" fields' = required str? "type" fields ∧
        ∀ f ∈ s.fields (required str? "type" fields),
          f.Agree (valuesOf f.name fields) (valuesOf f.name fields') := by
  obtain ⟨fields, fields', rfl, rfl, hagree⟩ := h.agree hs
  exact ⟨fields, fields', rfl, rfl, (respects_str.required (hagree _ (htype _))).symm, hagree⟩

theorem Parameter.respects : Respects .parameter Parameter.ofJson? := by
  intro v w h
  obtain ⟨fields, fields', rfl, rfl, htag, hagree⟩ := h.tagged rfl fun _ => List.mem_cons_self
  simp only [Shape.fields, Field.plain, List.forall_mem_cons] at hagree
  obtain ⟨-, hvalue, -⟩ := hagree
  simp only [ofJson?, Json.object?, Option.bind_eq_bind, Option.bind_some, htag,
    respects_str.required hvalue, respects_float.required hvalue, respects_bool.required hvalue]

theorem Expectation.respects : Respects .expectation Expectation.ofJson? := by
  intro v w h
  obtain ⟨fields, fields', rfl, rfl, htag, hagree⟩ := h.tagged rfl fun _ => List.mem_cons_self
  simp only [Shape.fields, Field.plain, List.forall_mem_cons] at hagree
  obtain ⟨-, hid, hvalue, -⟩ := hagree
  simp only [ofJson?, Json.object?, Option.bind_eq_bind, Option.bind_some, htag,
    respects_str.required hid, respects_str.required hvalue, respects_uint16.required hvalue]

theorem Executor.respects : Respects .executor Executor.ofJson? := by
  intro v w h
  obtain ⟨fields, fields', rfl, rfl, htag, hagree⟩ := h.tagged rfl fun _ => List.mem_cons_self
  simp only [ofJson?, Json.object?, Option.bind_eq_bind, Option.bind_some, htag]
  generalize required Json.str? "type" fields = tag at hagree
  cases tag with
  | none => rfl
  | some t =>
    simp only [Shape.fields, List.forall_mem_cons] at hagree
    obtain ⟨-, hagree⟩ := hagree
    simp only [Option.bind_some]
    split
    · simp only [Shape.executorFields, Field.plain, List.forall_mem_cons] at hagree
      obtain ⟨hvus, hduration, -⟩ := hagree
      simp only [respects_uint32.required hvus, respects_str.required hduration]
    · simp only [Shape.executorFields, List.forall_mem_cons] at hagree
      obtain ⟨hstart, hstages, -⟩ := hagree
      simp only [respects_uint32.optional hstart, (respects_list Stage.respects).required hstages]
    · rfl

theorem Request.ofFields?_congr {fields fields' : List (String × Json)}
    (hagree : ∀ f ∈ Shape.requestFields .nameValue,
      f.Agree (valuesOf f.name fields) (valuesOf f.name fields')) :
    ofFields? fields = ofFields? fields' := by
  simp only [Shape.requestFields, Field.plain, List.forall_mem_cons] at hagree
  obtain ⟨hname, hmethod, hurl, hparameters, hheaders, -⟩ := hagree
  have hpairs := respects_list NameValue.respects
  simp only [ofFields?, respects_str.required hname, respects_str.required hmethod,
    respects_str.required hurl, hpairs.withDefault hparameters, hpairs.withDefault hheaders]

/-! ## Blocks and tests -/

theorem sizeOf_lt_of_mem_valuesOf {name : String} {fields : List (String × Json)} {v : Json}
    (h : v ∈ valuesOf name fields) : sizeOf v < sizeOf (Json.obj fields) := by
  obtain ⟨e, he, rfl⟩ := List.mem_map.mp h
  have hlt := List.sizeOf_lt_of_mem (List.mem_of_mem_filter he)
  obtain ⟨k, v⟩ := e
  simp only [Prod.mk.sizeOf_spec, Json.obj.sizeOf_spec] at hlt ⊢
  omega

namespace Block

theorem readSlot_eq (j : Json) : readSlot j = Json.orNull ofJson? j := by
  cases j <;> simp only [readSlot, Json.orNull, Json.isNull, ofJson?] <;> rfl

theorem valuesOf_readSlots (name : String) (fields : List (String × Json)) :
    valuesOf name (readSlots fields) = (valuesOf name fields).map readSlot := by
  induction fields with
  | nil =>
    rw [readSlots]
    rfl
  | cons e fields ih =>
    obtain ⟨k, j⟩ := e
    rw [readSlots, Record.valuesOf_cons, Record.valuesOf_cons, ih]
    split <;> rfl

/-- A slot is an optional field. -/
theorem slotIn?_readSlots (name : String) (fields : List (String × Json)) :
    slotIn? name (readSlots fields) = Json.optional ofJson? name fields := by
  rw [slotIn?, Json.optional, Record.withDefault, Record.withDefault, valuesOf_readSlots]
  rcases valuesOf name fields with _ | ⟨v, _ | ⟨v', vs⟩⟩
  · rfl
  · exact readSlot_eq v
  · rfl

theorem respects : Respects .block ofJson? := by
  intro v w h
  induction hn : sizeOf v using Nat.strongRecOn generalizing v w with
  | ind n ih =>
    obtain ⟨fields, fields', rfl, rfl, htag, hagree⟩ := h.tagged rfl fun _ => List.mem_cons_self
    have hslot : ∀ {name}, Field.Agree ⟨name, .block, true⟩ (valuesOf name fields)
        (valuesOf name fields') →
          slotIn? name (readSlots fields) = slotIn? name (readSlots fields') := by
      intro name hname
      rw [slotIn?_readSlots, slotIn?_readSlots]
      refine Json.optional_congr (fun v hv w hvariant => ?_) hname
      exact ih _ (hn ▸ sizeOf_lt_of_mem_valuesOf hv) v w hvariant rfl
    rw [ofJson?, ofJson?, ofFields?, ofFields?, htag]
    simp only [Shape.fields, List.forall_mem_cons] at hagree
    obtain ⟨-, hid, hagree⟩ := hagree
    simp only [Option.bind_eq_bind, respects_str.required hid]
    refine Option.bind_congr fun id _ => ?_
    generalize required Json.str? "type" fields = tag at hagree
    cases tag with
    | none => rfl
    | some t =>
      simp only [Option.bind_some]
      split
      · simp only [Shape.blockFields, Field.plain, Field.slot, List.forall_mem_cons] at hagree
        obtain ⟨hname, hexecutor, hstep, -⟩ := hagree
        simp only [respects_str.required hname, hslot hexecutor, hslot hstep]
      · simp only [Shape.blockFields, Field.plain, Field.slot, List.forall_mem_cons] at hagree
        obtain ⟨hname, hstep, hnext, -⟩ := hagree
        simp only [respects_str.required hname, hslot hstep, hslot hnext]
      · simp only [Shape.blockFields, Field.slot, List.forall_mem_append, List.forall_mem_cons]
          at hagree
        obtain ⟨hrequest, hnext, -⟩ := hagree
        simp only [Request.ofFields?_congr hrequest, hslot hnext]
      · simp only [Shape.blockFields, Field.plain, Field.slot, List.forall_mem_cons] at hagree
        obtain ⟨hname, hmethod, hurl, hparameters, hnext, -⟩ := hagree
        simp only [LibraryCall.ofFields?, respects_str.required hname,
          respects_str.required hmethod, respects_str.required hurl,
          (respects_dict Parameter.respects).withDefault hparameters, hslot hnext]
      · simp only [Shape.blockFields, Field.slot, List.forall_mem_cons] at hagree
        obtain ⟨hchecks, htarget, hnext, -⟩ := hagree
        simp only [(respects_list Expectation.respects).withDefault hchecks, hslot htarget,
          hslot hnext]
      · simp only [Shape.blockFields, List.forall_mem_cons] at hagree
        simp only [Executor.respects.required hagree.1]
      · simp only [Shape.blockFields, Field.plain, Field.slot, List.forall_mem_cons] at hagree
        obtain ⟨hseconds, hnext, -⟩ := hagree
        simp only [respects_float.required hseconds, hslot hnext]
      · rfl

end Block

theorem Root.respects : Respects .root Root.ofJson? := by
  intro v w h
  obtain ⟨fields, fields', rfl, rfl, hagree⟩ := h.agree rfl
  simp only [Shape.fields, Field.plain, List.forall_mem_cons] at hagree
  obtain ⟨htop, hleft, hblock, -⟩ := hagree
  simp only [ofJson?, Json.object?, Option.bind_eq_bind, Option.bind_some,
    respects_float.required htop, respects_float.required hleft, Block.respects.required hblock]

theorem Test.respects : Respects .test Test.ofJson? := by
  intro v w h
  obtain ⟨fields, fields', rfl, rfl, hagree⟩ := h.agree rfl
  simp only [Shape.fields, List.forall_mem_cons] at hagree
  obtain ⟨hlibrary, hroots, -⟩ := hagree
  simp only [ofJson?, Json.object?, Option.bind_eq_bind, Option.bind_some,
    respects_schema.required hlibrary, (respects_list Root.respects).required hroots]

theorem Document.respects : Respects .document Document.ofJson? := by
  intro v w h
  obtain ⟨fields, fields', rfl, rfl, hagree⟩ := h.agree rfl
  simp only [Shape.fields, Field.plain, List.forall_mem_cons] at hagree
  obtain ⟨hversion, hlibrary, hroots, -⟩ := hagree
  simp only [ofJson?, Json.object?, Option.bind_eq_bind, Option.bind_some,
    respects_uint32.required hversion, respects_schema.required hlibrary,
    (respects_list Root.respects).required hroots]

/-! ## Plans -/

namespace Plan

theorem Pair.respects : Respects .pair Pair.ofJson? := by
  intro v w h
  obtain ⟨fields, fields', rfl, rfl, hagree⟩ := h.agree rfl
  simp only [Shape.fields, Field.plain, List.forall_mem_cons] at hagree
  obtain ⟨hname, hvalue, -⟩ := hagree
  simp only [ofJson?, Json.object?, Option.bind_eq_bind, Option.bind_some,
    respects_str.required hname, respects_str.required hvalue]

theorem Call.ofFields?_congr {fields fields' : List (String × Json)}
    (hagree : ∀ f ∈ Shape.requestFields .pair,
      f.Agree (valuesOf f.name fields) (valuesOf f.name fields')) :
    ofFields? fields = ofFields? fields' := by
  simp only [Shape.requestFields, Field.plain, List.forall_mem_cons] at hagree
  obtain ⟨hname, hmethod, hurl, hparameters, hheaders, -⟩ := hagree
  have hpairs := respects_list Pair.respects
  simp only [ofFields?, respects_str.required hname, respects_str.required hmethod,
    respects_str.required hurl, hpairs.withDefault hparameters, hpairs.withDefault hheaders]

theorem Call.respects : Respects .call Call.ofJson? := by
  intro v w h
  obtain ⟨fields, fields', rfl, rfl, hagree⟩ := h.agree rfl
  exact Call.ofFields?_congr hagree

theorem Assertion.respects : Respects .assertion Assertion.ofJson? := by
  intro v w h
  obtain ⟨fields, fields', rfl, rfl, htag, hagree⟩ := h.tagged rfl fun _ => List.mem_cons_self
  simp only [ofJson?, Json.object?, Option.bind_eq_bind, Option.bind_some, htag]
  generalize required Json.str? "type" fields = tag at hagree
  cases tag with
  | none => rfl
  | some t =>
    simp only [Shape.fields, List.forall_mem_cons] at hagree
    obtain ⟨-, hagree⟩ := hagree
    simp only [Option.bind_some]
    split
    · simp only [Shape.assertionFields, Field.plain, List.forall_mem_cons] at hagree
      simp only [respects_uint16.required hagree.1]
    · simp only [Shape.assertionFields, Field.plain, List.forall_mem_cons] at hagree
      simp only [respects_str.required hagree.1]
    · rfl

namespace Step

theorem ofJsons?_eq_mapM (items : List Json) : ofJsons? items = items.mapM ofJson? := by
  induction items with
  | nil =>
    rw [ofJsons?]
    rfl
  | cons j r ih => rw [ofJsons?, ih, List.mapM_cons]

theorem listOfJson?_eq (j : Json) : listOfJson? j = Json.listOf? ofJson? j := by
  cases j with
  | arr items =>
    rw [listOfJson?, ofJsons?_eq_mapM]
    rfl
  | _ =>
    unfold listOfJson?
    rfl

theorem valuesOf_readFields (name : String) (fields : List (String × Json)) :
    valuesOf name (readFields fields) = (valuesOf name fields).map listOfJson? := by
  induction fields with
  | nil =>
    rw [readFields]
    rfl
  | cons e fields ih =>
    obtain ⟨k, j⟩ := e
    rw [readFields, Record.valuesOf_cons, Record.valuesOf_cons, ih]
    split <;> rfl

theorem required_readFields (name : String) (fields : List (String × Json)) :
    required (fun r => r) name (readFields fields) = required listOfJson? name fields := by
  rw [required, required, valuesOf_readFields]
  rcases valuesOf name fields with _ | ⟨v, _ | ⟨v', vs⟩⟩ <;> rfl

theorem respects : Respects .step ofJson? := by
  intro v w h
  induction hn : sizeOf v using Nat.strongRecOn generalizing v w with
  | ind n ih =>
    obtain ⟨fields, fields', rfl, rfl, htag, hagree⟩ := h.tagged rfl fun _ => List.mem_cons_self
    rw [ofJson?, ofJson?, ofFields?, ofFields?, htag]
    generalize required Json.str? "type" fields = tag at hagree
    cases tag with
    | none => rfl
    | some t =>
      simp only [Shape.fields, List.forall_mem_cons] at hagree
      obtain ⟨-, hagree⟩ := hagree
      simp only [Option.bind_eq_bind, Option.bind_some]
      split
      · rw [Call.ofFields?_congr hagree]
      · simp only [Shape.stepFields, Field.plain, List.forall_mem_cons] at hagree
        obtain ⟨hname, hsteps, -⟩ := hagree
        have hinner : required listOfJson? "steps" fields = required listOfJson? "steps" fields' := by
          refine Json.required_congr (fun u hu u' hvariant => ?_) hsteps
          rw [listOfJson?_eq, listOfJson?_eq]
          refine Json.listOf?_congr hvariant fun items hitems x hx y hxy => ?_
          have hu := sizeOf_lt_of_mem_valuesOf hu
          have hx := List.sizeOf_lt_of_mem hx
          rw [hitems, Json.arr.sizeOf_spec] at hu
          exact ih _ (by omega) x y hxy rfl
        rw [respects_str.required hname, required_readFields, required_readFields, hinner]
      · simp only [Shape.stepFields, List.forall_mem_cons] at hagree
        obtain ⟨htarget, hchecks, -⟩ := hagree
        rw [Call.respects.required htarget, (respects_list Assertion.respects).required hchecks]
      · simp only [Shape.stepFields, Field.plain, List.forall_mem_cons] at hagree
        rw [respects_float.required hagree.1]
      · rfl

end Step

theorem Scenario.respects : Respects .scenario Scenario.ofJson? := by
  intro v w h
  obtain ⟨fields, fields', rfl, rfl, hagree⟩ := h.agree rfl
  simp only [Shape.fields, Field.plain, List.forall_mem_cons] at hagree
  obtain ⟨hname, hexecutor, hsteps, -⟩ := hagree
  have hlist : Respects (.list .step) Step.listOfJson? := by
    rw [funext Step.listOfJson?_eq]
    exact respects_list Step.respects
  simp only [ofJson?, Json.object?, Option.bind_eq_bind, Option.bind_some,
    respects_str.required hname, Executor.respects.required hexecutor, hlist.required hsteps]

theorem respects : Respects .plan ofJson? := by
  intro v w h
  obtain ⟨fields, fields', rfl, rfl, hagree⟩ := h.agree rfl
  simp only [Shape.fields, List.forall_mem_cons] at hagree
  simp only [ofJson?, Json.object?, Option.bind_eq_bind, Option.bind_some,
    (respects_list Scenario.respects).required hagree.1]

end Plan
end LoadTest

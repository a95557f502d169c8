import LoadTest.Proofs.Block.Tree
import LoadTest.Proofs.Decimal.Whole
import LoadTest.Proofs.Json.Independence

/-!
Reading what was written.

Only an infinity or a NaN is written as something else, and neither is ever read.
-/

namespace LoadTest

open Record (required withDefault valuesOf)

namespace Json

/-! ## Numbers that have a JSON form -/

mutual

/-- Every whole number has 64 bits and every float is finite. -/
def Proper : Json → Prop
  | .null | .bool _ | .str _ => True
  | .int n => isWord n = true
  | .float x => Decimal.isFinite x = true
  | .arr items => ProperItems items
  | .obj fields => ProperFields fields

def ProperItems : List Json → Prop
  | [] => True
  | j :: r => j.Proper ∧ ProperItems r

def ProperFields : List (String × Json) → Prop
  | [] => True
  | (_, j) :: r => j.Proper ∧ ProperFields r

end

theorem properItems_iff {items : List Json} : ProperItems items ↔ ∀ j ∈ items, j.Proper := by
  induction items with
  | nil => simp [ProperItems]
  | cons j items ih => simp [ProperItems, ih]

theorem properFields_iff {fields : List (String × Json)} :
    ProperFields fields ↔ ∀ e ∈ fields, e.2.Proper := by
  induction fields with
  | nil => simp [ProperFields]
  | cons e fields ih => simp [ProperFields, ih]

theorem Proper.of_mem_items {items : List Json} (h : (arr items).Proper) :
    ∀ j ∈ items, j.Proper :=
  properItems_iff.mp h

theorem Proper.of_mem_fields {fields : List (String × Json)} (h : (obj fields).Proper) :
    ∀ e ∈ fields, e.2.Proper :=
  properFields_iff.mp h

theorem Proper.of_mem_valuesOf {fields : List (String × Json)} (h : (obj fields).Proper)
    {name : String} : ∀ v ∈ valuesOf name fields, v.Proper := by
  intro v hv
  obtain ⟨e, he, rfl⟩ := List.mem_map.mp hv
  exact h.of_mem_fields e (List.mem_of_mem_filter he)

variable {β : Type} {read : Json → Option β} {P : β → Prop}

/-- Whatever is read satisfies `P`. -/
def Yields (P : β → Prop) (read : Json → Option β) : Prop :=
  ∀ v x, v.Proper → read v = some x → P x

theorem yields_float : Yields (Decimal.isFinite · = true) float? := by
  intro v x hv h
  cases v with
  | int n =>
    cases h
    rw [Proper] at hv
    exact Decimal.isFinite_ofInt hv
  | float y =>
    cases h
    rwa [Proper] at hv
  | _ => cases h

theorem forall_of_mapM {α γ : Type} {f : α → Option γ} {Q : γ → Prop} {l : List α} {r : List γ}
    (hr : l.mapM f = some r) (h : ∀ a ∈ l, ∀ c, f a = some c → Q c) : ∀ c ∈ r, Q c := by
  induction l generalizing r with
  | nil =>
    cases hr
    exact List.forall_mem_nil _
  | cons a l ih =>
    simp only [List.mapM_cons, Option.bind_eq_bind, Option.bind_eq_some_iff, Option.pure_def,
      Option.some.injEq] at hr
    obtain ⟨c, hc, rest, hrest, rfl⟩ := hr
    rw [List.forall_mem_cons] at h
    exact List.forall_mem_cons.mpr ⟨h.1 c hc, ih hrest h.2⟩

theorem Yields.list (h : Yields P read) : Yields (fun l => ∀ x ∈ l, P x) (listOf? read) := by
  intro v l hv hl
  cases v with
  | arr items => exact forall_of_mapM hl fun j hj x hx => h j x (hv.of_mem_items j hj) hx
  | _ => cases hl

theorem Yields.dict (h : Yields P read) :
    Yields (fun d => ∀ e ∈ d.entries, P e.2) (dictOf? read) := by
  intro v d hv hd
  cases v with
  | obj fields =>
    obtain ⟨r, hr, hd⟩ := Option.bind_eq_some_iff.mp hd
    cases hd
    have hentries : ∀ e ∈ r, P e.2 := by
      refine forall_of_mapM hr fun e he c hc => ?_
      obtain ⟨x, hx, rfl⟩ := Option.map_eq_some_iff.mp hc
      exact h e.2 x (hv.of_mem_fields e he) hx
    exact fun e he => hentries e (Dict.mem_of_mem_ofList he)
  | _ => cases hd

theorem exists_of_required {α : Type} {read : α → Option β} {name : String}
    {fields : List (String × α)} {x : β} (h : required read name fields = some x) :
    ∃ v ∈ valuesOf name fields, read v = some x := by
  rw [required] at h
  split at h
  · rename_i v hv
    exact ⟨v, by rw [hv]; exact List.mem_cons_self, h⟩
  · cases h

theorem Yields.required (h : Yields P read) {name : String} {fields : List (String × Json)}
    (hfields : (obj fields).Proper) {x : β} (hx : required read name fields = some x) : P x := by
  obtain ⟨v, hv, hread⟩ := exists_of_required hx
  exact h v x (hfields.of_mem_valuesOf v hv) hread

theorem Yields.withDefault (h : Yields P read) {default : β} (hdefault : P default) {name : String}
    {fields : List (String × Json)} (hfields : (obj fields).Proper) {x : β}
    (hx : withDefault default read name fields = some x) : P x := by
  rw [Record.withDefault] at hx
  split at hx
  · cases hx
    exact hdefault
  · rename_i v hv
    exact h v x (hfields.of_mem_valuesOf v (by rw [hv]; exact List.mem_cons_self)) hx
  · cases hx

/-! ## Writing and reading -/

variable {write : β → Json}

theorem float?_number {x : Float} (h : Decimal.isFinite x = true) : (number x).float? = some x := by
  rw [number, if_pos h]
  rfl

theorem mapM_map {α γ : Type} {f : γ → Option α} {g : α → γ} {l : List α}
    (h : ∀ x ∈ l, f (g x) = some x) : (l.map g).mapM f = some l := by
  induction l with
  | nil => rfl
  | cons x l ih =>
    rw [List.forall_mem_cons] at h
    rw [List.map_cons, List.mapM_cons, h.1, ih h.2]
    rfl

theorem listOf?_map {l : List β} (h : ∀ x ∈ l, read (write x) = some x) :
    listOf? read (.arr (l.map write)) = some l :=
  mapM_map h

theorem dictOf?_ofDict {d : Dict β} (h : ∀ e ∈ d.entries, read (write e.2) = some e.2) :
    dictOf? read (ofDict write d) = some d := by
  let g := fun e : String × Json => (read e.2).map (e.1, ·)
  have hentries : (d.entries.map fun e => (e.1, write e.2)).mapM g = some d.entries := by
    refine mapM_map fun e he => ?_
    show (read (write e.2)).map (e.1, ·) = some e
    rw [h e he]
    rfl
  show (do return Dict.ofList (← (d.entries.map fun e => (e.1, write e.2)).mapM g)) = some d
  rw [hentries]
  exact congrArg some d.ofList_entries

end Json

open Json (Yields listOf?_map dictOf?_ofDict float?_number yields_float)

/-! ## Small records -/

theorem NameValue.read_write (p : NameValue) : ofJson? p.toJson = some p := by
  have hread : ∀ fields, valuesOf "id" fields = [.str p.id] →
      valuesOf "name" fields = [.str p.name] → valuesOf "value" fields = [.str p.value] →
        ofJson? (.obj fields) = some p := by
    intro fields hid hname hvalue
    simp [ofJson?, Json.object?, required, hid, hname, hvalue, Json.str?]
  exact hread _ rfl rfl rfl

theorem Stage.read_write (s : Stage) : ofJson? s.toJson = some s := by
  have hread : ∀ fields, valuesOf "target" fields = [.int s.target.toNat] →
      valuesOf "duration" fields = [.str s.duration] → ofJson? (.obj fields) = some s := by
    intro fields htarget hduration
    simp [ofJson?, Json.object?, required, htarget, hduration, Json.str?]
  exact hread _ rfl rfl

theorem Expectation.read_write (e : Expectation) : ofJson? e.toJson = some e := by
  cases e with
  | status id code =>
    have hread : ∀ fields, valuesOf "type" fields = [.str "status"] →
        valuesOf "id" fields = [.str id] → valuesOf "value" fields = [.int code.toNat] →
          ofJson? (.obj fields) = some (status id code) := by
      intro fields htype hid hvalue
      simp [ofJson?, Json.object?, required, htype, hid, hvalue, Json.str?]
    exact hread _ rfl rfl rfl
  | contains id text =>
    have hread : ∀ fields, valuesOf "type" fields = [.str "contains"] →
        valuesOf "id" fields = [.str id] → valuesOf "value" fields = [.str text] →
          ofJson? (.obj fields) = some (contains id text) := by
      intro fields htype hid hvalue
      simp [ofJson?, Json.object?, required, htype, hid, hvalue, Json.str?]
    exact hread _ rfl rfl rfl

theorem Executor.read_write (e : Executor) : ofJson? e.toJson = some e := by
  cases e with
  | constant vus duration =>
    have hread : ∀ fields, valuesOf "type" fields = [.str "constant-vus"] →
        valuesOf "vus" fields = [.int vus.toNat] → valuesOf "duration" fields = [.str duration] →
          ofJson? (.obj fields) = some (constant vus duration) := by
      intro fields htype hvus hduration
      simp [ofJson?, Json.object?, required, htype, hvus, hduration, Json.str?]
    exact hread _ rfl rfl rfl
  | ramping startVus stages =>
    have hstages : Json.listOf? Stage.ofJson? (.arr (stages.map Stage.toJson)) = some stages :=
      listOf?_map fun s _ => s.read_write
    have hread : ∀ fields, valuesOf "type" fields = [.str "ramping-vus"] →
        valuesOf "startVUs" fields = (startField startVus).map Prod.snd →
          valuesOf "stages" fields = [.arr (stages.map Stage.toJson)] →
            ofJson? (.obj fields) = some (ramping startVus stages) := by
      intro fields htype hstart hlist
      cases startVus <;>
        simp [ofJson?, Json.object?, required, htype, hstart, hlist, hstages, Json.str?,
          Json.optional, withDefault, startField, Json.orNull, Json.isNull]
    cases startVus with
    | none => exact hread _ rfl rfl rfl
    | some n => exact hread _ rfl rfl rfl

theorem Environment.read_write (e : Environment) : ofJson? e.toJson = some e := by
  obtain ⟨name, description, values⟩ := e
  have hvalues : Json.dictOf? Json.str? (Json.ofDict .str values) = some values :=
    dictOf?_ofDict fun _ _ => rfl
  have hread : ∀ fields, valuesOf "name" fields = [.str name] →
      valuesOf "description" fields = (descriptionField description).map Prod.snd →
        valuesOf "variables" fields = [Json.ofDict .str values] →
          ofJson? (.obj fields) = some ⟨name, description, values⟩ := by
    intro fields hname hdescription hvariables
    cases description <;>
      simp [ofJson?, Json.object?, withDefault, hname, hdescription, hvariables, hvalues,
        Json.optional, descriptionField, Json.orNull, Json.isNull, Json.str?]
  cases description with
  | none => exact hread _ rfl rfl rfl
  | some d => exact hread _ rfl rfl rfl

theorem Config.read_write (c : Config) : ofJson? c.toJson = some c := by
  have hread : ∀ fields, valuesOf "indent_width" fields = [.int c.indentWidth.toNat] →
      valuesOf "warn_unresolved" fields = [.bool c.warnUnresolved] →
        ofJson? (.obj fields) = some c := by
    intro fields hwidth hwarn
    simp [ofJson?, Json.object?, withDefault, hwidth, hwarn, Json.bool?]
  exact hread _ rfl rfl

namespace Parameter

/-- The number of a parameter is finite. -/
def Finite : Parameter → Prop
  | number x => Decimal.isFinite x = true
  | _ => True

theorem read_write {p : Parameter} (h : p.Finite) : ofJson? p.toJson = some p := by
  cases p with
  | string s =>
    have hread : ∀ fields, valuesOf "type" fields = [.str "string"] →
        valuesOf "value" fields = [.str s] → ofJson? (.obj fields) = some (string s) := by
      intro fields htype hvalue
      simp [ofJson?, Json.object?, required, htype, hvalue, Json.str?]
    exact hread _ rfl rfl
  | number x =>
    have hread : ∀ fields, valuesOf "type" fields = [.str "number"] →
        valuesOf "value" fields = [Json.number x] → ofJson? (.obj fields) = some (number x) := by
      intro fields htype hvalue
      simp [ofJson?, Json.object?, required, htype, hvalue, Json.str?, float?_number h]
    exact hread _ rfl rfl
  | boolean b =>
    have hread : ∀ fields, valuesOf "type" fields = [.str "boolean"] →
        valuesOf "value" fields = [.bool b] → ofJson? (.obj fields) = some (boolean b) := by
      intro fields htype hvalue
      simp [ofJson?, Json.object?, required, htype, hvalue, Json.str?, Json.bool?]
    exact hread _ rfl rfl

theorem yields : Yields Finite ofJson? := by
  intro v p hv h
  cases v with
  | obj fields =>
    simp only [ofJson?, Json.object?, Option.bind_eq_bind, Option.bind_some,
      Option.bind_eq_some_iff] at h
    obtain ⟨t, -, h⟩ := h
    split at h
    · obtain ⟨s, -, h⟩ := Option.bind_eq_some_iff.mp h
      cases h
      trivial
    · obtain ⟨x, hx, h⟩ := Option.bind_eq_some_iff.mp h
      cases h
      exact yields_float.required hv hx
    · obtain ⟨b, -, h⟩ := Option.bind_eq_some_iff.mp h
      cases h
      trivial
    · cases h
  | _ => cases h

end Parameter

namespace LibraryCall

def Finite (c : LibraryCall) : Prop :=
  ∀ e ∈ c.parameters.entries, e.2.Finite

theorem finite_of_ofFields? {fields : List (String × Json)} (hv : (Json.obj fields).Proper)
    {c : LibraryCall} (h : ofFields? fields = some c) : c.Finite := by
  simp only [ofFields?, Option.bind_eq_bind, Option.bind_eq_some_iff] at h
  obtain ⟨name, -, method, -, url, -, parameters, hparameters, h⟩ := h
  cases h
  exact Parameter.yields.dict.withDefault (List.forall_mem_nil _) hv hparameters

end LibraryCall

theorem Request.ofFields?_of_values {r : Request} {fields : List (String × Json)}
    (hname : valuesOf "name" fields = [.str r.name])
    (hmethod : valuesOf "method" fields = [.str r.method])
    (hurl : valuesOf "url" fields = [.str r.url])
    (hparameters : valuesOf "parameters" fields = [.arr (r.parameters.map NameValue.toJson)])
    (hheaders : valuesOf "headers" fields = [.arr (r.headers.map NameValue.toJson)]) :
    ofFields? fields = some r := by
  have hpairs : ∀ l : List NameValue,
      Json.listOf? NameValue.ofJson? (.arr (l.map NameValue.toJson)) = some l :=
    fun l => listOf?_map fun p _ => p.read_write
  simp [ofFields?, required, withDefault, hname, hmethod, hurl, hparameters, hheaders, Json.str?,
    hpairs]

theorem LibraryCall.ofFields?_of_values {c : LibraryCall} (h : c.Finite)
    {fields : List (String × Json)} (hname : valuesOf "name" fields = [.str c.name])
    (hmethod : valuesOf "method" fields = [.str c.method])
    (hurl : valuesOf "url" fields = [.str c.url])
    (hparameters : valuesOf "parameters" fields = [Json.ofDict Parameter.toJson c.parameters]) :
    ofFields? fields = some c := by
  have hdict : Json.dictOf? Parameter.ofJson? (Json.ofDict Parameter.toJson c.parameters) =
      some c.parameters := dictOf?_ofDict fun e he => Parameter.read_write (h e he)
  simp [ofFields?, required, withDefault, hname, hmethod, hurl, hparameters, Json.str?, hdict]

/-! ## Blocks -/

namespace Block

/-- The numbers of the block itself are finite. -/
def OwnFinite : Block → Prop
  | library _ call _ => call.Finite
  | sleep _ x _ => Decimal.isFinite x = true
  | _ => True

def Finite (b : Block) : Prop :=
  ∀ x ∈ b.walk, x.OwnFinite

theorem Finite.of_child? {b c : Block} (h : b.Finite) {s : Slot} (hc : b.child? s = some c) :
    c.Finite :=
  fun _ hx => h _ (mem_walk_of_child? hc hx)

theorem finite_of_child? {b : Block} (hown : b.OwnFinite)
    (h : ∀ s c, b.child? s = some c → c.Finite) : b.Finite := by
  intro x hx
  rcases mem_walk.mp hx with rfl | ⟨s, c, hc, hx⟩
  · exact hown
  · exact h s c hc x hx

mutual

theorem read_write : ∀ b : Block, b.Finite → ofJson? b.toJson = some b
  | scenario id name e s, h => by
    have he := orNull_slotToJson e fun c hc => h.of_child? (s := .executor) hc
    have hs := orNull_slotToJson s fun c hc => h.of_child? (s := .step) hc
    have hread : ∀ fields, valuesOf "id" fields = [.str id] →
        valuesOf "type" fields = [.str "scenario"] → valuesOf "name" fields = [.str name] →
          valuesOf "executor" fields = [slotToJson e] → valuesOf "step" fields = [slotToJson s] →
            ofJson? (.obj fields) = some (scenario id name e s) := by
      intro fields hid htype hname hexecutor hstep
      rw [ofJson?]
      simp [ofFields?, slotIn?_readSlots, Json.optional, required, withDefault, hid, htype, hname,
        hexecutor, hstep, Json.str?, he, hs]
    rw [toJson]
    exact hread _ rfl rfl rfl rfl rfl
  | group id name s n, h => by
    have hs := orNull_slotToJson s fun c hc => h.of_child? (s := .step) hc
    have hn := orNull_slotToJson n fun c hc => h.of_child? (s := .next) hc
    have hread : ∀ fields, valuesOf "id" fields = [.str id] →
        valuesOf "type" fields = [.str "group"] → valuesOf "name" fields = [.str name] →
          valuesOf "step" fields = [slotToJson s] → valuesOf "next" fields = [slotToJson n] →
            ofJson? (.obj fields) = some (group id name s n) := by
      intro fields hid htype hname hstep hnext
      rw [ofJson?]
      simp [ofFields?, slotIn?_readSlots, Json.optional, required, withDefault, hid, htype, hname,
        hstep, hnext, Json.str?, hs, hn]
    rw [toJson]
    exact hread _ rfl rfl rfl rfl rfl
  | request id r n, h => by
    have hn := orNull_slotToJson n fun c hc => h.of_child? (s := .next) hc
    have hread : ∀ fields, valuesOf "id" fields = [.str id] →
        valuesOf "type" fields = [.str "http-request"] → Request.ofFields? fields = some r →
          valuesOf "next" fields = [slotToJson n] →
            ofJson? (.obj fields) = some (request id r n) := by
      intro fields hid htype hrequest hnext
      rw [ofJson?]
      simp [ofFields?, slotIn?_readSlots, Json.optional, required, withDefault, hid, htype,
        hrequest, hnext, Json.str?, hn]
    rw [toJson]
    exact hread _ rfl rfl (Request.ofFields?_of_values rfl rfl rfl rfl rfl) rfl
  | library id call n, h => by
    have hn := orNull_slotToJson n fun c hc => h.of_child? (s := .next) hc
    have hcall : call.Finite := h (library id call n) (mem_walk_self _)
    have hread : ∀ fields, valuesOf "id" fields = [.str id] →
        valuesOf "type" fields = [.str "library"] → LibraryCall.ofFields? fields = some call →
          valuesOf "next" fields = [slotToJson n] →
            ofJson? (.obj fields) = some (library id call n) := by
      intro fields hid htype hlibrary hnext
      rw [ofJson?]
      simp [ofFields?, slotIn?_readSlots, Json.optional, required, withDefault, hid, htype,
        hlibrary, hnext, Json.str?, hn]
    rw [toJson]
    exact hread _ rfl rfl (LibraryCall.ofFields?_of_values hcall rfl rfl rfl rfl) rfl
  | check id es t n, h => by
    have ht := orNull_slotToJson t fun c hc => h.of_child? (s := .target) hc
    have hn := orNull_slotToJson n fun c hc => h.of_child? (s := .next) hc
    have hes : Json.listOf? Expectation.ofJson? (.arr (es.map Expectation.toJson)) = some es :=
      listOf?_map fun e _ => e.read_write
    have hread : ∀ fields, valuesOf "id" fields = [.str id] →
        valuesOf "type" fields = [.str "check"] →
          valuesOf "checks" fields = [.arr (es.map Expectation.toJson)] →
            valuesOf "target" fields = [slotToJson t] → valuesOf "next" fields = [slotToJson n] →
              ofJson? (.obj fields) = some (check id es t n) := by
      intro fields hid htype hchecks htarget hnext
      rw [ofJson?]
      simp [ofFields?, slotIn?_readSlots, Json.optional, required, withDefault, hid, htype,
        hchecks, htarget, hnext, Json.str?, hes, ht, hn]
    rw [toJson]
    exact hread _ rfl rfl rfl rfl rfl
  | executor id shape, _ => by
    have hread : ∀ fields, valuesOf "id" fields = [.str id] →
        valuesOf "type" fields = [.str "executor"] →
          valuesOf "executor" fields = [shape.toJson] →
            ofJson? (.obj fields) = some (executor id shape) := by
      intro fields hid htype hexecutor
      rw [ofJson?]
      simp [ofFields?, required, hid, htype, hexecutor, Json.str?, shape.read_write]
    rw [toJson]
    exact hread _ rfl rfl rfl
  | sleep id x n, h => by
    have hn := orNull_slotToJson n fun c hc => h.of_child? (s := .next) hc
    have hx : Decimal.isFinite x = true := h (sleep id x n) (mem_walk_self _)
    have hread : ∀ fields, valuesOf "id" fields = [.str id] →
        valuesOf "type" fields = [.str "sleep"] → valuesOf "seconds" fields = [Json.number x] →
          valuesOf "next" fields = [slotToJson n] →
            ofJson? (.obj fields) = some (sleep id x n) := by
      intro fields hid htype hseconds hnext
      rw [ofJson?]
      simp [ofFields?, slotIn?_readSlots, Json.optional, required, withDefault, hid, htype,
        hseconds, hnext, Json.str?, float?_number hx, hn]
    rw [toJson]
    exact hread _ rfl rfl rfl rfl

theorem orNull_slotToJson : ∀ x : Option Block, (∀ c, x = some c → c.Finite) →
    Json.orNull ofJson? (slotToJson x) = some x
  | none, _ => by
    rw [slotToJson]
    rfl
  | some b, h => by
    have hb := read_write b (h b rfl)
    have hobj : b.toJson.isNull = false := by
      cases b <;> rw [toJson] <;> rfl
    rw [slotToJson, Json.orNull, hobj, hb]
    rfl

end

theorem yields : Yields Finite ofJson? := by
  intro v b hv h
  induction hn : sizeOf v using Nat.strongRecOn generalizing v b with
  | ind n ih =>
    cases v with
    | obj fields =>
      -- What a slot holds was read of a smaller value.
      have hslot : ∀ {name : String} {x : Option Block}, slotIn? name (readSlots fields) = some x →
          ∀ c, x = some c → c.Finite := by
        intro name x hx c hc
        subst hc
        rw [slotIn?_readSlots, Json.optional, withDefault] at hx
        split at hx
        · cases hx
        · rename_i u hu
          have hmem : u ∈ valuesOf name fields := by rw [hu]; exact List.mem_cons_self
          rw [Json.orNull] at hx
          split_ifs at hx
          · cases hx
          · obtain ⟨c', hc', hsome⟩ := Option.map_eq_some_iff.mp hx
            cases hsome
            exact ih _ (hn ▸ sizeOf_lt_of_mem_valuesOf hmem) u c (hv.of_mem_valuesOf u hmem) hc' rfl
        · cases hx
      rw [ofJson?] at h
      simp only [ofFields?, Option.bind_eq_bind, Option.bind_eq_some_iff] at h
      obtain ⟨id, -, t, -, h⟩ := h
      split at h <;> try simp only [Option.bind_eq_some_iff, Option.pure_def, Option.some.injEq] at h
      · obtain ⟨name, -, e, he, s, hs, rfl⟩ := h
        refine finite_of_child? trivial fun slot c hc => ?_
        cases slot with
        | executor => exact hslot he c hc
        | step => exact hslot hs c hc
        | next | target => cases hc
      · obtain ⟨name, -, s, hs, n, hn, rfl⟩ := h
        refine finite_of_child? trivial fun slot c hc => ?_
        cases slot with
        | step => exact hslot hs c hc
        | next => exact hslot hn c hc
        | executor | target => cases hc
      · obtain ⟨r, -, n, hn, rfl⟩ := h
        refine finite_of_child? trivial fun slot c hc => ?_
        cases slot with
        | next => exact hslot hn c hc
        | executor | step | target => cases hc
      · obtain ⟨call, hcall, n, hn, rfl⟩ := h
        refine finite_of_child? (LibraryCall.finite_of_ofFields? hv hcall) fun slot c hc => ?_
        cases slot with
        | next => exact hslot hn c hc
        | executor | step | target => cases hc
      · obtain ⟨es, -, t, ht, n, hn, rfl⟩ := h
        refine finite_of_child? trivial fun slot c hc => ?_
        cases slot with
        | target => exact hslot ht c hc
        | next => exact hslot hn c hc
        | executor | step => cases hc
      · obtain ⟨shape, -, rfl⟩ := h
        refine finite_of_child? trivial fun slot c hc => ?_
        cases slot <;> cases hc
      · obtain ⟨x, hx, n, hn, rfl⟩ := h
        refine finite_of_child? (yields_float.required hv hx) fun slot c hc => ?_
        cases slot with
        | next => exact hslot hn c hc
        | executor | step | target => cases hc
      · cases h
    | _ =>
      rw [ofJson?] at h
      · cases h
      · intro fields hfields
        cases hfields

end Block

/-! ## Tests -/

namespace Root

structure Finite (r : Root) : Prop where
  top : Decimal.isFinite r.position.top = true
  left : Decimal.isFinite r.position.left = true
  block : r.block.Finite

theorem read_write {r : Root} (h : r.Finite) : ofJson? r.toJson = some r := by
  have hread : ∀ fields, valuesOf "top" fields = [Json.number r.position.top] →
      valuesOf "left" fields = [Json.number r.position.left] →
        valuesOf "block" fields = [r.block.toJson] → ofJson? (.obj fields) = some r := by
    intro fields htop hleft hblock
    simp [ofJson?, Json.object?, required, htop, hleft, hblock, float?_number h.top,
      float?_number h.left, r.block.read_write h.block]
  exact hread _ rfl rfl rfl

theorem yields : Yields Finite ofJson? := by
  intro v r hv h
  cases v with
  | obj fields =>
    simp only [ofJson?, Json.object?, Option.bind_eq_bind, Option.bind_some,
      Option.bind_eq_some_iff, Option.pure_def, Option.some.injEq] at h
    obtain ⟨top, htop, left, hleft, block, hblock, rfl⟩ := h
    exact ⟨yields_float.required hv htop, yields_float.required hv hleft,
      Block.yields.required hv hblock⟩
  | _ => cases h

end Root

namespace Test

def Finite (t : Test) : Prop :=
  ∀ r ∈ t.roots, r.Finite

theorem read_write {t : Test} (h : t.Finite) : ofJson? t.toJson = some t := by
  have hroots : Json.listOf? Root.ofJson? (.arr (t.roots.map Root.toJson)) = some t.roots :=
    listOf?_map fun r hr => Root.read_write (h r hr)
  have hread : ∀ fields, valuesOf "library" fields = [t.library.schema] →
      valuesOf "roots" fields = [.arr (t.roots.map Root.toJson)] →
        ofJson? (.obj fields) = some t := by
    intro fields hlibrary hlist
    simp [ofJson?, Json.object?, required, hlibrary, hlist, hroots]
  exact hread _ rfl rfl

theorem yields : Yields Finite ofJson? := by
  intro v t hv h
  cases v with
  | obj fields =>
    simp only [ofJson?, Json.object?, Option.bind_eq_bind, Option.bind_some,
      Option.bind_eq_some_iff, Option.pure_def, Option.some.injEq] at h
    obtain ⟨library, -, roots, hroots, rfl⟩ := h
    exact Root.yields.list.required hv hroots
  | _ => cases h

end Test

namespace Document

def Finite (d : Document) : Prop :=
  ∀ r ∈ d.roots, r.Finite

theorem read_write {d : Document} (h : d.Finite) : ofJson? d.toJson = some d := by
  have hroots : Json.listOf? Root.ofJson? (.arr (d.roots.map Root.toJson)) = some d.roots :=
    listOf?_map fun r hr => Root.read_write (h r hr)
  have hread : ∀ fields, valuesOf "version" fields = [.int d.version.toNat] →
      valuesOf "library" fields = [d.library.schema] →
        valuesOf "roots" fields = [.arr (d.roots.map Root.toJson)] →
          ofJson? (.obj fields) = some d := by
    intro fields hversion hlibrary hlist
    simp [ofJson?, Json.object?, required, hversion, hlibrary, hlist, hroots]
  exact hread _ rfl rfl rfl

theorem yields : Yields Finite ofJson? := by
  intro v d hv h
  cases v with
  | obj fields =>
    simp only [ofJson?, Json.object?, Option.bind_eq_bind, Option.bind_some,
      Option.bind_eq_some_iff, Option.pure_def, Option.some.injEq] at h
    obtain ⟨version, -, library, -, roots, hroots, rfl⟩ := h
    exact Root.yields.list.required hv hroots
  | _ => cases h

end Document

/-! ## Plans -/

namespace Plan

theorem Pair.read_write (p : Pair) : ofJson? p.toJson = some p := by
  have hread : ∀ fields, valuesOf "name" fields = [.str p.name] →
      valuesOf "value" fields = [.str p.value] → ofJson? (.obj fields) = some p := by
    intro fields hname hvalue
    simp [ofJson?, Json.object?, required, hname, hvalue, Json.str?]
  exact hread _ rfl rfl

theorem Call.ofFields?_of_values {c : Call} {fields : List (String × Json)}
    (hname : valuesOf "name" fields = [.str c.name])
    (hmethod : valuesOf "method" fields = [.str c.method])
    (hurl : valuesOf "url" fields = [.str c.url])
    (hparameters : valuesOf "parameters" fields = [.arr (c.parameters.map Pair.toJson)])
    (hheaders : valuesOf "headers" fields = [.arr (c.headers.map Pair.toJson)]) :
    ofFields? fields = some c := by
  have hpairs : ∀ l : List Pair, Json.listOf? Pair.ofJson? (.arr (l.map Pair.toJson)) = some l :=
    fun l => listOf?_map fun p _ => p.read_write
  simp [ofFields?, required, withDefault, hname, hmethod, hurl, hparameters, hheaders, Json.str?,
    hpairs]

theorem Call.read_write (c : Call) : ofJson? c.toJson = some c := by
  show ofFields? c.toFields = some c
  exact Call.ofFields?_of_values rfl rfl rfl rfl rfl

theorem Assertion.read_write (a : Assertion) : ofJson? a.toJson = some a := by
  cases a with
  | hasStatus status =>
    have hread : ∀ fields, valuesOf "type" fields = [.str "has-status"] →
        valuesOf "status" fields = [.int status.toNat] →
          ofJson? (.obj fields) = some (hasStatus status) := by
      intro fields htype hstatus
      simp [ofJson?, Json.object?, required, htype, hstatus, Json.str?]
    exact hread _ rfl rfl
  | bodyContains value =>
    have hread : ∀ fields, valuesOf "type" fields = [.str "body-contains"] →
        valuesOf "value" fields = [.str value] →
          ofJson? (.obj fields) = some (bodyContains value) := by
      intro fields htype hvalue
      simp [ofJson?, Json.object?, required, htype, hvalue, Json.str?]
    exact hread _ rfl rfl

namespace Step

mutual

/-- The pauses are finite, those of inner steps too. -/
def Finite : Step → Prop
  | request _ | check _ _ => True
  | group _ steps => FiniteSteps steps
  | sleep x => Decimal.isFinite x = true

def FiniteSteps : List Step → Prop
  | [] => True
  | s :: r => s.Finite ∧ FiniteSteps r

end

mutual

theorem read_write : ∀ s : Step, s.Finite → ofJson? s.toJson = some s
  | request call, _ => by
    have hread : ∀ fields, valuesOf "type" fields = [.str "http-request"] →
        Call.ofFields? fields = some call → ofJson? (.obj fields) = some (request call) := by
      intro fields htype hcall
      rw [ofJson?]
      simp [ofFields?, required, htype, hcall, Json.str?]
    rw [toJson]
    exact hread _ rfl (Call.ofFields?_of_values rfl rfl rfl rfl rfl)
  | group name steps, h => by
    rw [Finite] at h
    have hsteps := ofJsons?_toJsons steps h
    have hread : ∀ fields, valuesOf "type" fields = [.str "group"] →
        valuesOf "name" fields = [.str name] → valuesOf "steps" fields = [.arr (toJsons steps)] →
          ofJson? (.obj fields) = some (group name steps) := by
      intro fields htype hname hlist
      have hinner : required (fun r => r) "steps" (readFields fields) = some steps := by
        rw [required_readFields]
        simp [required, hlist, listOfJson?, hsteps]
      rw [ofJson?, ofFields?, hinner]
      simp [required, htype, hname, Json.str?]
    rw [toJson]
    exact hread _ rfl rfl rfl
  | check target as, _ => by
    have has : Json.listOf? Assertion.ofJson? (.arr (as.map Assertion.toJson)) = some as :=
      listOf?_map fun a _ => a.read_write
    have hread : ∀ fields, valuesOf "type" fields = [.str "check"] →
        valuesOf "target" fields = [target.toJson] →
          valuesOf "checks" fields = [.arr (as.map Assertion.toJson)] →
            ofJson? (.obj fields) = some (check target as) := by
      intro fields htype htarget hchecks
      rw [ofJson?]
      simp [ofFields?, required, htype, htarget, hchecks, Json.str?, target.read_write, has]
    rw [toJson]
    exact hread _ rfl rfl rfl
  | sleep x, h => by
    rw [Finite] at h
    have hread : ∀ fields, valuesOf "type" fields = [.str "sleep"] →
        valuesOf "seconds" fields = [Json.number x] → ofJson? (.obj fields) = some (sleep x) := by
      intro fields htype hseconds
      rw [ofJson?]
      simp [ofFields?, required, htype, hseconds, Json.str?, float?_number h]
    rw [toJson]
    exact hread _ rfl rfl

theorem ofJsons?_toJsons : ∀ steps : List Step, FiniteSteps steps →
    ofJsons? (toJsons steps) = some steps
  | [], _ => by
    rw [toJsons, ofJsons?]
  | s :: r, h => by
    rw [FiniteSteps] at h
    rw [toJsons, ofJsons?, read_write s h.1, ofJsons?_toJsons r h.2]
    rfl

end

theorem finiteSteps_iff {steps : List Step} : FiniteSteps steps ↔ ∀ s ∈ steps, s.Finite := by
  induction steps with
  | nil => simp [FiniteSteps]
  | cons s r ih => simp [FiniteSteps, ih]

theorem yields : Yields Finite ofJson? := by
  intro v s hv h
  induction hn : sizeOf v using Nat.strongRecOn generalizing v s with
  | ind n ih =>
    cases v with
    | obj fields =>
      rw [ofJson?] at h
      simp only [ofFields?, Option.bind_eq_bind, Option.bind_eq_some_iff] at h
      obtain ⟨t, -, h⟩ := h
      split at h <;> try simp only [Option.bind_eq_some_iff, Option.pure_def, Option.some.injEq] at h
      · obtain ⟨call, -, rfl⟩ := h
        rw [Finite]
        trivial
      · obtain ⟨name, -, steps, hsteps, rfl⟩ := h
        rw [required_readFields] at hsteps
        obtain ⟨u, hu, hread⟩ := Json.exists_of_required hsteps
        rw [Finite, finiteSteps_iff]
        rw [listOfJson?_eq] at hread
        cases u with
        | arr items =>
          refine Json.forall_of_mapM hread fun j hj s hs => ?_
          have hlt := sizeOf_lt_of_mem_valuesOf hu
          have hj' := List.sizeOf_lt_of_mem hj
          rw [Json.arr.sizeOf_spec] at hlt
          exact ih _ (by omega) j s ((hv.of_mem_valuesOf _ hu).of_mem_items j hj) hs rfl
        | _ => cases hread
      · obtain ⟨target, -, as, -, rfl⟩ := h
        rw [Finite]
        trivial
      · obtain ⟨x, hx, rfl⟩ := h
        rw [Finite]
        exact yields_float.required hv hx
      · cases h
    | _ =>
      rw [ofJson?] at h
      · cases h
      · intro fields hfields
        cases hfields

end Step

namespace Scenario

def Finite (s : Scenario) : Prop :=
  ∀ x ∈ s.steps, x.Finite

theorem read_write {s : Scenario} (h : s.Finite) : ofJson? s.toJson = some s := by
  have hsteps := Step.ofJsons?_toJsons s.steps (Step.finiteSteps_iff.mpr h)
  have hread : ∀ fields, valuesOf "name" fields = [.str s.name] →
      valuesOf "executor" fields = [s.executor.toJson] →
        valuesOf "steps" fields = [.arr (Step.toJsons s.steps)] →
          ofJson? (.obj fields) = some s := by
    intro fields hname hexecutor hlist
    simp [ofJson?, Json.object?, required, hname, hexecutor, hlist, Json.str?,
      s.executor.read_write, Step.listOfJson?, hsteps]
  exact hread _ rfl rfl rfl

theorem yields : Yields Finite ofJson? := by
  intro v s hv h
  cases v with
  | obj fields =>
    simp only [ofJson?, Json.object?, Option.bind_eq_bind, Option.bind_some,
      Option.bind_eq_some_iff, Option.pure_def, Option.some.injEq] at h
    obtain ⟨name, -, executor, -, steps, hsteps, rfl⟩ := h
    rw [funext Step.listOfJson?_eq] at hsteps
    exact Step.yields.list.required hv hsteps
  | _ => cases h

end Scenario

def Finite (p : Plan) : Prop :=
  ∀ s ∈ p.scenarios, s.Finite

theorem read_write {p : Plan} (h : p.Finite) : ofJson? p.toJson = some p := by
  have hscenarios : Json.listOf? Scenario.ofJson? (.arr (p.scenarios.map Scenario.toJson)) =
      some p.scenarios := listOf?_map fun s hs => Scenario.read_write (h s hs)
  have hread : ∀ fields, valuesOf "scenarios" fields = [.arr (p.scenarios.map Scenario.toJson)] →
      ofJson? (.obj fields) = some p := by
    intro fields hlist
    simp [ofJson?, Json.object?, required, hlist, hscenarios]
  exact hread _ rfl

theorem yields : Yields Finite ofJson? := by
  intro v p hv h
  cases v with
  | obj fields =>
    simp only [ofJson?, Json.object?, Option.bind_eq_bind, Option.bind_some,
      Option.bind_eq_some_iff, Option.pure_def, Option.some.injEq] at h
    obtain ⟨scenarios, hscenarios, rfl⟩ := h
    exact Scenario.yields.list.required hv hscenarios
  | _ => cases h

end Plan

/-! ## What is saved is what is read -/

namespace Json

variable {β : Type} {s : Shape} {P : β → Prop} {write : β → Json} {read : Json → Option β}

example : Block.ofJson? (.obj [("note", .null), ("seconds", .int 1), ("id", .str "z"),
      ("type", .str "sleep")]) =
    Block.ofJson? (.obj [("id", .str "z"), ("type", .str "sleep"), ("seconds", .int 1),
      ("next", .null)]) := by
  rfl

end Json
end LoadTest

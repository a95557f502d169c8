import LoadTest.Proofs.Json.RoundTrip
import LoadTest.Proofs.Json.Scalars

/-!
Reading a text without blanks.

The only text that is refused is one whose brackets are nested too deep.  Each bracket that is
opened takes up one place of the room, and the room at the start is all that is ever checked.
-/

namespace LoadTest
namespace Json

/-! ## Nesting -/

mutual

/-- How many brackets are open at the innermost place of a value. -/
def depth : Json → Nat
  | null | bool _ | int _ | float _ | str _ => 0
  | arr items => depthItems items + 1
  | obj fields => depthFields fields + 1

def depthItems : List Json → Nat
  | [] => 0
  | j :: r => max j.depth (depthItems r)

def depthFields : List (String × Json) → Nat
  | [] => 0
  | (_, j) :: r => max j.depth (depthFields r)

end

mutual

/-- The numbers with a fraction in a value. -/
def floats : Json → List Float
  | null | bool _ | int _ | str _ => []
  | float x => [x]
  | arr items => floatsItems items
  | obj fields => floatsFields fields

def floatsItems : List Json → List Float
  | [] => []
  | j :: r => j.floats ++ floatsItems r

def floatsFields : List (String × Json) → List Float
  | [] => []
  | (_, j) :: r => j.floats ++ floatsFields r

end

/-! ## Values -/

/-- A text that begins with neither a blank nor a closing bracket. -/
def Opens (s : List Char) : Prop :=
  ∃ c r, s = c :: r ∧ isSpace c = false ∧ c ≠ ']'

theorem Opens.append {s : List Char} (h : Opens s) (r : List Char) : Opens (s ++ r) := by
  obtain ⟨c, t, rfl, hc⟩ := h
  exact ⟨c, t ++ r, rfl, hc⟩

theorem Opens.skipSpaces_eq {s : List Char} (h : Opens s) : skipSpaces s = s := by
  obtain ⟨c, r, rfl, hc, -⟩ := h
  rw [skipSpaces, List.dropWhile_cons, hc]
  rfl

/-- A value that is read back from its text, unless it nests deeper than there is room. -/
structure Readable (j : Json) : Prop where
  opens : Opens j.compact.toList
  read : ∀ fuel room rest, 2 * j.compact.toList.length ≤ fuel → Stops rest →
    value? fuel room (j.compact.toList ++ rest) =
      if j.depth ≤ room then some (j, rest) else none

/-- Texts after the first of a list, each behind a comma. -/
def behindCommas (texts : List String) : List Char :=
  texts.flatMap fun t => ',' :: t.toList

theorem behindCommas_cons (t : String) (texts : List String) :
    behindCommas (t :: texts) = ',' :: (t.toList ++ behindCommas texts) := by
  rw [behindCommas, List.flatMap_cons]
  rfl

theorem toList_commas (t : String) (texts : List String) :
    (",".intercalate (t :: texts)).toList = t.toList ++ behindCommas texts := by
  induction texts generalizing t with
  | nil => simp [behindCommas]
  | cons u texts ih =>
    rw [String.intercalate_cons_cons, String.toList_append, String.toList_append, ih u,
      behindCommas_cons, List.append_assoc]
    rfl

/-- What is read next if there was room before. -/
theorem bind_room {α β : Type} {x : α} {d room : Nat} {f : α → Option β} {y : Option β}
    (h : f x = y) : (if d ≤ room then some x else none).bind f = if d ≤ room then y else none := by
  by_cases hroom : d ≤ room
  · rw [if_pos hroom, if_pos hroom]
    exact h
  · rw [if_neg hroom, if_neg hroom]
    rfl

/-- There is room for two parts if there is for the deeper one. -/
theorem room_both {α : Type} (x : α) (d e room : Nat) :
    (if d ≤ room then if e ≤ room then some x else none else none) =
      if max d e ≤ room then some x else none := by
  simp only [← ite_and, Nat.max_le]

/-- The items of a list up to its closing bracket. -/
theorem items?_commas {j : Json} {items : List Json} (hj : j.Readable)
    (hitems : ∀ i ∈ items, i.Readable) {fuel : Nat} (room : Nat) (rest : List Char)
    (hfuel : 2 * (j.compact.toList ++ behindCommas (compactItems items)).length < fuel) :
    items? fuel room (j.compact.toList ++ behindCommas (compactItems items) ++ ']' :: rest) =
      if depthItems (j :: items) ≤ room then some (j :: items, rest) else none := by
  induction items generalizing j fuel with
  | nil =>
    cases fuel with
    | zero => omega
    | succ fuel =>
      rw [compactItems, behindCommas, List.flatMap_nil, List.append_nil] at hfuel ⊢
      rw [items?, (hj.opens.append _).skipSpaces_eq,
        hj.read fuel room _ (by omega) (stops_bracket rest), depthItems, depthItems, Nat.max_zero]
      exact bind_room rfl
  | cons i items ih =>
    rw [List.forall_mem_cons] at hitems
    cases fuel with
    | zero => omega
    | succ fuel =>
      rw [compactItems, behindCommas_cons, List.length_append, List.length_cons,
        List.length_append] at hfuel
      have hlength : 2 * (i.compact.toList ++ behindCommas (compactItems items)).length < fuel := by
        rw [List.length_append]
        omega
      have hrest := ih hitems.1 hitems.2 hlength
      rw [compactItems, behindCommas_cons, List.append_assoc, List.cons_append, items?,
        (hj.opens.append _).skipSpaces_eq, hj.read fuel room _ (by omega) (stops_comma _),
        depthItems]
      rw [← room_both]
      refine bind_room ?_
      show (items? fuel room _).bind _ = _
      rw [hrest]
      exact bind_room rfl

/-- A field as text. -/
def fieldText (k : String) (j : Json) : String :=
  quote k ++ ":" ++ j.compact

theorem toList_fieldText (k : String) (j : Json) :
    (fieldText k j).toList = '"' :: (escape k.toList ++ '"' :: ':' :: j.compact.toList) := by
  rw [fieldText, String.toList_append, String.toList_append, quote, String.toList_ofList]
  simp

theorem length_lt_fieldText (k : String) (j : Json) :
    j.compact.toList.length < (fieldText k j).toList.length := by
  rw [toList_fieldText, List.length_cons, List.length_append, List.length_cons, List.length_cons]
  omega

/-- What is read behind a name and its colon. -/
theorem fields?_fieldText {k : String} {j : Json} (hj : j.Readable) (fuel room : Nat)
    (r : List Char) :
    fields? (fuel + 1) room ((fieldText k j).toList ++ r) = (do
      let (j, rest) ← value? fuel room (j.compact.toList ++ r)
      match skipSpaces rest with
      | '}' :: rest => some ([(k, j)], rest)
      | ',' :: rest =>
        let (l, rest) ← fields? fuel room rest
        some ((k, j) :: l, rest)
      | _ => none) := by
  have hname : string? (escape k.toList ++ '"' :: ':' :: (j.compact.toList ++ r)) =
      some (k, ':' :: (j.compact.toList ++ r)) := string?_escape k _
  have htext : (fieldText k j).toList ++ r =
      '"' :: (escape k.toList ++ '"' :: ':' :: (j.compact.toList ++ r)) := by
    rw [toList_fieldText]
    simp
  rw [htext, fields?]
  show (string? (escape k.toList ++ '"' :: ':' :: (j.compact.toList ++ r))).bind _ = _
  rw [hname]
  show (value? fuel room (skipSpaces (j.compact.toList ++ r))).bind _ = _
  rw [(hj.opens.append r).skipSpaces_eq]
  rfl

/-- The fields of an object up to its closing bracket. -/
theorem fields?_commas {k : String} {j : Json} {fields : List (String × Json)} (hj : j.Readable)
    (hfields : ∀ e ∈ fields, e.2.Readable) {fuel : Nat} (room : Nat) (rest : List Char)
    (hfuel : 2 * ((fieldText k j).toList ++ behindCommas (compactFields fields)).length < fuel) :
    fields? fuel room ((fieldText k j).toList ++ behindCommas (compactFields fields) ++ '}' :: rest) =
      if depthFields ((k, j) :: fields) ≤ room then some ((k, j) :: fields, rest) else none := by
  have hlength := length_lt_fieldText k j
  induction fields generalizing k j fuel with
  | nil =>
    cases fuel with
    | zero => omega
    | succ fuel =>
      rw [compactFields, behindCommas, List.flatMap_nil, List.append_nil] at hfuel ⊢
      rw [fields?_fieldText hj, hj.read fuel room _ (by omega) (stops_brace rest), depthFields,
        depthFields, Nat.max_zero]
      exact bind_room rfl
  | cons e fields ih =>
    rw [List.forall_mem_cons] at hfields
    cases fuel with
    | zero => omega
    | succ fuel =>
      obtain ⟨k', j'⟩ := e
      rw [compactFields, ← fieldText, behindCommas_cons, List.length_append, List.length_cons,
        List.length_append] at hfuel
      have hfuel' : 2 * ((fieldText k' j').toList ++ behindCommas (compactFields fields)).length <
          fuel := by
        rw [List.length_append]
        omega
      have hrest := ih hfields.1 hfields.2 hfuel' (length_lt_fieldText k' j')
      rw [compactFields, ← fieldText, behindCommas_cons, List.append_assoc, List.cons_append,
        fields?_fieldText hj, hj.read fuel room _ (by omega) (stops_comma _), depthFields]
      rw [← room_both]
      refine bind_room ?_
      show (fields? fuel room _).bind _ = _
      rw [hrest]
      exact bind_room rfl

theorem ne_of_number {c : Char} (h : c = '-' ∨ c.isDigit = true) {d : Char} (hminus : d ≠ '-')
    (hdigit : d.isDigit = false) : c ≠ d := by
  intro hc
  subst hc
  rcases h with h | h
  · exact hminus h
  · rw [hdigit] at h
    cases h

theorem value?_number {c : Char} (h : c = '-' ∨ c.isDigit = true) (fuel room : Nat)
    (r : List Char) : value? (fuel + 1) room (c :: r) = number? (c :: r) := by
  rw [value?]
  · exact fun _ heq => ne_of_number h (d := '"') (by decide) (by decide) (List.cons.inj heq).1
  · exact fun _ heq => ne_of_number h (d := '[') (by decide) (by decide) (List.cons.inj heq).1
  · exact fun _ heq => ne_of_number h (d := '\x7b') (by decide) (by decide) (List.cons.inj heq).1
  · exact fun _ heq => ne_of_number h (d := 't') (by decide) (by decide) (List.cons.inj heq).1
  · exact fun _ heq => ne_of_number h (d := 'f') (by decide) (by decide) (List.cons.inj heq).1
  · exact fun _ heq => ne_of_number h (d := 'n') (by decide) (by decide) (List.cons.inj heq).1

theorem readable_number {j : Json} (h : number? j.compact.toList = some (j, []))
    (hdepth : j.depth = 0) : j.Readable := by
  obtain ⟨c, r, htext, hc⟩ := exists_of_number? h
  have hspace : isSpace c = false := by
    simp only [isSpace, Bool.or_eq_false_iff, decide_eq_false_iff_not]
    refine ⟨⟨⟨?_, ?_⟩, ?_⟩, ?_⟩ <;> exact ne_of_number hc (by decide) (by decide)
  refine ⟨⟨c, r, htext, hspace, ne_of_number hc (by decide) (by decide)⟩, ?_⟩
  intro fuel room rest hfuel hrest
  rw [hdepth, if_pos (Nat.zero_le room)]
  rw [htext] at h hfuel ⊢
  cases fuel with
  | zero => cases hfuel
  | succ fuel =>
    rw [List.cons_append, value?_number hc, ← List.cons_append]
    exact number?_append hrest h

theorem readable_word {j : Json} {c : Char} {r : List Char} (htext : j.compact.toList = c :: r)
    (hopens : isSpace c = false ∧ c ≠ ']') (hdepth : j.depth = 0)
    (hread : ∀ fuel room rest, value? (fuel + 1) room (c :: r ++ rest) = some (j, rest)) :
    j.Readable := by
  refine ⟨⟨c, r, htext, hopens⟩, ?_⟩
  intro fuel room rest hfuel _
  rw [hdepth, if_pos (Nat.zero_le room)]
  rw [htext] at hfuel ⊢
  cases fuel with
  | zero => cases hfuel
  | succ fuel => exact hread fuel room rest

theorem readable_null : null.Readable :=
  readable_word (show null.compact.toList = 'n' :: ['u', 'l', 'l'] from rfl) (by decide) rfl
    fun _ _ _ => rfl

theorem readable_bool (b : Bool) : (bool b).Readable := by
  cases b with
  | false =>
    exact readable_word (show (bool false).compact.toList = 'f' :: ['a', 'l', 's', 'e'] from rfl)
      (by decide) rfl fun _ _ _ => rfl
  | true =>
    exact readable_word (show (bool true).compact.toList = 't' :: ['r', 'u', 'e'] from rfl)
      (by decide) rfl fun _ _ _ => rfl

theorem readable_str (s : String) : (str s).Readable := by
  have htext : (str s).compact.toList = '"' :: (escape s.toList ++ ['"']) := by
    rw [compact, quote, String.toList_ofList]
    rfl
  refine readable_word htext (by decide) rfl fun fuel room rest => ?_
  have hstring : string? (escape s.toList ++ ['"'] ++ rest) = some (s, rest) := by
    rw [List.append_assoc]
    exact string?_escape s rest
  show (string? (escape s.toList ++ ['"'] ++ rest)).map _ = _
  rw [hstring]
  rfl

/-- Room for one bracket more. -/
theorem map_enclosed {α β : Type} (f : α → β) (x : α) {d room : Nat} :
    (if d ≤ room then some x else none).map f = if d + 1 ≤ room + 1 then some (f x) else none := by
  by_cases hroom : d ≤ room
  · rw [if_pos hroom, if_pos (Nat.succ_le_succ hroom)]
    rfl
  · rw [if_neg hroom, if_neg fun h => hroom (Nat.le_of_succ_le_succ h)]
    rfl

theorem value?_items {s : List Char} (h : Opens s) (fuel room : Nat) :
    value? (fuel + 1) (room + 1) ('[' :: s) =
      (items? fuel room s).map fun (l, rest) => (arr l, rest) := by
  have hskip := h.skipSpaces_eq
  obtain ⟨c, r, rfl, -, hbracket⟩ := h
  rw [value?, hskip]
  split
  · rename_i heq
    exact absurd (List.cons.inj heq).1 hbracket
  · rfl

theorem readable_arr {items : List Json} (h : ∀ j ∈ items, j.Readable) : (arr items).Readable := by
  cases items with
  | nil =>
    refine ⟨⟨'[', [']'], rfl, by decide, by decide⟩, ?_⟩
    intro fuel room rest hfuel _
    cases fuel with
    | zero => cases hfuel
    | succ fuel => cases room <;> rfl
  | cons j items =>
    rw [List.forall_mem_cons] at h
    have htext : (arr (j :: items)).compact.toList =
        '[' :: (j.compact.toList ++ behindCommas (compactItems items) ++ [']']) := by
      rw [compact, compactItems, String.toList_append, String.toList_append, toList_commas]
      rfl
    refine ⟨⟨'[', _, htext, by decide, by decide⟩, ?_⟩
    intro fuel room rest hfuel _
    rw [htext, List.length_cons, List.length_append] at hfuel
    rw [htext, List.cons_append, List.append_assoc, List.singleton_append]
    cases fuel with
    | zero => omega
    | succ fuel =>
      cases room with
      | zero => rfl
      | succ room =>
        have hopens : Opens (j.compact.toList ++ behindCommas (compactItems items) ++ ']' :: rest) :=
          (h.1.opens.append _).append _
        rw [value?_items hopens, items?_commas h.1 h.2 room rest (by omega)]
        exact map_enclosed _ _

theorem value?_fields (s : List Char) (fuel room : Nat) :
    value? (fuel + 1) (room + 1) ('\x7b' :: '"' :: s) =
      (fields? fuel room ('"' :: s)).map fun (l, rest) => (obj l, rest) :=
  rfl

theorem readable_obj {fields : List (String × Json)} (h : ∀ e ∈ fields, e.2.Readable) :
    (obj fields).Readable := by
  cases fields with
  | nil =>
    refine ⟨⟨'\x7b', ['\x7d'], rfl, by decide, by decide⟩, ?_⟩
    intro fuel room rest hfuel _
    cases fuel with
    | zero => cases hfuel
    | succ fuel => cases room <;> rfl
  | cons e fields =>
    obtain ⟨k, j⟩ := e
    rw [List.forall_mem_cons] at h
    have htext : (obj ((k, j) :: fields)).compact.toList =
        '\x7b' :: ((fieldText k j).toList ++ behindCommas (compactFields fields) ++ ['\x7d']) := by
      rw [compact, compactFields, ← fieldText, String.toList_append, String.toList_append,
        toList_commas]
      show ['\x7b'] ++ _ ++ ['\x7d'] = _
      rw [List.singleton_append, List.cons_append]
    refine ⟨⟨'\x7b', _, htext, by decide, by decide⟩, ?_⟩
    intro fuel room rest hfuel _
    rw [htext, List.length_cons, List.length_append] at hfuel
    rw [htext, List.cons_append, List.append_assoc, List.singleton_append]
    cases fuel with
    | zero => omega
    | succ fuel =>
      cases room with
      | zero => rfl
      | succ room =>
        have hlength : 2 * ((fieldText k j).toList ++ behindCommas (compactFields fields)).length <
            fuel := by
          omega
        have hread := fields?_commas h.1 h.2 room rest hlength
        rw [toList_fieldText] at hread ⊢
        simp only [List.cons_append] at hread ⊢
        rw [value?_fields, hread]
        exact map_enclosed _ _

mutual

/-- Every value whose numbers read back does, but for its nesting. -/
theorem readable : ∀ j : Json, j.Proper → (∀ x ∈ j.floats, ReadsBack x) → j.Readable
  | null, _, _ => readable_null
  | bool b, _, _ => readable_bool b
  | int n, hproper, _ => by
    rw [Proper] at hproper
    have h := number?_int hproper stops_nil
    rw [List.append_nil] at h
    exact readable_number h rfl
  | float x, _, hfloats => readable_number (hfloats x List.mem_cons_self) rfl
  | str s, _, _ => readable_str s
  | arr items, hproper, hfloats => readable_arr (readable_items items hproper hfloats)
  | obj fields, hproper, hfloats => readable_obj (readable_fields fields hproper hfloats)

theorem readable_items : ∀ items : List Json, ProperItems items →
    (∀ x ∈ floatsItems items, ReadsBack x) → ∀ j ∈ items, j.Readable
  | [], _, _ => List.forall_mem_nil _
  | j :: items, hproper, hfloats => by
    rw [ProperItems] at hproper
    rw [floatsItems, List.forall_mem_append] at hfloats
    exact List.forall_mem_cons.mpr
      ⟨readable j hproper.1 hfloats.1, readable_items items hproper.2 hfloats.2⟩

theorem readable_fields : ∀ fields : List (String × Json), ProperFields fields →
    (∀ x ∈ floatsFields fields, ReadsBack x) → ∀ e ∈ fields, e.2.Readable
  | [], _, _ => List.forall_mem_nil _
  | (_, j) :: fields, hproper, hfloats => by
    rw [ProperFields] at hproper
    rw [floatsFields, List.forall_mem_append] at hfloats
    exact List.forall_mem_cons.mpr
      ⟨readable j hproper.1 hfloats.1, readable_fields fields hproper.2 hfloats.2⟩

end

/-- The text of a value is read as that value exactly if its brackets are not nested too deep. -/
theorem ofText?_compact {j : Json} (hproper : j.Proper) (hfloats : ∀ x ∈ j.floats, ReadsBack x) :
    ofText? j.compact = if j.depth ≤ maxDepth then some j else none := by
  have h := readable j hproper hfloats
  have hread := h.read (2 * j.compact.toList.length + 2) maxDepth [] (by omega) stops_nil
  rw [List.append_nil] at hread
  rw [ofText?, h.opens.skipSpaces_eq, hread]
  by_cases hdepth : j.depth ≤ maxDepth
  · rw [if_pos hdepth, if_pos hdepth]
    rfl
  · rw [if_neg hdepth, if_neg hdepth]

end Json
end LoadTest

import LoadTest.Script
import LoadTest.Proofs.Layout.Document

/-!
The lines of a script as lines of code.

Whatever an environment or a user puts in a line is quoted, is a name or is a number, so the
brackets of a line are those that the script itself writes.
-/

namespace LoadTest

open Layout (isInert)

/-! ## Characters of names and numbers -/

theorem ascii_forall {P : Char → Prop} (h : ∀ n < 128, P (Char.ofNat n)) (c : Char)
    (hc : c.toNat < 128) : P c := by
  rw [← Char.ofNat_toNat c]
  exact h c.toNat hc

namespace Script

theorem toNat_lt_of_isNameChar {c : Char} (h : isNameChar c = true) : c.toNat < 128 := by
  have hupper : c.isUpper = true → c.toNat ≤ 90 := fun h => (of_decide_eq_true h).2
  have hlower : c.isLower = true → c.toNat ≤ 122 := fun h =>
    of_decide_eq_true (Bool.and_eq_true_iff.mp h).2
  have hdigit : c.isDigit = true → c.toNat ≤ 57 := fun h =>
    (Char.isDigit_iff_toNat.mp h).2
  have hcases : (((c.isUpper || c.isLower) || c.isDigit) || decide (c = '_')) = true := h
  simp only [Bool.or_eq_true, decide_eq_true_eq] at hcases
  rcases hcases with ((h | h) | h) | rfl
  · exact (hupper h).trans_lt (by decide)
  · exact (hlower h).trans_lt (by decide)
  · exact (hdigit h).trans_lt (by decide)
  · decide

theorem isInert_of_isNameChar {c : Char} (h : isNameChar c = true) : isInert c = true :=
  ascii_forall (P := fun c => isNameChar c = true → isInert c = true) (by decide +kernel) c
    (toNat_lt_of_isNameChar h) h

/-- A line may start with the character. -/
def Starts (c : Char) : Prop :=
  Text.isBlank c = false ∧ Layout.isCloser c = false ∧ c ≠ ';' ∧ c ≠ ','

instance (c : Char) : Decidable (Starts c) :=
  inferInstanceAs (Decidable (_ ∧ _ ∧ _ ∧ _))

theorem starts_of_isNameChar {c : Char} (h : isNameChar c = true) : Starts c :=
  ascii_forall (P := fun c => isNameChar c = true → Starts c) (by decide +kernel) c
    (toNat_lt_of_isNameChar h) h

theorem isNameChar_toLower {c : Char} (h : isNameChar c = true) : isNameChar c.toLower = true :=
  ascii_forall (P := fun c => isNameChar c = true → isNameChar c.toLower = true)
    (by decide +kernel) c (toNat_lt_of_isNameChar h) h

theorem isNameChar_toUpper {c : Char} (h : isNameChar c = true) : isNameChar c.toUpper = true :=
  ascii_forall (P := fun c => isNameChar c = true → isNameChar c.toUpper = true)
    (by decide +kernel) c (toNat_lt_of_isNameChar h) h

theorem isNameChar_of_mem_nameWords {s w : List Char} (hw : w ∈ nameWords s) {c : Char}
    (hc : c ∈ w) : isNameChar c = true := by
  obtain ⟨raw, -, rfl⟩ := List.mem_map.mp (List.mem_filter.mp hw).1
  exact (List.mem_filter.mp hc).2

theorem isNameChar_of_mem_mapFirst {f : Char → Char}
    (hf : ∀ c, isNameChar c = true → isNameChar (f c) = true) {w : List Char}
    (hw : ∀ c ∈ w, isNameChar c = true) {c : Char} (hc : c ∈ mapFirst f w) :
    isNameChar c = true := by
  cases w with
  | nil => cases hc
  | cons d w =>
    rcases List.mem_cons.mp hc with rfl | hc
    · exact hf d (hw d List.mem_cons_self)
    · exact hw c (List.mem_cons_of_mem d hc)

theorem isNameChar_of_mem_camelCase {ws : List (List Char)}
    (h : ∀ w ∈ ws, ∀ c ∈ w, isNameChar c = true) {c : Char} (hc : c ∈ camelCase ws) :
    isNameChar c = true := by
  cases ws with
  | nil => cases hc
  | cons w ws =>
    rcases List.mem_append.mp hc with hc | hc
    · exact isNameChar_of_mem_mapFirst (fun _ => isNameChar_toLower) (h w List.mem_cons_self) hc
    · obtain ⟨v, hv, hc⟩ := List.mem_flatMap.mp hc
      exact isNameChar_of_mem_mapFirst (fun _ => isNameChar_toUpper)
        (h v (List.mem_cons_of_mem w hv)) hc

/-- A function has a name of letters, digits and underscores. -/
theorem isNameChar_of_mem_functionChars {s : List Char} {c : Char} (h : c ∈ functionChars s) :
    isNameChar c = true := by
  have hcamel : ∀ d ∈ camelCase (nameWords s), isNameChar d = true :=
    fun d => isNameChar_of_mem_camelCase fun w hw c hc => isNameChar_of_mem_nameWords hw hc
  unfold functionChars guardStart at h
  split at h
  · rcases List.mem_singleton.mp h with rfl
    decide
  · split at h
    · exact hcamel c h
    · rcases List.mem_cons.mp h with rfl | h
      · decide
      · exact hcamel c h

theorem functionChars_ne_nil (s : List Char) : functionChars s ≠ [] := by
  unfold functionChars guardStart
  split
  · exact List.cons_ne_nil _ _
  · next heq =>
    split
    · rw [heq]
      exact List.cons_ne_nil _ _
    · exact List.cons_ne_nil _ _

end Script

/-! ## Texts without brackets -/

/-- A text that leaves the brackets around it as they are. -/
def Inert (s : String) : Prop :=
  ∀ c ∈ s.toList, isInert c = true

instance (s : String) : Decidable (Inert s) :=
  List.decidableBAll (fun c => isInert c = true) s.toList

namespace Inert

theorem append {s t : String} (hs : Inert s) (ht : Inert t) : Inert (s ++ t) := by
  rw [Inert, String.toList_append, List.forall_mem_append]
  exact ⟨hs, ht⟩

theorem functionName (name : String) : Inert (Script.functionName name) := by
  intro c h
  rw [Script.functionName, String.toList_ofList] at h
  exact Script.isInert_of_isNameChar (Script.isNameChar_of_mem_functionChars h)

theorem nat (n : Nat) : Inert (toString n) := by
  intro c h
  have hdigit : c.isDigit = true := by
    rw [show toString n = n.repr from rfl, Nat.toList_repr] at h
    exact Nat.isDigit_of_mem_toDigits (by decide) (by decide) h
  refine Script.isInert_of_isNameChar ?_
  rw [Script.isNameChar, Char.isAlphanum, hdigit]
  simp

theorem zeros (n : Nat) : Inert (Decimal.zeros n) := by
  intro c h
  rw [Decimal.zeros, String.toList_ofList, List.mem_replicate] at h
  rw [h.2]
  decide

theorem withPoint {s : String} (h : Inert s) (point : Nat) : Inert (Decimal.withPoint s point) := by
  have htake : Inert (String.ofList (s.toList.take point)) := by
    intro c hc
    rw [String.toList_ofList] at hc
    exact h c (List.mem_of_mem_take hc)
  have hdrop : Inert (String.ofList (s.toList.drop point)) := by
    intro c hc
    rw [String.toList_ofList] at hc
    exact h c (List.mem_of_mem_drop hc)
  exact (htake.append (by decide)).append hdrop

theorem positional (d : Decimal.Digits) : Inert d.positional := by
  have hdigits := Inert.nat d.digits
  unfold Decimal.Digits.positional
  simp only
  split_ifs
  · exact hdigits.append (Inert.zeros _)
  · exact hdigits.withPoint _
  · exact ((show Inert "0." by decide).append (Inert.zeros _)).append hdigits

theorem signText (negative : Bool) : Inert (Decimal.signText negative) := by
  cases negative <;> decide

theorem plainText (x : Float) : Inert (Decimal.plainText x) := by
  unfold Decimal.plainText
  split
  · decide
  · exact (Inert.signText _).append (by decide)
  · exact (Inert.signText _).append (by decide)
  · exact (Inert.signText _).append (Inert.positional _)

theorem shorthand? {method function : String} (h : Script.shorthand? method = some function) :
    Inert function := by
  unfold Script.shorthand? at h
  split at h
  all_goals
    cases h
    try decide

end Inert

/-! ## Lines of pieces -/

namespace Script

open Layout (nesting openedOn Tidy Closes)
open Piece (code quoted)

def pieceNesting (stack : List Char) : Piece → Option (List Char)
  | code s => nesting stack s.toList
  | quoted _ => some stack

/-- The brackets that are open behind a line. -/
def lineNesting (stack : List Char) (l : Line) : Option (List Char) :=
  l.foldlM pieceNesting stack

theorem lineNesting_cons (stack : List Char) (x : Piece) (l : Line) :
    lineNesting stack (x :: l) = (pieceNesting stack x).bind fun stack => lineNesting stack l := rfl

theorem lineNesting_append (stack : List Char) (l l' : Line) :
    lineNesting stack (l ++ l') = (lineNesting stack l).bind fun stack => lineNesting stack l' := by
  rw [lineNesting, List.foldlM_append]
  rfl

theorem toList_render (l : Line) : l.render.toList = l.flatMap fun x => x.render.toList := by
  rw [Line.render, String.toList_join, List.flatMap_map]

theorem toList_render_append (l l' : Line) :
    (Line.render (l ++ l')).toList = l.render.toList ++ l'.render.toList := by
  rw [toList_render, toList_render, toList_render, List.flatMap_append]

/-- A line starts as its first piece does. -/
theorem head?_render {l : Line} {x : Piece} {c : Char} (hl : l.head? = some x)
    (hx : x.render.toList.head? = some c) : l.render.toList.head? = some c := by
  obtain ⟨r, rfl⟩ := List.head?_eq_some_iff.mp hl
  rw [toList_render, List.flatMap_cons, List.head?_append, hx]
  rfl

/-- A line ends as its last piece does. -/
theorem getLast?_render {l : Line} {x : Piece} {d : Char} (hl : l.getLast? = some x)
    (hx : x.render.toList.getLast? = some d) : l.render.toList.getLast? = some d := by
  obtain ⟨r, rfl⟩ := List.getLast?_eq_some_iff.mp hl
  rw [toList_render_append, List.getLast?_append, toList_render]
  simp [hx]

theorem head?_toList_append {s : String} {c : Char} (h : s.toList.head? = some c) (t : String) :
    (s ++ t).toList.head? = some c := by
  rw [String.toList_append, List.head?_append, h]
  rfl

theorem getLast?_toList_append (s : String) {t : String} {d : Char}
    (h : t.toList.getLast? = some d) : (s ++ t).toList.getLast? = some d := by
  rw [String.toList_append, List.getLast?_append, h]
  rfl

theorem head?_quote (s : String) : (quoted s).render.toList.head? = some '"' := by
  rw [Piece.render, Json.quote, String.toList_ofList]
  rfl

theorem scan_of_lineNesting {stack after : List Char} {l : Line}
    (h : lineNesting stack l = some after) (n : Nat) (openers : Layout.Openers) (r : List Char) :
    Layout.scan n .code (openedOn n stack ++ openers) (l.render.toList ++ r) =
      Layout.scan n .code (openedOn n after ++ openers) r := by
  rw [toList_render]
  induction l generalizing stack with
  | nil => rw [show stack = after from Option.some.inj h]; rfl
  | cons x l ih =>
    rw [lineNesting_cons] at h
    obtain ⟨middle, hx, hl⟩ := Option.bind_eq_some_iff.mp h
    rw [List.flatMap_cons, List.append_assoc, ← ih hl]
    cases x with
    | code s => exact Layout.scan_of_nesting hx n openers _
    | quoted s =>
      rw [show stack = middle from Option.some.inj hx]
      exact Layout.scan_quote s n _ _

theorem newline_not_mem_of_lineNesting {stack after : List Char} {l : Line}
    (h : lineNesting stack l = some after) : '\n' ∉ l.render.toList := by
  rw [toList_render]
  induction l generalizing stack with
  | nil => exact List.not_mem_nil
  | cons x l ih =>
    rw [lineNesting_cons] at h
    obtain ⟨middle, hx, hl⟩ := Option.bind_eq_some_iff.mp h
    rw [List.flatMap_cons, List.mem_append, not_or]
    refine ⟨?_, ih hl⟩
    cases x with
    | code s => exact Layout.newline_not_mem_of_nesting hx
    | quoted s => exact Layout.newline_not_mem_quote s

theorem tidy_of_lineNesting {l : Line} {stack : List Char} {c d : Char}
    (hnesting : lineNesting [] l = some stack) (hfirst : l.render.toList.head? = some c)
    (hc : Starts c) (hlast : l.render.toList.getLast? = some d)
    (hd : Text.isBlank d = false ∧ Layout.isOpener d = !stack.isEmpty) :
    Tidy l.render.toList stack where
  scan n openers := by
    have h := scan_of_lineNesting hnesting n openers []
    rw [List.append_nil] at h
    exact h
  first := by
    obtain ⟨r, hr⟩ := List.head?_eq_some_iff.mp hfirst
    exact ⟨c, r, hr, hc⟩
  last := ⟨d, hlast, hd⟩
  newline := newline_not_mem_of_lineNesting hnesting

/-! ## The lines of a script -/

/-- A text that starts without brackets nests as the rest of it does. -/
theorem nesting_append_of_inert {s : String} (h : Inert s) (stack : List Char) (t : String) :
    nesting stack (s ++ t).toList = nesting stack t.toList := by
  rw [String.toList_append, Layout.nesting_append, Layout.nesting_of_inert h, Option.bind_some]

theorem lineNesting_headerPieces (e : Environment) (stack : List Char) :
    ∀ headers : List Plan.Pair, lineNesting stack (headerPieces e headers) = some stack
  | [] => rfl
  | [_] => rfl
  | _ :: h :: headers => lineNesting_headerPieces e stack (h :: headers)

/-- A request closes what it opens. -/
theorem lineNesting_requestPieces (e : Environment) (c : Plan.Call) (stack : List Char) :
    lineNesting stack (requestPieces e c) = some stack := by
  unfold requestPieces
  simp only
  split_ifs with hheaders
  · split
    · next function hfunction =>
      have hcall : Inert ("http." ++ function) :=
        (show Inert "http." by decide).append (Inert.shorthand? hfunction)
      rw [lineNesting_cons, pieceNesting, nesting_append_of_inert hcall]
      rfl
    · rfl
  · rw [lineNesting_append, lineNesting_append]
    have hopening : lineNesting stack [code "http.request(", quoted (verb c.method.toList),
        code ", ", quoted (requestUrl e c), code ", null, \x7b headers: \x7b "] =
          some ('{' :: '{' :: '(' :: stack) := rfl
    rw [hopening, Option.bind_some, lineNesting_headerPieces]
    rfl

theorem head?_requestPieces (e : Environment) (c : Plan.Call) :
    ∃ x, (requestPieces e c).head? = some x ∧ x.render.toList.head? = some 'h' := by
  unfold requestPieces
  simp only
  split_ifs with hheaders
  · split
    · next function _ =>
      refine ⟨_, rfl, ?_⟩
      rw [Piece.render, String.append_assoc]
      exact head?_toList_append rfl _
    · exact ⟨_, rfl, rfl⟩
  · exact ⟨_, rfl, rfl⟩

theorem tidy_request (e : Environment) (c : Plan.Call) :
    Tidy (Line.render (requestPieces e c ++ [code ";"])).toList [] := by
  obtain ⟨x, hx, hfirst⟩ := head?_requestPieces e c
  refine tidy_of_lineNesting (c := 'h') (d := ';') ?_ (head?_render (x := x) ?_ hfirst) (by decide)
    (getLast?_render List.getLast?_concat rfl) (by decide)
  · rw [lineNesting_append, lineNesting_requestPieces]
    rfl
  · rw [List.head?_append, hx]
    rfl

theorem tidy_response (e : Environment) (c : Plan.Call) :
    Tidy (Line.render ([code "response = "] ++ requestPieces e c ++ [code ";"])).toList [] := by
  refine tidy_of_lineNesting (c := 'r') (d := ';') ?_ (head?_render rfl rfl) (by decide)
    (getLast?_render List.getLast?_concat rfl) (by decide)
  rw [List.append_assoc, lineNesting_append, show lineNesting [] [code "response = "] = some []
    from rfl, Option.bind_some, lineNesting_append, lineNesting_requestPieces]
  rfl

theorem tidy_groupOpening (name : String) :
    Tidy (Line.render [code "group(", quoted name, code ", () => \x7b"]).toList ['{', '('] :=
  tidy_of_lineNesting (c := 'g') (d := '{') rfl (head?_render rfl rfl) (by decide)
    (getLast?_render (x := code ", () => \x7b") rfl rfl) (by decide)

theorem tidy_sleep (x : Float) :
    Tidy (Line.render [code ("sleep(" ++ Decimal.plainText x ++ ");")]).toList [] := by
  refine tidy_of_lineNesting (c := 's') (d := ';') ?_
    (head?_render rfl (head?_toList_append (head?_toList_append rfl _) _)) (by decide)
    (getLast?_render rfl (getLast?_toList_append _ rfl)) (by decide)
  rw [lineNesting_cons, pieceNesting, String.append_assoc, String.toList_append,
    Layout.nesting_append, show nesting [] "sleep(".toList = some ['('] from rfl,
    Option.bind_some, nesting_append_of_inert (Inert.plainText x)]
  rfl

theorem tidy_assertion (e : Environment) (a : Plan.Assertion) :
    Tidy (assertionLine e a).render.toList [] := by
  cases a with
  | hasStatus n =>
    refine tidy_of_lineNesting (c := '"') (d := ',') ?_ (head?_render rfl (head?_quote _))
      (by decide) (getLast?_render rfl (getLast?_toList_append _ rfl)) (by decide)
    simp only [assertionLine]
    rw [lineNesting_cons, pieceNesting, Option.bind_some, lineNesting_cons, pieceNesting,
      String.append_assoc, String.toList_append, Layout.nesting_append,
      show nesting [] ": (r) => r.status === ".toList = some [] from rfl, Option.bind_some,
      nesting_append_of_inert (Inert.nat _)]
    rfl
  | bodyContains text =>
    exact tidy_of_lineNesting (c := '"') (d := ',') rfl (head?_render rfl (head?_quote _))
      (by decide) (getLast?_render (x := code "),") rfl rfl) (by decide)

theorem tidy_stage (e : Environment) (s : Stage) : Tidy (stageLine e s).render.toList [] := by
  refine tidy_of_lineNesting (c := '{') (d := ',') ?_
    (head?_render rfl (head?_toList_append (head?_toList_append rfl _) _)) (by decide)
    (getLast?_render (x := code " \x7d,") rfl rfl) (by decide)
  simp only [stageLine]
  rw [lineNesting_cons, pieceNesting, String.append_assoc, String.toList_append,
    Layout.nesting_append, show nesting [] "\x7b target: ".toList = some ['{'] from rfl,
    Option.bind_some, nesting_append_of_inert (Inert.nat _)]
  rfl

/-- A field with a number. -/
theorem tidy_count {field : String} (hfield : Inert field) {c : Char}
    (hc : field.toList.head? = some c) (hstarts : Starts c) (n : Nat) :
    Tidy (Line.render [code (field ++ toString n ++ ",")]).toList [] := by
  refine tidy_of_lineNesting (c := c) (d := ',') ?_
    (head?_render rfl (head?_toList_append (head?_toList_append hc _) _)) hstarts
    (getLast?_render rfl (getLast?_toList_append _ rfl)) (by decide)
  rw [lineNesting_cons, pieceNesting, nesting_append_of_inert (hfield.append (Inert.nat n))]
  rfl

/-- A field with a quoted text. -/
theorem tidy_field {field : String} (hfield : Inert field) {c : Char}
    (hc : field.toList.head? = some c) (hstarts : Starts c) (text : String) :
    Tidy (Line.render [code field, quoted text, code ","]).toList [] := by
  refine tidy_of_lineNesting (c := c) (d := ',') ?_ (head?_render rfl hc) hstarts
    (getLast?_render (x := code ",") rfl rfl) (by decide)
  rw [lineNesting_cons, pieceNesting, Layout.nesting_of_inert hfield]
  rfl

theorem exists_head?_functionName (name : String) :
    ∃ c, (functionName name).toList.head? = some c ∧ Starts c := by
  rw [functionName, String.toList_ofList]
  cases h : functionChars name.toList with
  | nil => exact absurd h (functionChars_ne_nil _)
  | cons c r =>
    refine ⟨c, rfl, starts_of_isNameChar (isNameChar_of_mem_functionChars (s := name.toList) ?_)⟩
    rw [h]
    exact List.mem_cons_self

theorem inert_scenarioFunction (e : Environment) (s : Plan.Scenario) :
    Inert (scenarioFunction e s) :=
  Inert.functionName _

theorem tidy_entryOpening (e : Environment) (s : Plan.Scenario) :
    Tidy (Line.render [code (scenarioFunction e s ++ ": \x7b")]).toList ['{'] := by
  obtain ⟨c, hc, hstarts⟩ := exists_head?_functionName (e.substitute s.name)
  refine tidy_of_lineNesting (c := c) (d := '{') ?_ (head?_render rfl (head?_toList_append hc _))
    hstarts (getLast?_render rfl (getLast?_toList_append _ rfl)) (by decide)
  rw [lineNesting_cons, pieceNesting, nesting_append_of_inert (inert_scenarioFunction e s)]
  rfl

theorem tidy_functionOpening (e : Environment) (s : Plan.Scenario) :
    Tidy (Line.render [code ("export function " ++ scenarioFunction e s ++ "() \x7b")]).toList
      ['{'] := by
  have hstart : Inert ("export function " ++ scenarioFunction e s) :=
    (show Inert "export function " by decide).append (inert_scenarioFunction e s)
  refine tidy_of_lineNesting (c := 'e') (d := '{') ?_
    (head?_render rfl (head?_toList_append (head?_toList_append rfl _) _)) (by decide)
    (getLast?_render rfl (getLast?_toList_append _ rfl)) (by decide)
  rw [lineNesting_cons, pieceNesting, nesting_append_of_inert hstart]
  rfl

/-- A line of code that is always the same. -/
theorem tidy_code {s : String} {stack : List Char} {c d : Char}
    (hnesting : nesting [] s.toList = some stack) (hfirst : s.toList.head? = some c)
    (hc : Starts c) (hlast : s.toList.getLast? = some d)
    (hd : Text.isBlank d = false ∧ Layout.isOpener d = !stack.isEmpty) :
    Tidy (Line.render [code s]).toList stack := by
  refine tidy_of_lineNesting ?_ (head?_render rfl hfirst) hc (getLast?_render rfl hlast) hd
  rw [lineNesting_cons, pieceNesting, hnesting]
  rfl

theorem closes_code {s : String} {stack : List Char} (tail : List Char)
    (hstack : stack.all Layout.isOpener = true)
    (htext : s.toList = stack.map Layout.closerOf ++ tail)
    (htail : tail.all (fun c => c = ';' || c = ',') = true) :
    Closes (Line.render [code s]).toList stack := by
  refine ⟨List.all_eq_true.mp hstack, tail, ?_, fun c hc => ?_⟩
  · rw [← htext]
    simp [toList_render, Piece.render]
  · have hc := List.all_eq_true.mp htail c hc
    simpa using hc

/-! ## The kinds of lines -/

/-- The lines that steps are written as. -/
inductive StepLine (e : Environment) : Line → Prop
  | blank : StepLine e []
  | request (c : Plan.Call) : StepLine e (requestPieces e c ++ [code ";"])
  | groupOpening (name : String) :
      StepLine e [code "group(", quoted name, code ", () => \x7b"]
  | response (c : Plan.Call) :
      StepLine e ([code "response = "] ++ requestPieces e c ++ [code ";"])
  | checkOpening : StepLine e [code "check(response, \x7b"]
  | assertion (a : Plan.Assertion) : StepLine e (assertionLine e a)
  | closing : StepLine e [code "\x7d);"]
  | sleep (x : Float) : StepLine e [code ("sleep(" ++ Decimal.plainText x ++ ");")]

/-- The lines that the options of a scenario are written as. -/
inductive OptionLine (e : Environment) : Line → Prop
  | opening (s : Plan.Scenario) : OptionLine e [code (scenarioFunction e s ++ ": \x7b")]
  | executor (kind : String) : OptionLine e [code "executor: ", quoted kind, code ","]
  | vus (n : Nat) : OptionLine e [code ("vus: " ++ toString n ++ ",")]
  | duration (text : String) : OptionLine e [code "duration: ", quoted text, code ","]
  | startVus (n : Nat) : OptionLine e [code ("startVUs: " ++ toString n ++ ",")]
  | stagesOpening : OptionLine e [code "stages: ["]
  | stage (s : Stage) : OptionLine e (stageLine e s)
  | stagesClosing : OptionLine e [code "],"]
  | exec (function : String) : OptionLine e [code "exec: ", quoted function, code ","]
  | closing : OptionLine e [code "\x7d,"]

mutual

theorem stepLine_of_mem_stepLines (e : Environment) : ∀ s : Plan.Step,
    ∀ l ∈ stepLines e s, StepLine e l
  | .request c => by
    rw [stepLines, List.forall_mem_singleton]
    exact .request c
  | .group name steps => by
    rw [stepLines, List.forall_mem_append, List.forall_mem_append, List.forall_mem_singleton,
      List.forall_mem_singleton]
    exact ⟨⟨.groupOpening _, stepLine_of_mem_stepsLines e steps⟩, .closing⟩
  | .check target as => by
    rw [stepLines, List.forall_mem_append, List.forall_mem_append, List.forall_mem_cons,
      List.forall_mem_singleton, List.forall_mem_singleton, List.forall_mem_map]
    exact ⟨⟨⟨.response target, .checkOpening⟩, fun a _ => .assertion a⟩, .closing⟩
  | .sleep x => by
    rw [stepLines, List.forall_mem_singleton]
    exact .sleep x

theorem stepLine_of_mem_stepsLines (e : Environment) : ∀ steps : List Plan.Step,
    ∀ l ∈ stepsLines e steps, StepLine e l
  | [] => by
    rw [stepsLines]
    exact List.forall_mem_nil _
  | s :: r => by
    rw [stepsLines, List.forall_mem_append, List.forall_mem_cons]
    exact ⟨⟨.blank, stepLine_of_mem_stepLines e s⟩, stepLine_of_mem_stepsLines e r⟩

end

theorem optionLine_of_mem_executorLines (e : Environment) (x : Executor) :
    ∀ l ∈ executorLines e x, OptionLine e l := by
  cases x with
  | constant vus duration =>
    simp only [executorLines, List.forall_mem_cons]
    exact ⟨.executor _, .vus _, .duration _, List.forall_mem_nil _⟩
  | ramping startVus stages =>
    have hstart : ∀ l ∈ startLines startVus, OptionLine e l := by
      cases startVus with
      | none => exact List.forall_mem_nil _
      | some n => exact List.forall_mem_singleton.mpr (.startVus _)
    simp only [executorLines, List.forall_mem_append, List.forall_mem_singleton,
      List.forall_mem_map]
    exact ⟨⟨⟨⟨.executor _, hstart⟩, .stagesOpening⟩, fun s _ => .stage s⟩, .stagesClosing⟩

theorem optionLine_of_mem_optionLines (e : Environment) (s : Plan.Scenario) :
    ∀ l ∈ optionLines e s, OptionLine e l := by
  simp only [optionLines, List.forall_mem_append, List.forall_mem_cons]
  exact ⟨⟨⟨.opening s, List.forall_mem_nil _⟩, optionLine_of_mem_executorLines e s.executor⟩,
    .exec _, .closing, List.forall_mem_nil _⟩

end Script
end LoadTest

import LoadTest.Proofs.Layout.Outline
import LoadTest.Proofs.Script.Declarations
import LoadTest.Proofs.Script.Literals

/-!
The functions of a script.

The options of a script have an entry for each scenario, which names the function to run, and the
script exports that function.  Entries and functions come in the order of the scenarios, no two have
the same name, and in each function are the steps of its own scenario.
-/

namespace LoadTest
namespace Script

open Piece (code quoted)
open Layout (Doc Outline outlineAll outlinesOf outlineLines shownAll)

/-! ## Reading options and functions -/

/-- What is nested behind lines that read `opening`. -/
def nestedIn (opening : String) (os : List Outline) : List Outline :=
  os.flatMap fun o => if o.first = opening.toList then o.body else []

/-- The entries of `options.scenarios`. -/
def scenarioEntries (script : String) : List Outline :=
  nestedIn "scenarios: \x7b" (nestedIn "export const options = \x7b" (outlinesOf script))

/-- The key of an entry: what stands before its colon. -/
def keyOf (entry : Outline) : String :=
  String.ofList (entry.first.takeWhile (· ≠ ':'))

/-- The text that a field `exec` has for its value. -/
def execValue? (field : Outline) : Option String := do
  let rest ← Json.word? "exec: \"" field.first
  let (value, _) ← literal? rest
  return String.ofList value

def execValues (entry : Outline) : List String :=
  entry.body.filterMap execValue?

/-- A function that a script exports, with the lines in it. -/
structure Function where
  name : String
  body : List (List Char)

def function? (o : Outline) : Option Function := do
  let rest ← Json.word? "export function " o.first
  return ⟨String.ofList (rest.takeWhile (· ≠ '(')), outlineLines o.body⟩

def exportedFunctions (script : String) : List Function :=
  (outlinesOf script).filterMap function?

/-- The lines of the function of a scenario with these steps. -/
def bodyLines (e : Environment) (steps : List Plan.Step) : List (List Char) :=
  "let response = null;".toList :: ((stepsLines e steps).map chars).filter (· ≠ [])

/-! ## Lines -/

theorem word?_append (w : String) (r : List Char) : Json.word? w (w.toList ++ r) = some r :=
  List.isPrefixOf?_eq_some_iff_append_eq.mpr rfl

/-- A word is found only where the text starts as the word does. -/
theorem word?_of_take_ne {w : String} {s : List Char} (n : Nat) (hn : n ≤ w.toList.length)
    (h : w.toList.take n ≠ s.take n) : Json.word? w s = none := by
  cases hword : Json.word? w s with
  | none => rfl
  | some r =>
    have hs : w.toList ++ r = s := List.isPrefixOf?_eq_some_iff_append_eq.mp hword
    exact absurd (by rw [← hs, List.take_append_of_le_length hn]) h

theorem chars_cons (x : Piece) (l : Line) : chars (x :: l) = x.render.toList ++ chars l := by
  rw [chars, toList_render, List.flatMap_cons, chars, toList_render]

theorem takeWhile_scenarioFunction {e : Environment} {s : Plan.Scenario} {c : Char}
    (hc : isNameChar c = false) (r : List Char) :
    ((scenarioFunction e s).toList ++ c :: r).takeWhile (· ≠ c) = (scenarioFunction e s).toList := by
  have hname : ∀ d ∈ (scenarioFunction e s).toList, decide (d ≠ c) = true := by
    intro d hd
    have hd := isNameChar_of_mem_scenarioFunction hd
    rw [decide_eq_true_eq]
    rintro rfl
    rw [hc] at hd
    cases hd
  rw [List.takeWhile_append_of_pos hname, List.takeWhile_cons_of_neg (by simp), List.append_nil]

/-! ## Entries -/

theorem keyOf_entryDoc (e : Environment) (s : Plan.Scenario) :
    keyOf (entryDoc e s).outline = scenarioFunction e s := by
  have hfirst : (entryDoc e s).outline.first =
      (scenarioFunction e s).toList ++ ':' :: [' ', '{'] := by
    show chars [code (scenarioFunction e s ++ ": \x7b")] = _
    rw [chars_cons, Piece.render, String.toList_append, List.append_assoc]
    rfl
  rw [keyOf, hfirst, takeWhile_scenarioFunction rfl, String.ofList_toList]

theorem execValue?_exec (function : String) :
    execValue? (.line (chars [code "exec: ", quoted function, code ","])) = some function := by
  have hfirst : chars [code "exec: ", quoted function, code ","] =
      "exec: \"".toList ++ (Json.escape function.toList ++ '"' :: [',']) := by
    rw [chars_cons, chars_cons, chars_cons, Piece.render, Piece.render, Piece.render, Json.quote,
      String.toList_ofList]
    simp
    rfl
  rw [execValue?, Outline.first, hfirst, word?_append]
  show (do let (value, _) ← literal? _; return String.ofList value) = _
  rw [literal?_escape]
  exact congrArg some String.ofList_toList

/-- A field with another first letter, or another one behind `exec`, names no function to run. -/
theorem execValue?_of_first {o : Outline} {s t : String} {l : Line} (n : Nat)
    (ho : o.first = chars (code (s ++ t) :: l))
    (hn : n ≤ "exec: \"".toList.length ∧ n ≤ s.toList.length := by decide)
    (h : "exec: \"".toList.take n ≠ s.toList.take n := by decide) : execValue? o = none := by
  have hfirst : o.first.take n = s.toList.take n := by
    rw [ho, chars_cons, Piece.render, String.toList_append, List.append_assoc,
      List.take_append_of_le_length hn.2]
  rw [execValue?, word?_of_take_ne n hn.1 (hfirst ▸ h)]
  rfl

theorem execValue?_executorDocs (e : Environment) (x : Executor) :
    ∀ d ∈ executorDocs e x, execValue? d.outline = none := by
  have hkind (kind : String) :
      execValue? (.line (chars [code "executor: ", quoted kind, code ","])) = none :=
    execValue?_of_first (s := "execu") (t := "tor: ") 5 rfl
  cases x with
  | constant vus duration =>
    simp only [executorDocs, List.forall_mem_cons]
    refine ⟨hkind _, ?_, execValue?_of_first (s := "duration: ") (t := "") 1 rfl,
      List.forall_mem_nil _⟩
    show execValue? (.line (chars [code ("vus: " ++ toString vus.toNat ++ ",")])) = none
    rw [String.append_assoc]
    exact execValue?_of_first 1 rfl
  | ramping startVus stages =>
    have hstart : ∀ d ∈ (startLines startVus).map fun l => Doc.line false (chars l),
        execValue? d.outline = none := by
      cases startVus with
      | none => exact List.forall_mem_nil _
      | some n =>
        rw [startLines, List.map_singleton, List.forall_mem_singleton]
        show execValue? (.line (chars [code ("startVUs: " ++ toString n.toNat ++ ",")])) = none
        rw [String.append_assoc]
        exact execValue?_of_first 1 rfl
    simp only [executorDocs, List.forall_mem_cons, List.forall_mem_append]
    exact ⟨hkind _, hstart, execValue?_of_first (s := "stages: [") (t := "") 1 rfl,
      List.forall_mem_nil _⟩

theorem execValues_entryDoc (e : Environment) (s : Plan.Scenario) :
    execValues (entryDoc e s).outline = [scenarioFunction e s] := by
  have hbody : (entryDoc e s).outline.body =
      (executorDocs e s.executor).map Doc.outline ++
        [.line (chars [code "exec: ", quoted (scenarioFunction e s), code ","])] := by
    rw [← Layout.outlineAll_eq_map]
    exact Layout.outlineAll_append _ _
  have hexecutor : ((executorDocs e s.executor).map Doc.outline).filterMap execValue? = [] := by
    rw [List.filterMap_eq_nil_iff, List.forall_mem_map]
    exact execValue?_executorDocs e s.executor
  rw [execValues, hbody, List.filterMap_append, hexecutor, List.nil_append, List.filterMap_cons,
    execValue?_exec]
  rfl

/-! ## Functions -/

theorem first_functionDoc (e : Environment) (s : Plan.Scenario) :
    (functionDoc e s).outline.first = "export function ".toList ++
      ((scenarioFunction e s).toList ++ '(' :: [')', ' ', '{']) := by
  show chars [code ("export function " ++ scenarioFunction e s ++ "() \x7b")] = _
  rw [chars_cons, Piece.render, String.toList_append, String.toList_append, List.append_assoc,
    List.append_assoc]
  rfl

theorem function?_functionDoc (e : Environment) (s : Plan.Scenario) :
    function? (functionDoc e s).outline = some ⟨scenarioFunction e s, bodyLines e s.steps⟩ := by
  have hbody : outlineLines (functionDoc e s).outline.body = bodyLines e s.steps := by
    have hgood : ∀ d ∈ Doc.line false (chars [code "let response = null;"]) :: stepsDocs e s.steps,
        d.Good := List.forall_mem_cons.mpr ⟨.line tidy_letResponse, good_stepsDocs e s.steps⟩
    show outlineLines (outlineAll (_ :: stepsDocs e s.steps)) = _
    rw [Layout.outlineLines_outlineAll _ hgood, Layout.linesAll, linesAll_stepsDocs]
    rfl
  rw [function?, first_functionDoc, word?_append, hbody]
  show some (Function.mk (String.ofList (List.takeWhile _ _)) _) = _
  rw [takeWhile_scenarioFunction rfl, String.ofList_toList]

/-! ## Scripts -/

theorem outlinesOf_pretty (width : Nat) (e : Environment) (p : Plan) :
    outlinesOf (p.pretty width e) =
      .line (chars importLine) :: outlineAll (scriptDocs e p) := by
  have hgood : ∀ d ∈ Doc.line false (chars importLine) :: scriptDocs e p, d.Good :=
    List.forall_mem_cons.mpr ⟨.line tidy_importLine, good_scriptDocs e p⟩
  have hshown : shownAll width true 0 false (.line false (chars importLine) :: scriptDocs e p) =
      chars importLine :: shownAll width true 0 false (scriptDocs e p) := by
    rw [shownAll, Doc.shown, Layout.indented_zero]
    rfl
  rw [Plan.pretty_eq_unlines, ← hshown, Layout.outlinesOf_shownAll hgood]
  rfl

theorem nestedIn_line (opening : String) (text : List Char) (os : List Outline) :
    nestedIn opening (.line text :: os) = nestedIn opening os := by
  rw [nestedIn, List.flatMap_cons, Outline.body, ite_self]
  rfl

theorem nestedIn_nest (opening : String) (body : List Outline) (closing : List Char)
    (os : List Outline) :
    nestedIn opening (.nest (chars [code opening]) body closing :: os) =
      body ++ nestedIn opening os := by
  have hfirst : chars [code opening] = opening.toList := by
    rw [chars_cons, Piece.render]
    exact List.append_nil _
  rw [nestedIn, List.flatMap_cons, Outline.first, if_pos hfirst]
  rfl

/-- The entries of the options are those of the scenarios. -/
theorem scenarioEntries_pretty (width : Nat) (e : Environment) (p : Plan) :
    scenarioEntries (p.pretty width e) = p.scenarios.map fun s => (entryDoc e s).outline := by
  have hfunctions : nestedIn "export const options = \x7b"
      ((p.scenarios.map (functionDoc e)).map Doc.outline) = [] := by
    rw [nestedIn, List.flatMap_eq_nil_iff, List.forall_mem_map, List.forall_mem_map]
    intro s _
    refine if_neg fun hfirst => ?_
    rw [first_functionDoc] at hfirst
    have htake := congrArg (List.take 8) hfirst
    rw [List.take_append_of_le_length (by decide)] at htake
    exact absurd htake (by decide)
  have hoptions : nestedIn "export const options = \x7b" (outlinesOf (p.pretty width e)) =
      [.nest (chars [code "scenarios: \x7b"]) (outlineAll (p.scenarios.map (entryDoc e)))
        (chars [code "\x7d,"])] := by
    rw [outlinesOf_pretty, nestedIn_line, scriptDocs, outlineAll, outlineAll, Doc.outline,
      nestedIn_line, Doc.outline, nestedIn_nest, Layout.outlineAll_eq_map (List.map _ _),
      hfunctions, List.append_nil]
    rfl
  rw [scenarioEntries, hoptions, nestedIn_nest, Layout.outlineAll_eq_map, List.map_map]
  exact List.append_nil _

/-- The functions that are exported are those of the scenarios. -/
theorem exportedFunctions_pretty (width : Nat) (e : Environment) (p : Plan) :
    exportedFunctions (p.pretty width e) =
      p.scenarios.map fun s => ⟨scenarioFunction e s, bodyLines e s.steps⟩ := by
  have himport : function? (.line (chars importLine)) = none := rfl
  have himports : function? (.line (chars [code "import \x7b check, group, sleep \x7d from ",
      quoted "k6", code ";"])) = none := rfl
  have hoptions (body : List Outline) (closing : List Char) :
      function? (.nest (chars [code "export const options = \x7b"]) body closing) = none := rfl
  have hfunctions : ((p.scenarios.map (functionDoc e)).map Doc.outline).filterMap function? =
      p.scenarios.map fun s => ⟨scenarioFunction e s, bodyLines e s.steps⟩ := by
    rw [List.filterMap_map, List.filterMap_map, ← List.filterMap_eq_map]
    exact List.filterMap_congr fun s _ => function?_functionDoc e s
  rw [exportedFunctions, outlinesOf_pretty, scriptDocs, outlineAll, outlineAll, Doc.outline,
    Doc.outline, List.filterMap_cons_none himport, List.filterMap_cons_none himports,
    List.filterMap_cons_none (hoptions _ _), Layout.outlineAll_eq_map, hfunctions]

end Script

namespace Test

open Script (functionName scenarioEntries keyOf execValues exportedFunctions bodyLines)

/-- The function names of the scenarios of a test, in the order of its roots. -/
def functionNames (e : Environment) (t : Test) : List String :=
  (t.scenarioNames.map e.substitute).map functionName

/-- A complete test is compiled if its functions have different names. -/
theorem exists_script_of_complete (config : Config) {e : Environment} {t : Test} {c : Complete.Test}
    (hc : t.complete = .ok c) (h : (t.functionNames e).Nodup) :
    ∃ script, (t.compile config e).result = .ok script := by
  have hclashes : Completeness.nameClashes e.substitute c.scenarios = [] := by
    rw [functionNames, ← names_of_complete hc, List.map_map, List.map_map] at h
    exact Completeness.nameClashes_eq_nil_iff.mpr h
  refine ⟨(Plan.ofComplete c).pretty config.indentWidth.toNat e, ?_⟩
  rw [result_compile, hc]
  simp only [hclashes]

/-- In a script that a test compiles to, the keys of the scenarios in the options, the functions
that they name and the functions that are exported are the same names, one for each scenario root in
their order, and no name comes twice.  The function of a root is made of the steps of its block. -/
theorem functions_of_compile {config : Config} {e : Environment} {t : Test} {script : String}
    (h : (t.compile config e).result = .ok script) :
    (scenarioEntries script).map keyOf = t.functionNames e ∧
      (scenarioEntries script).map execValues = (t.functionNames e).map (fun f => [f]) ∧
      (exportedFunctions script).map Script.Function.name = t.functionNames e ∧
      (t.functionNames e).Nodup ∧
      List.Forall₂ (fun r f => ∃ s : Complete.Scenario, s.toBlock = r.block ∧
          f.name = functionName (e.substitute s.name) ∧ f.body = bodyLines e (Plan.stepsOf s.steps))
        t.scenarioRoots (exportedFunctions script) := by
  obtain ⟨c, hc, rfl, hfunctions, hnodup⟩ := exists_complete_of_compile h
  rw [← functionNames] at hfunctions hnodup
  have hentries := Script.scenarioEntries_pretty config.indentWidth.toNat e (Plan.ofComplete c)
  have hexported := Script.exportedFunctions_pretty config.indentWidth.toNat e (Plan.ofComplete c)
  refine ⟨?_, ?_, ?_, hnodup, ?_⟩
  · rw [hentries, List.map_map, ← hfunctions]
    exact List.map_congr_left fun s _ => Script.keyOf_entryDoc e s
  · rw [hentries, List.map_map, ← hfunctions, List.map_map]
    exact List.map_congr_left fun s _ => Script.execValues_entryDoc e s
  · rw [hexported, List.map_map, ← hfunctions]
    rfl
  · rw [hexported, scenarioRoots_of_complete hc, Plan.ofComplete, Complete.Test.scenarios,
      List.forall₂_map_left_iff, List.forall₂_map_right_iff, List.forall₂_map_right_iff,
      List.forall₂_map_right_iff, List.forall₂_same]
    exact fun r _ => ⟨r.scenario, rfl, rfl, rfl⟩

/-- Two scenarios, one of them with a token in its name. -/
def reporting : Test :=
  let load (id : BlockId) := Block.executor id (.constant 1 "1m")
  let send := Block.request "p" ⟨"Send", "post", "/", [], []⟩ none
  ⟨Library.empty, [⟨⟨0, 0⟩, .scenario "r" "Read \x7b\x7bwhat\x7d\x7d" (some (load "x")) none⟩,
    ⟨⟨0, 200⟩, .scenario "w" "Write" (some (load "y")) (some send)⟩]⟩

def books : Environment :=
  (Environment.new "").withVariable "what" "books"

theorem functions_of_compile_reporting : ∃ script,
    (reporting.compile Config.default books).result = .ok script ∧
      (scenarioEntries script).map keyOf = ["readBooks", "write"] ∧
      (scenarioEntries script).map execValues = [["readBooks"], ["write"]] ∧
      (exportedFunctions script).map Script.Function.name = ["readBooks", "write"] := by
  have hfunctions : reporting.functionNames books = ["readBooks", "write"] := by decide +kernel
  obtain ⟨c, hc⟩ : ∃ c, reporting.complete = .ok c := ⟨_, rfl⟩
  have hnodup : (reporting.functionNames books).Nodup := by
    rw [hfunctions]
    decide
  obtain ⟨script, h⟩ := exists_script_of_complete Config.default hc hnodup
  obtain ⟨hkeys, hvalues, hnames, -, -⟩ := functions_of_compile h
  rw [hfunctions] at hkeys hvalues hnames
  exact ⟨script, h, hkeys, hvalues, hnames⟩

end Test
end LoadTest

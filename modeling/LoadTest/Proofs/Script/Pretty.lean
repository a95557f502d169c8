import LoadTest.Compilation
import LoadTest.Proofs.Script.Nested

/-!
The layout of a script, written down directly.

`Plan.pretty` prints a plan line by line, each behind the indents of the part of the script that it
is in.  It does not look at brackets, and laying out the script comes to the same.
-/

namespace LoadTest
namespace Script

open Piece (code quoted)
open Layout (Doc shownAll indented blankIf)

/-! ## Printing -/

/-- A line behind the indents of its level. -/
def rowAt (width level : Nat) (l : Line) : String :=
  String.ofList (List.replicate (level * width) ' ') ++ l.render

mutual

def stepRows (width : Nat) (e : Environment) (level : Nat) : Plan.Step → List String
  | .request c => [rowAt width level (requestPieces e c ++ [code ";"])]
  | .group name steps =>
    rowAt width level [code "group(", quoted (e.substitute name), code ", () => \x7b"] ::
      (nestedRows width e (level + 1) steps ++ [rowAt width level [code "\x7d);"]])
  | .check target as =>
    rowAt width level ([code "response = "] ++ requestPieces e target ++ [code ";"]) ::
      rowAt width level [code "check(response, \x7b"] ::
        (as.map (fun a => rowAt width (level + 1) (assertionLine e a)) ++
          [rowAt width level [code "\x7d);"]])
  | .sleep x => [rowAt width level [code ("sleep(" ++ Decimal.plainText x ++ ");")]]

/-- The steps of a group, with a blank line before each but the first. -/
def nestedRows (width : Nat) (e : Environment) (level : Nat) : List Plan.Step → List String
  | [] => []
  | s :: r => stepRows width e level s ++ spacedRows width e level r

/-- Steps with a blank line before each. -/
def spacedRows (width : Nat) (e : Environment) (level : Nat) : List Plan.Step → List String
  | [] => []
  | s :: r => "" :: (stepRows width e level s ++ spacedRows width e level r)

end

def executorRows (width : Nat) (e : Environment) : Executor → List String
  | .constant vus duration =>
    [rowAt width 3 [code "executor: ", quoted "constant-vus", code ","],
      rowAt width 3 [code ("vus: " ++ toString vus.toNat ++ ",")],
      rowAt width 3 [code "duration: ", quoted (e.substitute duration), code ","]]
  | .ramping startVus stages =>
    rowAt width 3 [code "executor: ", quoted "ramping-vus", code ","] ::
      ((startLines startVus).map (rowAt width 3) ++ rowAt width 3 [code "stages: ["] ::
        (stages.map (fun s => rowAt width 4 (stageLine e s)) ++ [rowAt width 3 [code "],"]]))

def entryRows (width : Nat) (e : Environment) (s : Plan.Scenario) : List String :=
  rowAt width 2 [code (scenarioFunction e s ++ ": \x7b")] ::
    (executorRows width e s.executor ++
      [rowAt width 3 [code "exec: ", quoted (scenarioFunction e s), code ","],
        rowAt width 2 [code "\x7d,"]])

def functionRows (width : Nat) (e : Environment) (s : Plan.Scenario) : List String :=
  "" :: rowAt width 0 [code ("export function " ++ scenarioFunction e s ++ "() \x7b")] ::
    rowAt width 1 [code "let response = null;"] ::
      (spacedRows width e 1 s.steps ++ [rowAt width 0 [code "\x7d"]])

def scriptRows (width : Nat) (e : Environment) (p : Plan) : List String :=
  [rowAt width 0 importLine,
    rowAt width 0 [code "import \x7b check, group, sleep \x7d from ", quoted "k6", code ";"], "",
    rowAt width 0 [code "export const options = \x7b"], rowAt width 1 [code "scenarios: \x7b"]] ++
    p.scenarios.flatMap (entryRows width e) ++
    [rowAt width 1 [code "\x7d,"], rowAt width 0 [code "\x7d;"]] ++
    p.scenarios.flatMap (functionRows width e)

end Script

/-- The script of `p` in the environment `e`, printed with indents of the given width. -/
def Plan.pretty (width : Nat) (e : Environment) (p : Plan) : String :=
  String.join ((Script.scriptRows width e p).map (· ++ "\n"))

namespace Script

open Piece (code quoted)
open Layout (Doc shownAll indented blankIf)

/-! ## The document of a script, laid out -/

theorem toList_rowAt {l : Line} (h : chars l ≠ []) (width level : Nat) :
    (rowAt width level l).toList = indented width level (chars l) := by
  rw [rowAt, String.toList_append, String.toList_ofList, indented, if_neg h, chars]

theorem map_toList_rowAt {α : Type} {f : α → Line} (h : ∀ x, chars (f x) ≠ [])
    (width level : Nat) (xs : List α) :
    (xs.map fun x => rowAt width level (f x)).map String.toList =
      xs.map fun x => indented width level (chars (f x)) := by
  rw [List.map_map]
  exact List.map_congr_left fun x _ => toList_rowAt (h x) width level

mutual

/-- The first line of a step has a blank line before it unless it is `first`. -/
theorem shownAll_stepDocs (width : Nat) (e : Environment) : ∀ (s : Plan.Step) (level : Nat)
    (first : Bool), shownAll width true level first (stepDocs e s) =
      blankIf (!first) ++ (stepRows width e level s).map String.toList
  | .request c, level, first => by
    have hrow := toList_rowAt (tidy_request e c).ne_nil width level
    rw [stepRows, List.map_singleton, hrow]
    simp [stepDocs, shownAll, Doc.shown]
  | .group name steps, level, first => by
    have hopening := toList_rowAt (tidy_groupOpening (e.substitute name)).ne_nil width level
    have hclosing := toList_rowAt (closes_call.ne_nil (List.cons_ne_nil _ _)) width level
    rw [stepRows, List.map_cons, List.map_append, List.map_singleton, hopening, hclosing,
      ← shownAll_nested width e steps (level + 1)]
    simp [stepDocs, shownAll, Doc.shown]
  | .check target as, level, first => by
    have hresponse := toList_rowAt (tidy_response e target).ne_nil width level
    have hopening := toList_rowAt tidy_checkOpening.ne_nil width level
    have hentries := map_toList_rowAt (fun a => (tidy_assertion e a).ne_nil) width (level + 1) as
    have hclosing := toList_rowAt (closes_call.ne_nil (List.cons_ne_nil _ _)) width level
    rw [stepRows, List.map_cons, List.map_cons, List.map_append, List.map_singleton, hresponse,
      hopening, hentries, hclosing]
    simp [stepDocs, shownAll, Doc.shown, blankIf, Layout.shownAll_lines]
  | .sleep x, level, first => by
    have hrow := toList_rowAt (tidy_sleep x).ne_nil width level
    rw [stepRows, List.map_singleton, hrow]
    simp [stepDocs, shownAll, Doc.shown]

theorem shownAll_nested (width : Nat) (e : Environment) : ∀ (steps : List Plan.Step) (level : Nat),
    shownAll width true level true (stepsDocs e steps) =
      (nestedRows width e level steps).map String.toList
  | [], level => rfl
  | s :: r, level => by
    rw [stepsDocs, Layout.shownAll_append, shownAll_stepDocs width e s level, Bool.true_and,
      isEmpty_stepDocs, shownAll_spaced width e r level, nestedRows, List.map_append]
    rfl

theorem shownAll_spaced (width : Nat) (e : Environment) : ∀ (steps : List Plan.Step) (level : Nat),
    shownAll width true level false (stepsDocs e steps) =
      (spacedRows width e level steps).map String.toList
  | [], level => rfl
  | s :: r, level => by
    rw [stepsDocs, Layout.shownAll_append, shownAll_stepDocs width e s level, Bool.false_and,
      shownAll_spaced width e r level, spacedRows, List.map_cons, List.map_append]
    rfl

end

theorem map_toList_startRows (width level : Nat) (startVus : Option UInt32) :
    ((startLines startVus).map (rowAt width level)).map String.toList =
      (startLines startVus).map fun l => indented width level (chars l) := by
  cases startVus with
  | none => rfl
  | some n =>
    have hrow := toList_rowAt (tidy_startVus n.toNat).ne_nil width level
    simp only [startLines, List.map_cons, List.map_nil, hrow]

theorem shownAll_executorDocs (width : Nat) (e : Environment) (x : Executor) (first : Bool) :
    shownAll width true 3 first (executorDocs e x) =
      (executorRows width e x).map String.toList := by
  cases x with
  | constant vus duration =>
    have hkind := toList_rowAt (tidy_executor "constant-vus").ne_nil width 3
    have hvus := toList_rowAt (tidy_vus vus.toNat).ne_nil width 3
    have hduration := toList_rowAt (tidy_duration (e.substitute duration)).ne_nil width 3
    rw [executorRows, List.map_cons, List.map_cons, List.map_singleton, hkind, hvus, hduration]
    rfl
  | ramping startVus stages =>
    have hkind := toList_rowAt (tidy_executor "ramping-vus").ne_nil width 3
    have hopening := toList_rowAt tidy_stages.ne_nil width 3
    have hstages := map_toList_rowAt (fun s => (tidy_stage e s).ne_nil) width 4 stages
    have hclosing := toList_rowAt (closes_stages.ne_nil (List.cons_ne_nil _ _)) width 3
    rw [executorRows, List.map_cons, List.map_append, map_toList_startRows, List.map_cons,
      List.map_append, List.map_singleton, hkind, hopening, hstages, hclosing]
    simp [executorDocs, shownAll, Doc.shown, blankIf, Layout.shownAll_append, Layout.shownAll_lines]

theorem shown_entryDoc (width : Nat) (e : Environment) (s : Plan.Scenario) (first : Bool) :
    (entryDoc e s).shown width true 2 first = (entryRows width e s).map String.toList := by
  have hopening := toList_rowAt (tidy_entryOpening e s).ne_nil width 2
  have hexec := toList_rowAt (tidy_exec (scenarioFunction e s)).ne_nil width 3
  have hclosing := toList_rowAt (closes_field.ne_nil (List.cons_ne_nil _ _)) width 2
  rw [entryRows, List.map_cons, List.map_append, List.map_cons, List.map_singleton,
    hopening, hexec, hclosing, ← shownAll_executorDocs width e s.executor true]
  simp [entryDoc, shownAll, Doc.shown, blankIf, Layout.shownAll_append]

theorem shown_functionDoc (width : Nat) (e : Environment) (s : Plan.Scenario) :
    (functionDoc e s).shown width true 0 false = (functionRows width e s).map String.toList := by
  have hopening := toList_rowAt (tidy_functionOpening e s).ne_nil width 0
  have hresponse := toList_rowAt tidy_letResponse.ne_nil width 1
  have hclosing := toList_rowAt (closes_function.ne_nil (List.cons_ne_nil _ _)) width 0
  rw [functionRows, List.map_cons, List.map_cons, List.map_cons, List.map_append,
    List.map_singleton, hopening, hresponse, hclosing, ← shownAll_spaced]
  simp [functionDoc, shownAll, Doc.shown, blankIf]

theorem shownAll_entryDocs (width : Nat) (e : Environment) (ss : List Plan.Scenario)
    (first : Bool) :
    shownAll width true 2 first (ss.map (entryDoc e)) =
      (ss.flatMap (entryRows width e)).map String.toList := by
  induction ss generalizing first with
  | nil => rfl
  | cons s ss ih =>
    rw [List.map_cons, shownAll, shown_entryDoc, ih, List.flatMap_cons, List.map_append]

theorem shownAll_functionDocs (width : Nat) (e : Environment) (ss : List Plan.Scenario) :
    shownAll width true 0 false (ss.map (functionDoc e)) =
      (ss.flatMap (functionRows width e)).map String.toList := by
  induction ss with
  | nil => rfl
  | cons s ss ih =>
    rw [List.map_cons, shownAll, shown_functionDoc, ih, List.flatMap_cons, List.map_append]

theorem shownAll_scriptDocs (width : Nat) (e : Environment) (p : Plan) :
    chars importLine :: shownAll width true 0 false (scriptDocs e p) =
      (scriptRows width e p).map String.toList := by
  have himport : (rowAt width 0 importLine).toList = chars importLine := by
    rw [toList_rowAt tidy_importLine.ne_nil, Layout.indented_zero]
  have hfunctions := toList_rowAt tidy_importFunctions.ne_nil width 0
  have hoptions := toList_rowAt tidy_options.ne_nil width 0
  have hscenarios := toList_rowAt tidy_scenarios.ne_nil width 1
  have hfield := toList_rowAt (closes_field.ne_nil (List.cons_ne_nil _ _)) width 1
  have hend := toList_rowAt (closes_options.ne_nil (List.cons_ne_nil _ _)) width 0
  simp only [scriptRows, List.map_append, List.map_cons, List.map_nil, himport, hfunctions,
    hoptions, hscenarios, hfield, hend, ← shownAll_entryDocs width e p.scenarios true,
    ← shownAll_functionDocs]
  simp [scriptDocs, shownAll, Doc.shown, blankIf]

theorem unlines_rows (rows : List String) :
    String.ofList (Layout.unlines (rows.map String.toList)) =
      String.join (rows.map (· ++ "\n")) := by
  refine String.toList_injective ?_
  rw [String.toList_ofList, String.toList_join, Layout.unlines, List.flatMap_map, List.flatMap_map]
  simp only [String.toList_append]
  rfl

end Script

/-! ## Laying out a script -/

open Script in
theorem Plan.pretty_eq_unlines (width : Nat) (e : Environment) (p : Plan) :
    p.pretty width e = String.ofList (Layout.unlines
      (chars importLine :: Layout.shownAll width true 0 false (scriptDocs e p))) := by
  rw [shownAll_scriptDocs, unlines_rows, Plan.pretty]

open Script in
theorem Plan.layout_script (width : Nat) (e : Environment) (p : Plan) :
    layout width (p.script e) = .ok (p.pretty width e) := by
  have hscript : p.script e =
      String.ofList (Layout.unlines (chars importLine :: Layout.linesAll (scriptDocs e p))) := by
    rw [← lines_scriptDocs, ← toList_renderLines, String.ofList_toList, Plan.script]
  rw [hscript, Layout.layout_docs width tidy_importLine (good_scriptDocs e p), pretty_eq_unlines]

namespace Test

theorem result_compile (config : Config) (e : Environment) (t : Test) :
    (t.compile config e).result =
      match t.complete with
      | .error issues => .error (.incomplete issues)
      | .ok c =>
        match Completeness.nameClashes e.substitute c.scenarios with
        | [] => .ok ((Plan.ofComplete c).pretty config.indentWidth.toNat e)
        | clashes => .error (.incomplete clashes) := by
  unfold compile compileWith
  cases t.complete with
  | error issues => rfl
  | ok c =>
    simp only
    cases Completeness.nameClashes e.substitute c.scenarios with
    | nil =>
      simp only [Plan.emit, Formatter.builtIn, Plan.layout_script]
      rfl
    | cons issue issues => rfl

/-- Every script can be laid out, so a test that is complete and whose names do not clash is
compiled. -/
theorem compile_pretty :
    (∀ (width : Nat) (e : Environment) (p : Plan),
      layout width (p.script e) = .ok (p.pretty width e)) ∧
    (∀ (config : Config) (e : Environment) (t : Test),
      (t.compile config e).result =
        match t.complete with
        | .error issues => .error (.incomplete issues)
        | .ok c =>
          match Completeness.nameClashes e.substitute c.scenarios with
          | [] => .ok ((Plan.ofComplete c).pretty config.indentWidth.toNat e)
          | clashes => .error (.incomplete clashes)) ∧
    ∀ (config : Config) (e : Environment) (t : Test) (f : FormatError),
      (t.compile config e).result ≠ .error (.format f) := by
  refine ⟨Plan.layout_script, result_compile, fun config e t f => ?_⟩
  rw [result_compile]
  split
  · nofun
  · split <;> nofun

end Test
end LoadTest

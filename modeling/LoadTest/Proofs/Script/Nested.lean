import LoadTest.Proofs.Script.Lines

/-!
The script of a plan as nested lines.

The lines of the script are those of a document whose nests are the groups, checks, scenarios and
functions of the plan, and the lines of each nest fit together.
-/

namespace LoadTest
namespace Script

open Piece (code quoted)
open Layout (Doc linesAll blankIf Tidy Closes)

/-! ## Documents -/

/-- The characters of a line. -/
def chars (l : Line) : List Char :=
  l.render.toList

mutual

def stepDocs (e : Environment) : Plan.Step → List Doc
  | .request c => [.line true (chars (requestPieces e c ++ [code ";"]))]
  | .group name steps =>
    [.nest true (chars [code "group(", quoted (e.substitute name), code ", () => \x7b"])
      (stepsDocs e steps) (chars [code "\x7d);"])]
  | .check target as =>
    [.line true (chars ([code "response = "] ++ requestPieces e target ++ [code ";"])),
      .nest false (chars [code "check(response, \x7b"])
        (as.map fun a => .line false (chars (assertionLine e a))) (chars [code "\x7d);"])]
  | .sleep x => [.line true (chars [code ("sleep(" ++ Decimal.plainText x ++ ");")])]

def stepsDocs (e : Environment) : List Plan.Step → List Doc
  | [] => []
  | s :: r => stepDocs e s ++ stepsDocs e r

end

theorem isEmpty_stepDocs (e : Environment) (s : Plan.Step) : (stepDocs e s).isEmpty = false := by
  cases s <;> rfl

def executorDocs (e : Environment) : Executor → List Doc
  | .constant vus duration =>
    [.line false (chars [code "executor: ", quoted "constant-vus", code ","]),
      .line false (chars [code ("vus: " ++ toString vus.toNat ++ ",")]),
      .line false (chars [code "duration: ", quoted (e.substitute duration), code ","])]
  | .ramping startVus stages =>
    .line false (chars [code "executor: ", quoted "ramping-vus", code ","]) ::
      ((startLines startVus).map (fun l => .line false (chars l)) ++
        [.nest false (chars [code "stages: ["])
          (stages.map fun s => .line false (chars (stageLine e s))) (chars [code "],"])])

def entryDoc (e : Environment) (s : Plan.Scenario) : Doc :=
  .nest false (chars [code (scenarioFunction e s ++ ": \x7b")])
    (executorDocs e s.executor ++
      [.line false (chars [code "exec: ", quoted (scenarioFunction e s), code ","])])
    (chars [code "\x7d,"])

def functionDoc (e : Environment) (s : Plan.Scenario) : Doc :=
  .nest true (chars [code ("export function " ++ scenarioFunction e s ++ "() \x7b")])
    (.line false (chars [code "let response = null;"]) :: stepsDocs e s.steps)
    (chars [code "\x7d"])

/-- The first line of a script. -/
def importLine : Line :=
  [code "import http from ", quoted "k6/http", code ";"]

/-- The script behind its first line. -/
def scriptDocs (e : Environment) (p : Plan) : List Doc :=
  .line false (chars [code "import \x7b check, group, sleep \x7d from ", quoted "k6", code ";"]) ::
    .nest true (chars [code "export const options = \x7b"])
      [.nest false (chars [code "scenarios: \x7b"]) (p.scenarios.map (entryDoc e))
        (chars [code "\x7d,"])]
      (chars [code "\x7d;"]) ::
    p.scenarios.map (functionDoc e)

/-! ## Lines -/

theorem chars_nil : chars [] = [] := rfl

mutual

theorem linesAll_stepDocs (e : Environment) : ∀ s : Plan.Step,
    linesAll (stepDocs e s) = ([] :: stepLines e s).map chars
  | .request c | .sleep x => rfl
  | .group name steps => by
    simp [stepDocs, stepLines, linesAll, Doc.lines, blankIf, chars_nil, linesAll_stepsDocs e steps]
  | .check target as => by
    simp [stepDocs, stepLines, linesAll, Doc.lines, blankIf, chars_nil, Layout.linesAll_lines]

theorem linesAll_stepsDocs (e : Environment) : ∀ steps : List Plan.Step,
    linesAll (stepsDocs e steps) = (stepsLines e steps).map chars
  | [] => rfl
  | s :: r => by
    rw [stepsDocs, Layout.linesAll_append, linesAll_stepDocs e s, linesAll_stepsDocs e r,
      stepsLines, ← List.map_append]

end

theorem linesAll_executorDocs (e : Environment) (x : Executor) :
    linesAll (executorDocs e x) = (executorLines e x).map chars := by
  cases x with
  | constant vus duration => rfl
  | ramping startVus stages =>
    simp [executorDocs, executorLines, linesAll, Doc.lines, blankIf, Layout.linesAll_append,
      Layout.linesAll_lines]

theorem lines_entryDoc (e : Environment) (s : Plan.Scenario) :
    (entryDoc e s).lines = (optionLines e s).map chars := by
  simp [entryDoc, optionLines, linesAll, Doc.lines, blankIf, Layout.linesAll_append,
    linesAll_executorDocs]

theorem lines_functionDoc (e : Environment) (s : Plan.Scenario) :
    (functionDoc e s).lines = (functionLines e s).map chars := by
  simp [functionDoc, functionLines, linesAll, Doc.lines, blankIf, chars_nil, linesAll_stepsDocs]

/-- The script has the lines of its document. -/
theorem lines_scriptDocs (e : Environment) (p : Plan) :
    (lines e p).map chars = chars importLine :: linesAll (scriptDocs e p) := by
  simp [lines, headLines, importLine, scriptDocs, linesAll, Doc.lines, blankIf, chars_nil,
    Layout.linesAll_map, List.map_flatMap, lines_entryDoc, lines_functionDoc]

theorem toList_renderLines (ls : List Line) :
    (renderLines ls).toList = Layout.unlines (ls.map chars) := by
  rw [renderLines, String.toList_join, List.flatMap_map, Layout.unlines, List.flatMap_map]
  simp only [String.toList_append, chars]
  rfl

/-! ## The lines of a nest fit together -/

theorem tidy_importLine : Tidy (chars importLine) [] :=
  tidy_of_lineNesting (c := 'i') (d := ';') rfl rfl (by decide) rfl (by decide)

theorem tidy_importFunctions : Tidy
    (chars [code "import \x7b check, group, sleep \x7d from ", quoted "k6", code ";"]) [] :=
  tidy_of_lineNesting (c := 'i') (d := ';') rfl rfl (by decide) rfl (by decide)

theorem tidy_options : Tidy (chars [code "export const options = \x7b"]) ['{'] :=
  tidy_code (c := 'e') (d := '{') rfl rfl (by decide) rfl (by decide)

theorem closes_options : Closes (chars [code "\x7d;"]) ['{'] :=
  closes_code [';'] rfl rfl rfl

theorem tidy_scenarios : Tidy (chars [code "scenarios: \x7b"]) ['{'] :=
  tidy_code (c := 's') (d := '{') rfl rfl (by decide) rfl (by decide)

theorem closes_field : Closes (chars [code "\x7d,"]) ['{'] :=
  closes_code [','] rfl rfl rfl

theorem tidy_executor (kind : String) :
    Tidy (chars [code "executor: ", quoted kind, code ","]) [] :=
  tidy_field (c := 'e') (by decide) rfl (by decide) kind

theorem tidy_vus (n : Nat) : Tidy (chars [code ("vus: " ++ toString n ++ ",")]) [] :=
  tidy_count (c := 'v') (by decide) rfl (by decide) n

theorem tidy_startVus (n : Nat) : Tidy (chars [code ("startVUs: " ++ toString n ++ ",")]) [] :=
  tidy_count (c := 's') (by decide) rfl (by decide) n

theorem tidy_duration (text : String) :
    Tidy (chars [code "duration: ", quoted text, code ","]) [] :=
  tidy_field (c := 'd') (by decide) rfl (by decide) text

theorem tidy_stages : Tidy (chars [code "stages: ["]) ['['] :=
  tidy_code (c := 's') (d := '[') rfl rfl (by decide) rfl (by decide)

theorem closes_stages : Closes (chars [code "],"]) ['['] :=
  closes_code [','] rfl rfl rfl

theorem tidy_exec (function : String) :
    Tidy (chars [code "exec: ", quoted function, code ","]) [] :=
  tidy_field (c := 'e') (by decide) rfl (by decide) function

theorem tidy_letResponse : Tidy (chars [code "let response = null;"]) [] :=
  tidy_code (c := 'l') (d := ';') rfl rfl (by decide) rfl (by decide)

theorem closes_function : Closes (chars [code "\x7d"]) ['{'] :=
  closes_code [] rfl rfl rfl

theorem tidy_checkOpening : Tidy (chars [code "check(response, \x7b"]) ['{', '('] :=
  tidy_code (c := 'c') (d := '{') rfl rfl (by decide) rfl (by decide)

theorem closes_call : Closes (chars [code "\x7d);"]) ['{', '('] :=
  closes_code [';'] rfl rfl rfl

mutual

theorem good_stepDocs (e : Environment) : ∀ s : Plan.Step, ∀ d ∈ stepDocs e s, d.Good
  | .request c => by
    rw [stepDocs, List.forall_mem_singleton]
    exact .line (tidy_request e c)
  | .group name steps => by
    rw [stepDocs, List.forall_mem_singleton]
    exact .nest (tidy_groupOpening _) (List.cons_ne_nil _ _) closes_call (good_stepsDocs e steps)
  | .check target as => by
    have hentries : ∀ d ∈ as.map fun a => Doc.line false (chars (assertionLine e a)), d.Good :=
      List.forall_mem_map.mpr fun a _ => .line (tidy_assertion e a)
    rw [stepDocs, List.forall_mem_cons, List.forall_mem_singleton]
    exact ⟨.line (tidy_response e target),
      .nest tidy_checkOpening (List.cons_ne_nil _ _) closes_call hentries⟩
  | .sleep x => by
    rw [stepDocs, List.forall_mem_singleton]
    exact .line (tidy_sleep x)

theorem good_stepsDocs (e : Environment) : ∀ steps : List Plan.Step,
    ∀ d ∈ stepsDocs e steps, d.Good
  | [] => nofun
  | s :: r => by
    rw [stepsDocs, List.forall_mem_append]
    exact ⟨good_stepDocs e s, good_stepsDocs e r⟩

end

theorem good_startLines (startVus : Option UInt32) :
    ∀ d ∈ (startLines startVus).map fun l => Doc.line false (chars l), d.Good := by
  cases startVus with
  | none => nofun
  | some n =>
    rw [startLines, List.map_singleton, List.forall_mem_singleton]
    exact .line (tidy_startVus n.toNat)

theorem good_executorDocs (e : Environment) (x : Executor) : ∀ d ∈ executorDocs e x, d.Good := by
  cases x with
  | constant vus duration =>
    simp only [executorDocs, List.forall_mem_cons]
    exact ⟨.line (tidy_executor _), .line (tidy_vus _), .line (tidy_duration _),
      List.forall_mem_nil _⟩
  | ramping startVus stages =>
    have hstages : ∀ d ∈ stages.map fun s => Doc.line false (chars (stageLine e s)), d.Good :=
      List.forall_mem_map.mpr fun s _ => .line (tidy_stage e s)
    simp only [executorDocs, List.forall_mem_cons, List.forall_mem_append]
    exact ⟨.line (tidy_executor _), good_startLines startVus,
      .nest tidy_stages (List.cons_ne_nil _ _) closes_stages hstages,
      List.forall_mem_nil _⟩

theorem good_entryDoc (e : Environment) (s : Plan.Scenario) : (entryDoc e s).Good := by
  refine .nest (tidy_entryOpening e s) (List.cons_ne_nil _ _) closes_field ?_
  rw [List.forall_mem_append, List.forall_mem_singleton]
  exact ⟨good_executorDocs e s.executor, .line (tidy_exec _)⟩

theorem good_functionDoc (e : Environment) (s : Plan.Scenario) : (functionDoc e s).Good := by
  refine .nest (tidy_functionOpening e s) (List.cons_ne_nil _ _) closes_function ?_
  rw [List.forall_mem_cons]
  exact ⟨.line tidy_letResponse, good_stepsDocs e s.steps⟩

theorem good_scriptDocs (e : Environment) (p : Plan) : ∀ d ∈ scriptDocs e p, d.Good := by
  have hentries : ∀ d ∈ p.scenarios.map (entryDoc e), d.Good :=
    List.forall_mem_map.mpr fun s _ => good_entryDoc e s
  have hfunctions : ∀ d ∈ p.scenarios.map (functionDoc e), d.Good :=
    List.forall_mem_map.mpr fun s _ => good_functionDoc e s
  simp only [scriptDocs, List.forall_mem_cons]
  refine ⟨.line tidy_importFunctions, .nest tidy_options (List.cons_ne_nil _ _) closes_options ?_,
    hfunctions⟩
  rw [List.forall_mem_singleton]
  exact .nest tidy_scenarios (List.cons_ne_nil _ _) closes_field hentries

end Script
end LoadTest

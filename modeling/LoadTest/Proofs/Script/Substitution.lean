import LoadTest.Compilation

/-!
Writing in an environment.

An environment changes nothing of a plan but its texts.  To write a plan in it is to change these
texts first and to write what comes of that in an environment without values, and both times the
same tokens are left.

A value may be changed only once, before it becomes a name or a part of a query, so a text that
were changed twice, not at all or too late would show here.
-/

namespace LoadTest

theorem Environment.substituteChars_new (name : String) (s : List Char) :
    (Environment.new name).substituteChars s = s := by
  have hfold : (Environment.new name).values.entries.foldl Environment.substituteOne s = s := rfl
  rw [Environment.substituteChars, hfold, ite_self]

theorem Environment.substitute_new (name text : String) :
    (Environment.new name).substitute text = text := by
  rw [Environment.substitute, Environment.substituteChars_new, String.ofList_toList]

theorem Environment.toList_substitute (e : Environment) (text : String) :
    (e.substitute text).toList = e.substituteChars text.toList :=
  String.toList_ofList

namespace Plan

/-! ## Plans with other texts -/

section MapTexts

variable (f : String → String)

def Pair.mapValue (p : Pair) : Pair :=
  { p with value := f p.value }

def Call.mapTexts (c : Call) : Call :=
  { c with
    url := f c.url
    parameters := c.parameters.map (Pair.mapValue f)
    headers := c.headers.map (Pair.mapValue f) }

def Assertion.mapTexts : Assertion → Assertion
  | .hasStatus status => .hasStatus status
  | .bodyContains text => .bodyContains (f text)

mutual

def Step.mapTexts : Step → Step
  | .request c => .request (c.mapTexts f)
  | .group name steps => .group (f name) (stepsMapTexts steps)
  | .check target as => .check (target.mapTexts f) (as.map (Assertion.mapTexts f))
  | .sleep x => .sleep x

def stepsMapTexts : List Step → List Step
  | [] => []
  | s :: r => s.mapTexts :: stepsMapTexts r

end

def stageMapTexts (s : Stage) : Stage :=
  { s with duration := f s.duration }

def executorMapTexts : Executor → Executor
  | .constant vus duration => .constant vus (f duration)
  | .ramping startVus stages => .ramping startVus (stages.map (stageMapTexts f))

def Scenario.mapTexts (s : Scenario) : Scenario :=
  ⟨f s.name, executorMapTexts f s.executor, stepsMapTexts f s.steps⟩

/-- The plan with `f` applied to every text that an environment may change: the names of scenarios
and groups, durations, URLs, the values of parameters and headers, and what bodies contain. -/
def mapTexts (p : Plan) : Plan :=
  ⟨p.scenarios.map (Scenario.mapTexts f)⟩

/-! ## Their texts -/

theorem Call.texts_mapTexts (c : Call) : (c.mapTexts f).texts = c.texts.map f := by
  simp only [Call.texts, Call.mapTexts, List.map_cons, List.map_append, List.map_map]
  rfl

theorem Assertion.texts_mapTexts (a : Assertion) : (a.mapTexts f).texts = a.texts.map f := by
  cases a <;> rfl

mutual

theorem Step.texts_mapTexts : ∀ s : Step, (s.mapTexts f).texts = s.texts.map f
  | .request c => by
    rw [Step.mapTexts, Step.texts, Step.texts, Call.texts_mapTexts]
  | .group name steps => by
    rw [Step.mapTexts, Step.texts, Step.texts, stepsTexts_mapTexts steps, List.map_cons]
  | .check target as => by
    rw [Step.mapTexts, Step.texts, Step.texts, Call.texts_mapTexts, List.map_append,
      List.flatMap_map, List.map_flatMap]
    simp only [Assertion.texts_mapTexts]
  | .sleep x => by
    rw [Step.mapTexts, Step.texts]
    rfl

theorem stepsTexts_mapTexts : ∀ steps : List Step,
    stepsTexts (stepsMapTexts f steps) = (stepsTexts steps).map f
  | [] => by
    rw [stepsMapTexts, stepsTexts]
    rfl
  | s :: r => by
    rw [stepsMapTexts, stepsTexts, stepsTexts, Step.texts_mapTexts s, stepsTexts_mapTexts r,
      List.map_append]

end

theorem executorTexts_mapTexts (x : Executor) :
    executorTexts (executorMapTexts f x) = (executorTexts x).map f := by
  cases x with
  | constant vus duration => rfl
  | ramping startVus stages =>
    simp only [executorMapTexts, executorTexts, List.map_map]
    rfl

theorem texts_mapTexts (p : Plan) : (p.mapTexts f).texts = p.texts.map f := by
  simp only [texts, mapTexts, Scenario.mapTexts, List.flatMap_map, List.map_append,
    List.map_flatMap, List.map_cons, executorTexts_mapTexts, stepsTexts_mapTexts]

end MapTexts

end Plan

/-! ## Writing what an environment has changed -/

namespace Script

open Environment (substitute_new substituteChars_new toList_substitute)

variable (e : Environment) (name : String)

theorem queryText_mapTexts (parameters : List Plan.Pair) :
    queryText (.new name) (parameters.map (Plan.Pair.mapValue e.substitute)) =
      queryText e parameters := by
  simp only [queryText, List.map_map, Function.comp_def, Plan.Pair.mapValue, substituteChars_new,
    toList_substitute]

theorem requestUrl_mapTexts (c : Plan.Call) :
    requestUrl (.new name) (c.mapTexts e.substitute) = requestUrl e c := by
  have hurl : (Environment.new name).substituteChars (e.substitute c.url).toList =
      e.substituteChars c.url.toList := by
    rw [substituteChars_new, toList_substitute]
  simp only [requestUrl, Plan.Call.mapTexts, List.map_eq_nil_iff, hurl, queryText_mapTexts]

theorem headerPieces_mapTexts : ∀ headers : List Plan.Pair,
    headerPieces (.new name) (headers.map (Plan.Pair.mapValue e.substitute)) =
      headerPieces e headers
  | [] => rfl
  | [h] => by
    simp only [List.map_cons, List.map_nil, headerPieces, Plan.Pair.mapValue, substitute_new]
  | h :: h' :: r => by
    have ih := headerPieces_mapTexts (h' :: r)
    simp only [List.map_cons, headerPieces, Plan.Pair.mapValue, substitute_new] at ih ⊢
    rw [ih]

theorem requestPieces_mapTexts (c : Plan.Call) :
    requestPieces (.new name) (c.mapTexts e.substitute) = requestPieces e c := by
  have hmethod : (c.mapTexts e.substitute).method = c.method := rfl
  have hheaders : (c.mapTexts e.substitute).headers =
      c.headers.map (Plan.Pair.mapValue e.substitute) := rfl
  simp only [requestPieces, requestUrl_mapTexts, hmethod, hheaders, List.map_eq_nil_iff,
    headerPieces_mapTexts]

theorem assertionLine_mapTexts (a : Plan.Assertion) :
    assertionLine (.new name) (a.mapTexts e.substitute) = assertionLine e a := by
  cases a with
  | hasStatus status => rfl
  | bodyContains text => simp only [Plan.Assertion.mapTexts, assertionLine, substitute_new]

mutual

theorem stepLines_mapTexts : ∀ s : Plan.Step,
    stepLines (.new name) (s.mapTexts e.substitute) = stepLines e s
  | .request c => by
    rw [Plan.Step.mapTexts, stepLines, stepLines, requestPieces_mapTexts]
  | .group group steps => by
    rw [Plan.Step.mapTexts, stepLines, stepLines, substitute_new, stepsLines_mapTexts steps]
  | .check target as => by
    have hassertions : (as.map (Plan.Assertion.mapTexts e.substitute)).map
        (assertionLine (.new name)) = as.map (assertionLine e) := by
      simp only [List.map_map, Function.comp_def, assertionLine_mapTexts]
    rw [Plan.Step.mapTexts, stepLines, stepLines, requestPieces_mapTexts, hassertions]
  | .sleep x => by
    rw [Plan.Step.mapTexts, stepLines, stepLines]

theorem stepsLines_mapTexts : ∀ steps : List Plan.Step,
    stepsLines (.new name) (Plan.stepsMapTexts e.substitute steps) = stepsLines e steps
  | [] => by
    rw [Plan.stepsMapTexts, stepsLines, stepsLines]
  | s :: r => by
    rw [Plan.stepsMapTexts, stepsLines, stepsLines, stepLines_mapTexts s, stepsLines_mapTexts r]

end

theorem stageLine_mapTexts (s : Stage) :
    stageLine (.new name) (Plan.stageMapTexts e.substitute s) = stageLine e s := by
  simp only [stageLine, Plan.stageMapTexts, substitute_new]

theorem executorLines_mapTexts (x : Executor) :
    executorLines (.new name) (Plan.executorMapTexts e.substitute x) = executorLines e x := by
  cases x with
  | constant vus duration => simp only [Plan.executorMapTexts, executorLines, substitute_new]
  | ramping startVus stages =>
    simp only [Plan.executorMapTexts, executorLines, List.map_map, Function.comp_def,
      stageLine_mapTexts]

theorem scenarioFunction_mapTexts (s : Plan.Scenario) :
    scenarioFunction (.new name) (s.mapTexts e.substitute) = scenarioFunction e s := by
  rw [scenarioFunction, scenarioFunction, substitute_new]
  rfl

theorem optionLines_mapTexts (s : Plan.Scenario) :
    optionLines (.new name) (s.mapTexts e.substitute) = optionLines e s := by
  have hexecutor : (s.mapTexts e.substitute).executor =
      Plan.executorMapTexts e.substitute s.executor := rfl
  rw [optionLines, optionLines, scenarioFunction_mapTexts, hexecutor, executorLines_mapTexts]

theorem functionLines_mapTexts (s : Plan.Scenario) :
    functionLines (.new name) (s.mapTexts e.substitute) = functionLines e s := by
  have hsteps : (s.mapTexts e.substitute).steps = Plan.stepsMapTexts e.substitute s.steps := rfl
  rw [functionLines, functionLines, scenarioFunction_mapTexts, hsteps, stepsLines_mapTexts]

theorem lines_mapTexts (p : Plan) : lines (.new name) (p.mapTexts e.substitute) = lines e p := by
  simp only [lines, Plan.mapTexts, List.flatMap_map, optionLines_mapTexts, functionLines_mapTexts]

end Script

namespace Plan

theorem script_mapTexts (e : Environment) (name : String) (p : Plan) :
    (p.mapTexts e.substitute).script (.new name) = p.script e := by
  rw [script, script, Script.lines_mapTexts]

theorem unresolved_mapTexts (e : Environment) (name : String) (p : Plan) :
    (p.mapTexts e.substitute).unresolved (.new name) = p.unresolved e := by
  simp only [unresolved, texts_mapTexts, List.flatMap_map, Environment.substitute_new]

theorem tokens_warnings (e : Environment) (p : Plan) (warnUnresolved : Bool) :
    (p.warnings e warnUnresolved).map Warning.token =
      if warnUnresolved then p.unresolved e else [] := by
  cases warnUnresolved with
  | false => rfl
  | true =>
    show ((p.unresolved e).map fun token => (⟨token, e.name⟩ : Warning)).map Warning.token =
      p.unresolved e
    rw [List.map_map]
    exact List.map_id _

/-- Writing a plan in an environment is writing the plan with its texts substituted in an
environment without values.  The code is the same whether or not warnings are asked for, and these
are about the same tokens in the same order. -/
theorem emit_mapTexts (e : Environment) (name : String) (p : Plan) :
    (∀ warn warn' : Bool, (p.emit e warn).code =
      ((p.mapTexts e.substitute).emit (.new name) warn').code) ∧
    (∀ warn : Bool, (p.emit e warn).warnings.map Warning.token =
      ((p.mapTexts e.substitute).emit (.new name) warn).warnings.map Warning.token) ∧
    (p.emit e false).warnings = [] ∧
    ((p.mapTexts e.substitute).emit (.new name) false).warnings = [] := by
  refine ⟨fun warn warn' => ?_, fun warn => ?_, rfl, rfl⟩
  · show p.script e = (p.mapTexts e.substitute).script (.new name)
    rw [script_mapTexts]
  · show (p.warnings e warn).map Warning.token =
      ((p.mapTexts e.substitute).warnings (.new name) warn).map Warning.token
    rw [tokens_warnings, tokens_warnings, unresolved_mapTexts]

end Plan
end LoadTest

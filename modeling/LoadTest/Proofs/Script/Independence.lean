import LoadTest.Proofs.Script.Literals

/-!
What a script says and what it is.

`Plan.literals` lists the texts of a script: its own, and those that a plan and an environment bring
in.  They are all that is read from its literals, and plans that differ in nothing but such texts
have scripts that differ in nothing but their literals.
-/

namespace LoadTest
namespace Plan

open Script (scenarioFunction requestUrl shorthand? verb)

/-! ## The texts of a script -/

/-- A method is written out unless a function of the `http` module stands for it. -/
def Call.methodLiterals (c : Call) : List String :=
  if c.headers = [] ∧ (shorthand? (String.ofList (Text.lower c.method.toList))).isSome then []
  else [verb c.method.toList]

def Call.literals (e : Environment) (c : Call) : List String :=
  c.methodLiterals ++ requestUrl e c :: c.headers.flatMap fun h => [h.name, e.substitute h.value]

def Assertion.literals (e : Environment) : Assertion → List String
  | .hasStatus status => ["status is " ++ toString status.toNat]
  | .bodyContains text => ["body contains " ++ e.substitute text, e.substitute text]

mutual

def Step.literals (e : Environment) : Step → List String
  | .request c => c.literals e
  | .group name steps => e.substitute name :: stepsLiterals e steps
  | .check target as => target.literals e ++ as.flatMap (Assertion.literals e)
  | .sleep _ => []

def stepsLiterals (e : Environment) : List Step → List String
  | [] => []
  | s :: r => s.literals e ++ stepsLiterals e r

end

def executorLiterals (e : Environment) : Executor → List String
  | .constant _ duration => ["constant-vus", e.substitute duration]
  | .ramping _ stages => "ramping-vus" :: stages.map fun s => e.substitute s.duration

/-- The texts of the script in order: the modules that it imports, the options of the scenarios and
the steps of the scenarios. -/
def literals (e : Environment) (p : Plan) : List String :=
  ["k6/http", "k6"] ++
    p.scenarios.flatMap (fun s => executorLiterals e s.executor ++ [scenarioFunction e s]) ++
    p.scenarios.flatMap fun s => stepsLiterals e s.steps

/-! ## Plans that differ in texts -/

/-- The query is a part of the URL, so parameters do not count. -/
structure Call.Alike (c c' : Call) : Prop where
  method : shorthand? (String.ofList (Text.lower c.method.toList)) =
    shorthand? (String.ofList (Text.lower c'.method.toList))
  headers : c.headers.length = c'.headers.length

inductive Assertion.Alike : Assertion → Assertion → Prop
  | hasStatus (status : UInt16) : Alike (hasStatus status) (hasStatus status)
  | bodyContains (text text' : String) : Alike (bodyContains text) (bodyContains text')

mutual

/-- The same steps with the same numbers. -/
inductive Step.Alike : Step → Step → Prop
  | request {c c' : Call} (call : c.Alike c') : Step.Alike (.request c) (.request c')
  | group (name name' : String) {steps steps' : List Step} (inner : StepsAlike steps steps') :
      Step.Alike (.group name steps) (.group name' steps')
  | check {c c' : Call} {as as' : List Assertion} (call : c.Alike c')
      (assertions : List.Forall₂ Assertion.Alike as as') : Step.Alike (.check c as) (.check c' as')
  | sleep (seconds : Float) : Step.Alike (.sleep seconds) (.sleep seconds)

inductive StepsAlike : List Step → List Step → Prop
  | nil : StepsAlike [] []
  | cons {s s' : Step} {steps steps' : List Step} (head : s.Alike s')
      (tail : StepsAlike steps steps') : StepsAlike (s :: steps) (s' :: steps')

end

inductive ExecutorAlike : Executor → Executor → Prop
  | constant (vus : UInt32) (duration duration' : String) :
      ExecutorAlike (.constant vus duration) (.constant vus duration')
  | ramping (startVus : Option UInt32) {stages stages' : List Stage}
      (targets : stages.map Stage.target = stages'.map Stage.target) :
      ExecutorAlike (.ramping startVus stages) (.ramping startVus stages')

/-- The same function with the same load and steps. -/
structure Scenario.Alike (e e' : Environment) (s s' : Scenario) : Prop where
  function : scenarioFunction e s = scenarioFunction e' s'
  executor : ExecutorAlike s.executor s'.executor
  steps : StepsAlike s.steps s'.steps

/-- The plans, each in its environment, differ in texts only. -/
def Alike (e e' : Environment) (p p' : Plan) : Prop :=
  List.Forall₂ (Scenario.Alike e e') p.scenarios p'.scenarios

end Plan

namespace Script

open Piece (code quoted)

/-! ## Literals -/

def literalsOf (ts : List Token) : List (List Char) :=
  ts.filterMap fun t => match t with
    | .code _ => none
    | .literal text => some text

def Line.texts (l : Line) : List String :=
  l.filterMap fun x => match x with
    | .code _ => none
    | .quoted s => some s

theorem literalsOf_append (ts ts' : List Token) :
    literalsOf (ts ++ ts') = literalsOf ts ++ literalsOf ts' :=
  List.filterMap_append

theorem literalsOf_code (s : List Char) : literalsOf (s.map .code) = [] := by
  simp [literalsOf]

theorem literalsOf_tokens (l : Line) : literalsOf l.tokens = l.texts.map String.toList := by
  rw [Line.tokens, literalsOf_append]
  induction l with
  | nil => rfl
  | cons x l ih =>
    rw [List.flatMap_cons, literalsOf_append, List.append_assoc, ih]
    cases x with
    | code s => rw [Piece.tokens, literalsOf_code]; rfl
    | quoted s => rfl

theorem literalsOf_flatMap (ls : List Line) :
    literalsOf (ls.flatMap Line.tokens) = (ls.flatMap Line.texts).map String.toList := by
  induction ls with
  | nil => rfl
  | cons l ls ih =>
    rw [List.flatMap_cons, List.flatMap_cons, literalsOf_append, literalsOf_tokens, ih,
      List.map_append]

theorem texts_append (l l' : Line) : Line.texts (l ++ l') = l.texts ++ l'.texts :=
  List.filterMap_append

theorem texts_headerPieces (e : Environment) : ∀ headers : List Plan.Pair,
    Line.texts (headerPieces e headers) =
      headers.flatMap fun h => [h.name, e.substitute h.value]
  | [] => rfl
  | [_] => rfl
  | h :: h' :: headers => by
    have ih := texts_headerPieces e (h' :: headers)
    rw [List.flatMap_cons, ← ih]
    rfl

theorem texts_requestPieces (e : Environment) (c : Plan.Call) :
    Line.texts (requestPieces e c) = c.literals e := by
  unfold requestPieces Plan.Call.literals Plan.Call.methodLiterals
  simp only
  split_ifs with hheaders hmethod hmethod
  · rw [hheaders]
    obtain ⟨function, hfunction⟩ := Option.isSome_iff_exists.mp hmethod.2
    rw [hfunction]
    rfl
  · rw [hheaders]
    cases hfunction : shorthand? (String.ofList (Text.lower c.method.toList)) with
    | none => rfl
    | some function => simp [hheaders, hfunction] at hmethod
  · exact absurd hmethod.1 hheaders
  · rw [texts_append, texts_append, texts_headerPieces]
    simp [Line.texts]

theorem texts_assertionLine (e : Environment) (a : Plan.Assertion) :
    (assertionLine e a).texts = a.literals e := by
  cases a <;> rfl

mutual

theorem texts_stepLines (e : Environment) : ∀ s : Plan.Step,
    (stepLines e s).flatMap Line.texts = s.literals e
  | .request c => by
    rw [stepLines, List.flatMap_singleton, texts_append, texts_requestPieces, Plan.Step.literals]
    exact List.append_nil _
  | .group name steps => by
    rw [stepLines, List.flatMap_append, List.flatMap_append, texts_stepsLines e steps,
      Plan.Step.literals]
    simp [Line.texts]
  | .check target as => by
    rw [stepLines, List.flatMap_append, List.flatMap_append, List.flatMap_cons, texts_append,
      texts_append, texts_requestPieces, List.flatMap_map, Plan.Step.literals]
    simp only [texts_assertionLine]
    simp [Line.texts]
  | .sleep x => by
    rw [stepLines, Plan.Step.literals]
    rfl

theorem texts_stepsLines (e : Environment) : ∀ steps : List Plan.Step,
    (stepsLines e steps).flatMap Line.texts = Plan.stepsLiterals e steps
  | [] => by
    rw [stepsLines, Plan.stepsLiterals]
    rfl
  | s :: r => by
    rw [stepsLines, List.flatMap_append, List.flatMap_cons, texts_stepLines e s,
      texts_stepsLines e r, Plan.stepsLiterals]
    rfl

end

theorem texts_executorLines (e : Environment) (x : Executor) :
    (executorLines e x).flatMap Line.texts = Plan.executorLiterals e x := by
  cases x with
  | constant vus duration => rfl
  | ramping startVus stages =>
    have hstart : (startLines startVus).flatMap Line.texts = [] := by cases startVus <;> rfl
    have hstages : (stages.map (stageLine e)).flatMap Line.texts =
        stages.map fun s => e.substitute s.duration := by
      rw [List.flatMap_map, ← List.flatMap_singleton' stages, List.map_flatMap]
      simp [stageLine, Line.texts]
    simp only [executorLines, List.flatMap_append, hstart, hstages, Plan.executorLiterals]
    simp [Line.texts]

theorem texts_lines (e : Environment) (p : Plan) :
    (lines e p).flatMap Line.texts = p.literals e := by
  have hoptions (s : Plan.Scenario) : (optionLines e s).flatMap Line.texts =
      Plan.executorLiterals e s.executor ++ [scenarioFunction e s] := by
    simp only [optionLines, List.flatMap_append, texts_executorLines]
    simp [Line.texts]
  have hfunctions (s : Plan.Scenario) :
      (functionLines e s).flatMap Line.texts = Plan.stepsLiterals e s.steps := by
    simp only [functionLines, List.flatMap_append, texts_stepsLines]
    simp [Line.texts]
  simp only [lines, List.flatMap_append, List.flatMap_assoc, hoptions, hfunctions, Plan.literals]
  simp [headLines, Line.texts]

/-! ## Around the literals -/

/-- The code of a script, with a gap for each literal. -/
def outside (ts : List Token) : List (Option Char) :=
  ts.map fun t => match t with
    | .code c => some c
    | .literal _ => none

def Piece.gap : Piece → Option String
  | code s => some s
  | quoted _ => none

/-- The code of a line, with a gap for each text between quotes. -/
def Line.gaps (l : Line) : List (Option String) :=
  l.map Piece.gap

def gapChars : Option String → List (Option Char)
  | some s => s.toList.map some
  | none => [none]

theorem outside_tokens (l : Line) : outside l.tokens = l.gaps.flatMap gapChars ++ [some '\n'] := by
  have hpiece (x : Piece) : outside x.tokens = gapChars x.gap := by
    cases x <;> simp [outside, Piece.tokens, Piece.gap, gapChars]
  rw [Line.tokens, Line.gaps, List.flatMap_map]
  simp only [← hpiece, outside, List.map_append, List.map_flatMap]
  rfl

theorem outside_flatMap (ls : List Line) : outside (ls.flatMap Line.tokens) =
    (ls.map Line.gaps).flatMap fun gaps => gaps.flatMap gapChars ++ [some '\n'] := by
  rw [List.flatMap_map]
  simp only [← outside_tokens, outside, List.map_flatMap]

theorem gaps_append (l l' : Line) : Line.gaps (l ++ l') = l.gaps ++ l'.gaps :=
  List.map_append

section Alike

variable {e e' : Environment}

theorem gaps_headerPieces : ∀ {hs hs' : List Plan.Pair}, hs.length = hs'.length →
    Line.gaps (headerPieces e hs) = Line.gaps (headerPieces e' hs')
  | [], [], _ => rfl
  | [_], [_], _ => rfl
  | _ :: h :: hs, _ :: h' :: hs', hlength => by
    have ih : Line.gaps (headerPieces e (h :: hs)) = Line.gaps (headerPieces e' (h' :: hs')) :=
      gaps_headerPieces (Nat.succ.inj hlength)
    simp only [headerPieces, Line.gaps, List.map_cons] at ih ⊢
    rw [ih]
    rfl

theorem gaps_requestPieces {c c' : Plan.Call} (h : c.Alike c') :
    Line.gaps (requestPieces e c) = Line.gaps (requestPieces e' c') := by
  -- The headers decide how a call is written, but only by whether there are any.
  have hempty : c.headers = [] ↔ c'.headers = [] := by
    rw [← List.length_eq_zero_iff, h.headers, List.length_eq_zero_iff]
  unfold requestPieces
  simp only [hempty, h.method]
  split_ifs with hheaders
  · cases shorthand? (String.ofList (Text.lower c'.method.toList)) <;> rfl
  · rw [gaps_append, gaps_append, gaps_append, gaps_append, gaps_headerPieces h.headers]
    rfl

theorem gaps_assertionLines {as as' : List Plan.Assertion}
    (h : List.Forall₂ Plan.Assertion.Alike as as') :
    (as.map (assertionLine e)).map Line.gaps = (as'.map (assertionLine e')).map Line.gaps := by
  induction h with
  | nil => rfl
  | cons ha _ ih =>
    simp only [List.map_cons, ih]
    cases ha <;> rfl

mutual

theorem gaps_stepLines : ∀ (s : Plan.Step) {s' : Plan.Step}, s.Alike s' →
    (stepLines e s).map Line.gaps = (stepLines e' s').map Line.gaps
  | .request c, .request c', .request call => by
    rw [stepLines, stepLines, List.map_singleton, List.map_singleton, gaps_append, gaps_append,
      gaps_requestPieces call]
  | .group name steps, _, .group _ name' inner => by
    rw [stepLines, stepLines, List.map_append, List.map_append, List.map_append, List.map_append,
      gaps_stepsLines steps inner]
    rfl
  | .check c as, .check c' as', .check call assertions => by
    have hcall : Line.gaps (requestPieces e c) = Line.gaps (requestPieces e' c') :=
      gaps_requestPieces call
    have hassertions : (as.map (assertionLine e)).map Line.gaps =
        (as'.map (assertionLine e')).map Line.gaps := gaps_assertionLines assertions
    simp only [stepLines, List.map_append, List.map_cons, gaps_append, hcall, hassertions]
  | .sleep x, _, .sleep _ => by rw [stepLines, stepLines]

theorem gaps_stepsLines : ∀ (steps : List Plan.Step) {steps' : List Plan.Step},
    Plan.StepsAlike steps steps' →
      (stepsLines e steps).map Line.gaps = (stepsLines e' steps').map Line.gaps
  | [], _, .nil => by rw [stepsLines, stepsLines]
  | s :: r, _, .cons head tail => by
    rw [stepsLines, stepsLines, List.map_append, List.map_append, List.map_cons, List.map_cons,
      gaps_stepLines s head, gaps_stepsLines r tail]

end

theorem gaps_stageLines {stages stages' : List Stage}
    (h : stages.map Stage.target = stages'.map Stage.target) :
    (stages.map (stageLine e)).map Line.gaps = (stages'.map (stageLine e')).map Line.gaps := by
  have hstage (e : Environment) (stages : List Stage) :
      (stages.map (stageLine e)).map Line.gaps = (stages.map Stage.target).map fun n =>
        [some ("\x7b target: " ++ toString n.toNat ++ ", duration: "), none, some " \x7d,"] := by
    rw [List.map_map, List.map_map]
    rfl
  rw [hstage, hstage, h]

theorem gaps_executorLines {x x' : Executor} (h : Plan.ExecutorAlike x x') :
    (executorLines e x).map Line.gaps = (executorLines e' x').map Line.gaps := by
  cases h with
  | constant vus duration duration' => rfl
  | ramping startVus targets =>
    rw [executorLines, executorLines]
    simp only [List.map_append]
    rw [gaps_stageLines targets]

theorem gaps_optionLines {s s' : Plan.Scenario} (h : s.Alike e e' s') :
    (optionLines e s).map Line.gaps = (optionLines e' s').map Line.gaps := by
  rw [optionLines, optionLines, List.map_append, List.map_append, List.map_append, List.map_append,
    h.function, gaps_executorLines h.executor]

theorem gaps_functionLines {s s' : Plan.Scenario} (h : s.Alike e e' s') :
    (functionLines e s).map Line.gaps = (functionLines e' s').map Line.gaps := by
  rw [functionLines, functionLines, List.map_append, List.map_append, List.map_append,
    List.map_append, h.function, gaps_stepsLines s.steps h.steps]

theorem gaps_flatMap {f f' : Plan.Scenario → List Line}
    (hf : ∀ {s s' : Plan.Scenario}, s.Alike e e' s' →
      (f s).map Line.gaps = (f' s').map Line.gaps)
    {ss ss' : List Plan.Scenario} (h : List.Forall₂ (Plan.Scenario.Alike e e') ss ss') :
    (ss.flatMap f).map Line.gaps = (ss'.flatMap f').map Line.gaps := by
  induction h with
  | nil => rfl
  | cons hs _ ih =>
    rw [List.flatMap_cons, List.flatMap_cons, List.map_append, List.map_append, hf hs, ih]

theorem gaps_lines {p p' : Plan} (h : p.Alike e e' p') :
    (lines e p).map Line.gaps = (lines e' p').map Line.gaps := by
  rw [lines, lines]
  simp only [List.map_append]
  rw [gaps_flatMap gaps_optionLines h, gaps_flatMap gaps_functionLines h]

end Alike

end Script

namespace Plan

open Script (tokens? literalsOf outside)

/-- No text leaves its literal: the literals of a script are the texts of the plan, and plans that
differ in texts have scripts that differ in literals. -/
theorem literals_of_script :
    (∀ (e : Environment) (p : Plan), ∃ ts, tokens? (p.script e).toList = some ts ∧
      literalsOf ts = (p.literals e).map String.toList) ∧
    ∀ (e e' : Environment) (p p' : Plan), p.Alike e e' p' →
      (tokens? (p.script e).toList).map outside = (tokens? (p'.script e').toList).map outside := by
  constructor
  · intro e p
    exact ⟨_, Script.tokens?_script e p, by rw [Script.literalsOf_flatMap, Script.texts_lines]⟩
  · intro e e' p p' h
    rw [Script.tokens?_script, Script.tokens?_script, Option.map_some, Option.map_some,
      Script.outside_flatMap, Script.outside_flatMap, Script.gaps_lines h]

/-- A search for `text`, which is also the name of the group that it is in. -/
def searching (text : String) : Plan :=
  let call : Call := ⟨"", "get", "/search", [⟨"q", text⟩], [⟨"X-Query", text⟩]⟩
  ⟨[⟨"Search", .ramping (some 1) [⟨5, "1m"⟩],
    [.group text [.check call [.hasStatus 200, .bodyContains text], .sleep 1]]⟩]⟩

/-- A text that would end its literal and its line, with a token behind. -/
def hostile : String :=
  "\\\"\n\x7b\x7bwho\x7d\x7d"

/-- The value of that token would end the literal and the call. -/
def hostileValue : Environment :=
  Environment.empty.withVariable "who" "\" \x7d); stop(); //"

theorem literals_of_script_searching :
    (searching "plain").Alike .empty hostileValue (searching hostile) ∧
      (tokens? ((searching "plain").script .empty).toList).map outside =
        (tokens? ((searching hostile).script hostileValue).toList).map outside := by
  have hcheck (text text' : String) : Step.Alike
      (.check ⟨"", "get", "/search", [⟨"q", text⟩], [⟨"X-Query", text⟩]⟩
        [.hasStatus 200, .bodyContains text])
      (.check ⟨"", "get", "/search", [⟨"q", text'⟩], [⟨"X-Query", text'⟩]⟩
        [.hasStatus 200, .bodyContains text']) :=
    .check ⟨rfl, rfl⟩ (.cons (.hasStatus 200) (.cons (.bodyContains text text') .nil))
  have hgroup := Step.Alike.group "plain" hostile (.cons (hcheck "plain" hostile)
    (.cons (.sleep 1) .nil))
  have halike : (searching "plain").Alike .empty hostileValue (searching hostile) :=
    .cons ⟨by decide, .ramping (some 1) rfl, .cons hgroup .nil⟩ .nil
  exact ⟨halike, literals_of_script.2 _ _ _ _ halike⟩

end Plan
end LoadTest

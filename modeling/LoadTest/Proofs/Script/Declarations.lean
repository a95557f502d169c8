import LoadTest.Proofs.Completeness.RoundTrip
import LoadTest.Proofs.Script.Pretty

/-!
The names that a script declares.

A script is a module, and what it declares to all of itself is what its imports and exports name.
That is always the same but for the functions of the scenarios, which differ from one another.
Nothing keeps them apart from the rest or from the words of the language, so there are names of
scenarios with which a script cannot be loaded.
-/

namespace LoadTest
namespace Script

open Piece (code quoted)
open Layout (shownAll indented)

/-! ## Reading declarations -/

def importedNames (words : List (List Char)) : List String :=
  let clause := words.takeWhile (· ≠ "from".toList)
  ((clause.map (·.filter isNameChar)).filter (· ≠ [])).map String.ofList

def declarators : List String :=
  ["const", "let", "var", "function", "class"]

def exportedNames : List (List Char) → List String
  | word :: declared :: _ =>
    if String.ofList word ∈ declarators then [String.ofList (declared.takeWhile isNameChar)] else []
  | _ => []

/-- The names that a line imports or exports. -/
def declaredIn (line : List Char) : List String :=
  match (Text.trimStart line).splitOn ' ' with
  | [] => []
  | word :: words =>
    if word = "import".toList then importedNames words
    else if word = "export".toList then exportedNames words
    else []

/-- The names that a script declares, each as often as it does. -/
def topLevelNames (script : String) : List String :=
  (Layout.linesOf script.toList).flatMap declaredIn

/-- The words that a module may not declare: the reserved ones, those that strict code reserves,
and the two that it does not let be bound. -/
def reservedWords : List String :=
  ["await", "break", "case", "catch", "class", "const", "continue", "debugger", "default", "delete",
    "do", "else", "enum", "export", "extends", "false", "finally", "for", "function", "if",
    "import", "in", "instanceof", "new", "null", "return", "super", "switch", "this", "throw",
    "true", "try", "typeof", "var", "void", "while", "with", "yield",
    "let", "static", "implements", "interface", "package", "private", "protected", "public",
    "arguments", "eval"]

def IsBinding (name : String) : Prop :=
  (∃ c r, name.toList = c :: r ∧ isNameStart c = true ∧ r.all isNameChar = true) ∧
    name ∉ reservedWords

/-- Every name is declared once and may be. -/
structure Loadable (script : String) : Prop where
  once : (topLevelNames script).Nodup
  binding : ∀ name ∈ topLevelNames script, IsBinding name

/-! ## Names of functions -/

def fixedNames : List String :=
  ["http", "check", "group", "sleep", "options"]

/-- The words that are no name for the function of a scenario. -/
def takenWords : List String :=
  fixedNames ++ reservedWords

/-- A scenario with this name takes such a word for its function. -/
def Taken (name : String) : Prop :=
  ∃ w, nameWords name.toList = [w] ∧ String.ofList (mapFirst Char.toLower w) ∈ takenWords

theorem ne_nil_of_mem_nameWords {s w : List Char} (h : w ∈ nameWords s) : w ≠ [] := by
  simpa using (List.mem_filter.mp h).2

theorem isLower_toUpper {c : Char} (h : isNameChar c = true) : c.toUpper.isLower = false :=
  ascii_forall (P := fun c => isNameChar c = true → c.toUpper.isLower = false) (by decide +kernel)
    c (toNat_lt_of_isNameChar h) h

theorem isNameStart_of_isLower {c : Char} (h : c.isLower = true) : isNameStart c = true := by
  have halpha : c.isAlpha = true := Bool.or_eq_true_iff.mpr (Or.inr h)
  rw [isNameStart, halpha, Bool.true_or]

theorem camelCase_eq_iff {s w : List Char} (hne : w ≠ []) (hw : ∀ c ∈ w, c.isLower = true) :
    camelCase (nameWords s) = w ↔ ∃ v, nameWords s = [v] ∧ mapFirst Char.toLower v = w := by
  constructor
  · intro h
    match hwords : nameWords s with
    | [] =>
      rw [hwords] at h
      exact absurd h.symm hne
    | [v] =>
      rw [hwords, camelCase, List.flatMap_nil, List.append_nil] at h
      exact ⟨v, rfl, h⟩
    | v :: u :: vs =>
      -- The first character of the second word is raised, and then it is no lower case letter.
      have hmem : u ∈ nameWords s := by
        rw [hwords]
        simp
      obtain ⟨c, r, rfl⟩ := List.exists_cons_of_ne_nil (ne_nil_of_mem_nameWords hmem)
      have hupper : c.toUpper ∈ w := by
        rw [← h, hwords, camelCase, List.flatMap_cons, mapFirst]
        simp
      have hlower := isLower_toUpper (isNameChar_of_mem_nameWords hmem List.mem_cons_self)
      rw [hw _ hupper] at hlower
      cases hlower
  · rintro ⟨v, hwords, rfl⟩
    rw [hwords, camelCase, List.flatMap_nil, List.append_nil]

theorem guardStart_eq_iff {s w : List Char} (hne : w ≠ []) (hw : ∀ c ∈ w, c.isLower = true) :
    guardStart s = w ↔ s = w := by
  have hstart {r : List Char} : '_' :: r ≠ w := by
    rintro rfl
    exact absurd (hw _ List.mem_cons_self) (by decide)
  unfold guardStart
  split
  · exact ⟨fun h => absurd h hstart, fun h => absurd h.symm hne⟩
  · next c r =>
    split
    · rfl
    · next hc =>
      refine ⟨fun h => absurd h hstart, ?_⟩
      rintro rfl
      exact absurd (isNameStart_of_isLower (hw c List.mem_cons_self)) hc

theorem lower_takenWords : ∀ w ∈ takenWords, w.toList ≠ [] ∧ w.toList.all Char.isLower = true := by
  decide +kernel

/-- The function of a scenario is such a word only if the scenario is called by that word. -/
theorem functionName_mem_takenWords {name : String} :
    functionName name ∈ takenWords ↔ Taken name := by
  have hiff {w : String} (h : w ∈ takenWords) : functionName name = w ↔
      ∃ v, nameWords name.toList = [v] ∧ String.ofList (mapFirst Char.toLower v) = w := by
    obtain ⟨hne, hlower⟩ := lower_takenWords w h
    rw [List.all_eq_true] at hlower
    have hlist (s : List Char) : String.ofList s = w ↔ s = w.toList := by
      rw [← String.toList_inj, String.toList_ofList]
    simp only [functionName, hlist, functionChars]
    rw [guardStart_eq_iff hne hlower, camelCase_eq_iff hne hlower]
  constructor
  · intro h
    obtain ⟨v, hwords, hv⟩ := (hiff h).mp rfl
    exact ⟨v, hwords, hv ▸ h⟩
  · rintro ⟨v, hwords, h⟩
    rwa [(hiff h).mpr ⟨v, hwords, rfl⟩]

theorem exists_isNameStart (name : String) :
    ∃ c r, (functionName name).toList = c :: r ∧ isNameStart c = true ∧
      r.all isNameChar = true := by
  obtain ⟨c, r, hcons⟩ := List.exists_cons_of_ne_nil (functionChars_ne_nil name.toList)
  have hchar : ∀ d ∈ c :: r, isNameChar d = true :=
    fun d hd => isNameChar_of_mem_functionChars (hcons ▸ hd)
  refine ⟨c, r, by rw [functionName, String.toList_ofList, hcons], ?_,
    List.all_eq_true.mpr fun d hd => hchar d (List.mem_cons_of_mem c hd)⟩
  unfold functionChars guardStart at hcons
  split at hcons
  · cases hcons
    decide
  · next hcamel =>
    split at hcons
    · next hstart =>
      rw [hcamel] at hcons
      cases hcons
      exact hstart
    · cases hcons
      decide

theorem isBinding_functionName {name : String} :
    IsBinding (functionName name) ↔ functionName name ∉ reservedWords :=
  and_iff_right (exists_isNameStart name)

/-! ## Lines laid out -/

theorem ignoresBlanks_declaredIn : Layout.IgnoresBlanks declaredIn where
  blank := rfl
  indented width level text := by
    rw [declaredIn, Layout.trimStart_indented, ← declaredIn]

/-- A script declares what its lines declare before they are laid out. -/
theorem topLevelNames_eq_flatMap (width : Nat) (e : Environment) (p : Plan) :
    topLevelNames (p.pretty width e) = (lines e p).flatMap fun l => declaredIn (chars l) := by
  have hnewline : ∀ line ∈ chars importLine :: shownAll width true 0 false (scriptDocs e p),
      '\n' ∉ line :=
    List.forall_mem_cons.mpr ⟨tidy_importLine.newline,
      Layout.newline_not_mem_shownAll (good_scriptDocs e p) width 0 true false⟩
  rw [topLevelNames, Plan.pretty_eq_unlines, String.toList_ofList, Layout.linesOf_unlines hnewline,
    List.flatMap_cons, Layout.flatMap_shownAll ignoresBlanks_declaredIn, ← List.flatMap_cons,
    ← lines_scriptDocs, List.flatMap_map]

/-! ## Lines that declare nothing -/

def Silent (l : Line) : Prop :=
  declaredIn (chars l) = []

theorem exists_splitOn (s : List Char) : ∃ ws, s.splitOn ' ' = s.takeWhile (· ≠ ' ') :: ws := by
  induction s with
  | nil => exact ⟨[], List.splitOn_nil ' '⟩
  | cons c s ih =>
    obtain ⟨ws, hws⟩ := ih
    rw [List.splitOn_cons_eq_if_modifyHead, hws]
    by_cases hc : c = ' ' <;> simp [hc]

/-- Imports and exports start with another letter. -/
theorem silent_of_first {l : Line} {x : Piece} {c : Char} (hl : l.head? = some x)
    (hx : x.render.toList.head? = some c)
    (hc : Text.isBlank c = false ∧ c ≠ ' ' ∧ c ≠ 'i' ∧ c ≠ 'e' := by decide) : Silent l := by
  obtain ⟨hblank, hspace, hi, he⟩ := hc
  obtain ⟨r, hr⟩ := List.head?_eq_some_iff.mp (head?_render hl hx)
  obtain ⟨ws, hws⟩ := exists_splitOn (c :: r)
  rw [Silent, chars, declaredIn, hr, Text.trimStart_cons, hblank, if_neg (by decide), hws,
    List.takeWhile_cons_of_pos (by simpa using hspace)]
  simp [hi, he]

theorem silent_code {s : String} {c : Char} (h : s.toList.head? = some c)
    (hc : Text.isBlank c = false ∧ c ≠ ' ' ∧ c ≠ 'i' ∧ c ≠ 'e' := by decide) :
    Silent [code s] :=
  silent_of_first rfl h hc

theorem declaredIn_word {w : List Char} (hblank : w.any Text.isBlank = false) (hne : w ≠ [])
    (r : List Char) : declaredIn (w ++ ' ' :: r) =
      if w = "import".toList then importedNames (r.splitOn ' ')
      else if w = "export".toList then exportedNames (r.splitOn ' ')
      else [] := by
  obtain ⟨c, w, rfl⟩ := List.exists_cons_of_ne_nil hne
  rw [List.any_eq_false] at hblank
  have htrim : Text.trimStart (c :: w ++ ' ' :: r) = c :: w ++ ' ' :: r := by
    rw [List.cons_append, Text.trimStart_cons, if_neg (hblank c List.mem_cons_self)]
  have hspace : ' ' ∉ c :: w := fun h => hblank ' ' h rfl
  rw [declaredIn, htrim, List.splitOn_append_cons_self_of_not_mem hspace]

theorem silent_word {l : Line} {w r : List Char} (hl : chars l = w ++ ' ' :: r)
    (hblank : w.any Text.isBlank = false) (hcolon : ':' ∈ w) : Silent l := by
  have hne {v : List Char} (hv : ':' ∉ v) : w ≠ v := fun h => hv (h ▸ hcolon)
  rw [Silent, hl, declaredIn_word hblank (List.ne_nil_of_mem hcolon),
    if_neg (hne (by decide)), if_neg (hne (by decide))]

theorem silent_field {w : List Char} (hblank : w.any Text.isBlank = false) (hcolon : ':' ∈ w)
    {field : String} (hfield : field.toList = w ++ [' ']) (l : Line) :
    Silent (code field :: l) := by
  refine silent_word (w := w) (r := l.flatMap fun x => x.render.toList) ?_ hblank hcolon
  rw [chars, toList_render, List.flatMap_cons, Piece.render, hfield, List.append_assoc]
  rfl

theorem silent_request (e : Environment) (c : Plan.Call) :
    Silent (requestPieces e c ++ [code ";"]) := by
  obtain ⟨x, hx, hfirst⟩ := head?_requestPieces e c
  refine silent_of_first ?_ hfirst
  rw [List.head?_append, hx]
  rfl

theorem silent_count {field : String} {c : Char} (h : field.toList.head? = some c) (n : Nat)
    (hc : Text.isBlank c = false ∧ c ≠ ' ' ∧ c ≠ 'i' ∧ c ≠ 'e' := by decide) :
    Silent [code (field ++ toString n ++ ",")] :=
  silent_code (head?_toList_append (head?_toList_append h _) _) hc

theorem StepLine.silent {e : Environment} {l : Line} (h : StepLine e l) : Silent l := by
  cases h with
  | blank => rfl
  | request c => exact silent_request e c
  | groupOpening name => exact silent_of_first (x := code "group(") rfl rfl
  | response c => exact silent_of_first (x := code "response = ") rfl rfl
  | checkOpening => exact silent_code rfl
  | assertion a =>
    cases a with
    | hasStatus status => exact silent_of_first rfl (head?_quote _)
    | bodyContains text => exact silent_of_first rfl (head?_quote _)
  | closing => exact silent_code rfl
  | sleep x => exact silent_code (head?_toList_append (head?_toList_append rfl _) _)

theorem isNameChar_of_mem_scenarioFunction {e : Environment} {s : Plan.Scenario} {c : Char}
    (h : c ∈ (scenarioFunction e s).toList) : isNameChar c = true := by
  rw [scenarioFunction, functionName, String.toList_ofList] at h
  exact isNameChar_of_mem_functionChars h

/-- A function may be called `import`, but behind its name in the options there is a colon. -/
theorem silent_entryOpening (e : Environment) (s : Plan.Scenario) :
    Silent [code (scenarioFunction e s ++ ": \x7b")] := by
  refine silent_word (w := (scenarioFunction e s).toList ++ [':']) (r := ['{']) ?_ ?_ (by simp)
  · rw [chars, toList_render, List.flatMap_singleton, Piece.render, String.toList_append,
      List.append_assoc]
    rfl
  · have hblank : ∀ c ∈ (scenarioFunction e s).toList, Text.isBlank c = false :=
      fun _ h => (starts_of_isNameChar (isNameChar_of_mem_scenarioFunction h)).1
    rw [List.any_append, List.any_eq_false.mpr (by simpa using hblank)]
    rfl

theorem OptionLine.silent {e : Environment} {l : Line} (h : OptionLine e l) : Silent l := by
  cases h with
  | opening s => exact silent_entryOpening e s
  | executor kind => exact silent_field (w := "executor:".toList) (by decide) (by decide) rfl _
  | vus n => exact silent_count rfl n
  | duration text => exact silent_of_first (x := code "duration: ") rfl rfl
  | startVus n => exact silent_count rfl n
  | stagesOpening => exact silent_code rfl
  | stage s => exact silent_of_first rfl (head?_toList_append (head?_toList_append rfl _) _)
  | stagesClosing => exact silent_code rfl
  | exec function => exact silent_field (w := "exec:".toList) (by decide) (by decide) rfl _
  | closing => exact silent_code rfl

/-! ## The names of a script -/

theorem declaredIn_functionOpening {f : String} (hf : ∀ c ∈ f.toList, isNameChar c = true) :
    declaredIn (chars [code ("export function " ++ f ++ "() \x7b")]) = [f] := by
  have hchars : chars [code ("export function " ++ f ++ "() \x7b")] =
      "export".toList ++ ' ' :: ("function".toList ++ ' ' ::
        ((f.toList ++ ['(', ')']) ++ ' ' :: ['{'])) := by
    rw [chars, toList_render, List.flatMap_singleton, Piece.render, String.toList_append,
      String.toList_append, List.append_assoc, List.append_assoc]
    rfl
  have hspace : ' ' ∉ f.toList ++ ['(', ')'] := by
    rw [List.mem_append, not_or]
    exact ⟨fun h => absurd (hf ' ' h) (by decide), by decide⟩
  have hname : (f.toList ++ ['(', ')']).takeWhile isNameChar = f.toList := by
    rw [List.takeWhile_append_of_pos hf, List.takeWhile_cons_of_neg (by decide), List.append_nil]
  rw [hchars, declaredIn_word (by decide) (by decide), if_neg (by decide), if_pos rfl,
    List.splitOn_append_cons_self_of_not_mem (by decide),
    List.splitOn_append_cons_self_of_not_mem hspace, exportedNames, if_pos (by decide), hname,
    String.ofList_toList]

theorem flatMap_declaredIn {ls : List Line} (h : ∀ l ∈ ls, Silent l) :
    (ls.flatMap fun l => declaredIn (chars l)) = [] :=
  List.flatMap_eq_nil_iff.mpr h

theorem flatMap_declaredIn_functionLines (e : Environment) (s : Plan.Scenario) :
    ((functionLines e s).flatMap fun l => declaredIn (chars l)) = [scenarioFunction e s] := by
  have hlet : Silent [code "let response = null;"] := silent_code rfl
  have hend : Silent [code "\x7d"] := silent_code rfl
  rw [functionLines, List.flatMap_append, List.flatMap_append, List.flatMap_cons,
    List.flatMap_cons, List.flatMap_singleton, hlet,
    declaredIn_functionOpening fun _ => isNameChar_of_mem_scenarioFunction,
    flatMap_declaredIn fun l hl => (stepLine_of_mem_stepsLines e s.steps l hl).silent,
    List.flatMap_singleton, hend]
  rfl

/-- A script declares the functions of its scenarios, and otherwise always the same. -/
theorem topLevelNames_pretty (width : Nat) (e : Environment) (p : Plan) :
    topLevelNames (p.pretty width e) = fixedNames ++ p.scenarios.map (scenarioFunction e) := by
  have hhead : ((headLines ++
      [[code "export const options = \x7b"], [code "scenarios: \x7b"]]).flatMap
        fun l => declaredIn (chars l)) = fixedNames := by decide +kernel
  -- The entries of the options are called like the functions, but they are no declarations.
  have hentries : ((p.scenarios.flatMap (optionLines e)).flatMap fun l => declaredIn (chars l)) =
      [] := by
    refine flatMap_declaredIn ?_
    rw [List.forall_mem_flatMap]
    exact fun s _ l hl => (optionLine_of_mem_optionLines e s l hl).silent
  have hend : ([[code "\x7d,"], [code "\x7d;"]].flatMap fun l => declaredIn (chars l)) = [] :=
    flatMap_declaredIn (List.forall_mem_cons.mpr ⟨silent_code rfl,
      List.forall_mem_singleton.mpr (silent_code rfl)⟩)
  rw [topLevelNames_eq_flatMap, lines, List.flatMap_append, List.flatMap_append,
    List.flatMap_append, hhead, hentries, hend, List.flatMap_assoc, List.append_nil,
    List.append_nil, List.map_eq_flatMap]
  simp only [flatMap_declaredIn_functionLines]

/-- With functions that differ, a script can be loaded unless one of them has a taken word. -/
theorem loadable_iff {script : String} {names : List String}
    (hdeclared : topLevelNames script = fixedNames ++ names.map functionName)
    (hnodup : (names.map functionName).Nodup) :
    Loadable script ↔ ∀ name ∈ names, ¬ Taken name := by
  have hfixed : fixedNames.Nodup := by decide
  have hbinding : ∀ name ∈ fixedNames, IsBinding name := by
    have hstart : ∀ name ∈ fixedNames, ∃ c r, name.toList = c :: r ∧ isNameStart c = true ∧
        r.all isNameChar = true := by
      simp only [fixedNames, List.forall_mem_cons]
      exact ⟨⟨_, _, rfl, by decide⟩, ⟨_, _, rfl, by decide⟩, ⟨_, _, rfl, by decide⟩,
        ⟨_, _, rfl, by decide⟩, ⟨_, _, rfl, by decide⟩, List.forall_mem_nil _⟩
    have hreserved : ∀ name ∈ fixedNames, name ∉ reservedWords := by decide
    exact fun name h => ⟨hstart name h, hreserved name h⟩
  have htaken {name : String} : ¬ Taken name ↔
      functionName name ∉ fixedNames ∧ functionName name ∉ reservedWords := by
    rw [← functionName_mem_takenWords, takenWords, List.mem_append, not_or]
  simp only [htaken]
  constructor
  · rintro ⟨honce, hbinding⟩ name hname
    have hmem : functionName name ∈ names.map functionName := List.mem_map_of_mem hname
    rw [hdeclared] at honce hbinding
    exact ⟨fun h => List.disjoint_of_nodup_append honce h hmem,
      (hbinding _ (List.mem_append_right _ hmem)).2⟩
  · intro h
    refine ⟨?_, ?_⟩
    · rw [hdeclared, List.nodup_append']
      refine ⟨hfixed, hnodup, fun f hf hmem => ?_⟩
      obtain ⟨name, hname, rfl⟩ := List.mem_map.mp hmem
      exact (h name hname).1 hf
    · rw [hdeclared, List.forall_mem_append, List.forall_mem_map]
      exact ⟨hbinding, fun name hname => isBinding_functionName.mpr (h name hname).2⟩

end Script

namespace Test

open Script (topLevelNames fixedNames functionName Loadable Taken)

theorem scenarioRoots_of_complete {t : Test} {c : Complete.Test} (h : t.complete = .ok c) :
    t.scenarioRoots = c.roots.map Complete.Root.toRoot := by
  obtain ⟨htest, -⟩ := complete_eq_ok_iff.mp h
  exact congrArg Test.roots htest.symm

theorem names_of_complete {t : Test} {c : Complete.Test} (h : t.complete = .ok c) :
    c.scenarios.map Complete.Scenario.name = t.scenarioNames := by
  rw [scenarioNames, scenarioRoots_of_complete h, List.filterMap_map, Complete.Test.scenarios,
    List.map_map, ← List.filterMap_eq_map]
  rfl

/-- A script is that of a complete test.  The clash check reads the names that the functions are
called by, so these differ. -/
theorem exists_complete_of_compile {config : Config} {e : Environment} {t : Test} {script : String}
    (h : (t.compile config e).result = .ok script) :
    ∃ c, t.complete = .ok c ∧ script = (Plan.ofComplete c).pretty config.indentWidth.toNat e ∧
      (Plan.ofComplete c).scenarios.map (Script.scenarioFunction e) =
        (t.scenarioNames.map e.substitute).map functionName ∧
      ((t.scenarioNames.map e.substitute).map functionName).Nodup := by
  rw [result_compile] at h
  split at h
  · cases h
  · next c hc =>
    split at h
    · next hclashes =>
      rw [Completeness.nameClashes_eq_nil_iff] at hclashes
      refine ⟨c, hc, (Except.ok.inj h).symm, ?_, ?_⟩
      · rw [← names_of_complete hc, Plan.ofComplete, List.map_map, List.map_map, List.map_map]
        rfl
      · rw [← names_of_complete hc, List.map_map, List.map_map]
        exact hclashes
    · cases h

/-- The script of a test declares the functions of its scenarios, which differ, behind what every
script declares; it can be loaded unless the name of a scenario is a word that is taken. -/
theorem loadable_iff_of_compile {config : Config} {e : Environment} {t : Test} {script : String}
    (h : (t.compile config e).result = .ok script) :
    topLevelNames script =
        fixedNames ++ (t.scenarioNames.map e.substitute).map functionName ∧
      ((t.scenarioNames.map e.substitute).map functionName).Nodup ∧
        (Loadable script ↔ ∀ name ∈ t.scenarioNames, ¬ Taken (e.substitute name)) := by
  obtain ⟨c, -, rfl, hfunctions, hnodup⟩ := exists_complete_of_compile h
  have hdeclared := Script.topLevelNames_pretty config.indentWidth.toNat e (Plan.ofComplete c)
  rw [hfunctions] at hdeclared
  refine ⟨hdeclared, hnodup, ?_⟩
  rw [Script.loadable_iff hdeclared hnodup, List.forall_mem_map]

/-- A scenario called like a module that is imported, and one called by a word of the language. -/
def shadowing : Test :=
  let load (id : BlockId) := Block.executor id (.constant 1 "1m")
  ⟨Library.empty, [⟨⟨0, 0⟩, .scenario "s" "Http" (some (load "x")) none⟩,
    ⟨⟨0, 200⟩, .scenario "d" "Delete" (some (load "y")) none⟩]⟩

theorem loadable_iff_of_compile_shadowing : ∃ script,
    (shadowing.compile Config.default Environment.empty).result = .ok script ∧
      topLevelNames script =
        ["http", "check", "group", "sleep", "options", "http", "delete"] ∧ ¬ Loadable script := by
  obtain ⟨script, h⟩ : ∃ script,
      (shadowing.compile Config.default Environment.empty).result = .ok script :=
    ⟨_, (result_compile _ _ _).trans rfl⟩
  obtain ⟨hnames, -, hloadable⟩ := loadable_iff_of_compile h
  refine ⟨script, h, hnames.trans (by decide), fun hload => ?_⟩
  exact hloadable.mp hload "Http" (by decide) ⟨"Http".toList, by decide, by decide⟩

end Test
end LoadTest

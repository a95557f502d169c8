import LoadTest.Script.Reading
import LoadTest.Proofs.Script.Lines

/-!
The literals of a script.

Whatever a text of a user says, it is read back from the literal that it was written as, and the
code around the literals does not depend on it.
-/

namespace LoadTest
namespace Script

open Layout (isInert)
open Piece (code quoted)

/-! ## Reading what was quoted -/

theorem hexChar?_control : ∀ n < 32,
    hexChar? ['0', '0', Json.lowerHexDigit (n / 16), Json.lowerHexDigit (n % 16)] =
      some (Char.ofNat n) := by
  decide +kernel

theorem literal?_escaped {s text rest : List Char} (h : escaped? s = some (text, rest)) :
    literal? ('\\' :: s) = (literal? rest).map fun (t, rest) => (text ++ t, rest) := by
  rw [literal?]
  split
  · next heq => rw [h] at heq; cases heq
  · next heq =>
    rw [h] at heq
    cases heq
    rfl

theorem literal?_letter {c d : Char} (h : ∀ r, escaped? (d :: r) = some ([c], r)) (r : List Char) :
    literal? (['\\', d] ++ r) = (literal? r).map fun (t, rest) => (c :: t, rest) :=
  literal?_escaped (h r)

theorem literal?_plain {c : Char} (hquote : c ≠ '"') (hback : c ≠ '\\') (hend : c ≠ '\n')
    (hreturn : c ≠ '\r') (r : List Char) :
    literal? ([c] ++ r) = (literal? r).map fun (t, rest) => (c :: t, rest) := by
  rw [List.singleton_append, literal?]
  · simp [hend, hreturn]
  · exact hquote
  · exact hback

theorem literal?_control {c : Char} (hc : c.toNat < 32) (r : List Char) :
    literal? (Json.escapeControl c ++ r) = (literal? r).map fun (t, rest) => (c :: t, rest) := by
  have hchar := hexChar?_control c.toNat hc
  rw [Char.ofNat_toNat] at hchar
  have hescaped : escaped? ('u' :: '0' :: '0' :: Json.lowerHexDigit (c.toNat / 16) ::
      Json.lowerHexDigit (c.toNat % 16) :: r) = some ([c], r) := by
    simp [escaped?, hchar]
  exact literal?_escaped hescaped

theorem literal?_escapeChar (c : Char) (r : List Char) :
    literal? (Json.escapeChar c ++ r) = (literal? r).map fun (t, rest) => (c :: t, rest) := by
  have hnumber {n : Nat} (h : c.toNat = n) : c = Char.ofNat n := by rw [← h, Char.ofNat_toNat]
  rw [Json.escapeChar]
  split_ifs with hquote hback h8 h9 hA hC hD hcontrol
  · subst hquote
    exact literal?_letter (fun _ => rfl) r
  · subst hback
    exact literal?_letter (fun _ => rfl) r
  · exact literal?_letter (fun _ => hnumber h8 ▸ rfl) r
  · exact literal?_letter (fun _ => hnumber h9 ▸ rfl) r
  · exact literal?_letter (fun _ => hnumber hA ▸ rfl) r
  · exact literal?_letter (fun _ => hnumber hC ▸ rfl) r
  · exact literal?_letter (fun _ => hnumber hD ▸ rfl) r
  · exact literal?_control hcontrol r
  · exact literal?_plain hquote hback (fun h => hA (h ▸ rfl)) (fun h => hD (h ▸ rfl)) r

/-- A literal ends where the quoted text does. -/
theorem literal?_escape (s r : List Char) :
    literal? (Json.escape s ++ '"' :: r) = some (s, r) := by
  induction s with
  | nil =>
    rw [Json.escape_nil, List.nil_append, literal?]
  | cons c s ih =>
    rw [Json.escape_cons, List.append_assoc, literal?_escapeChar, ih]
    rfl

theorem tokens?_quote (s : String) (r : List Char) :
    tokens? ((Json.quote s).toList ++ r) = (tokens? r).map (.literal s.toList :: ·) := by
  have hliteral := literal?_escape s.toList r
  rw [Json.quote, String.toList_ofList, List.append_assoc, List.cons_append, List.singleton_append,
    tokens?]
  split
  · next heq => rw [hliteral] at heq; cases heq
  · next heq =>
    rw [hliteral] at heq
    cases heq
    rfl

/-! ## Reading code -/

def isPlain (c : Char) : Bool :=
  !Layout.isQuote c && c ≠ '/'

theorem isPlain_of_isInert {c : Char} (h : isInert c = true) : isPlain c = true := by
  simp only [isInert, Bool.and_eq_true] at h
  rw [isPlain, h.1.1.1.1, h.1.2]
  rfl

theorem tokens?_code {s : List Char} (h : ∀ c ∈ s, isPlain c = true) (r : List Char) :
    tokens? (s ++ r) = (tokens? r).map (s.map .code ++ ·) := by
  induction s with
  | nil => simp
  | cons c s ih =>
    rw [List.forall_mem_cons] at h
    have hc := h.1
    simp only [isPlain, Layout.isQuote, Bool.and_eq_true, Bool.not_eq_true', Bool.or_eq_false_iff,
      decide_eq_false_iff_not, decide_eq_true_eq] at hc
    obtain ⟨⟨⟨hquote, hapostrophe⟩, hbacktick⟩, hslash⟩ := hc
    rw [List.cons_append, tokens?, if_neg (by simp [hapostrophe, hbacktick, hslash]), ih h.2,
      Option.map_map]
    · rfl
    · exact hquote

/-- Code that has no quote or slash in it. -/
def Plain (s : String) : Prop :=
  ∀ c ∈ s.toList, isPlain c = true

instance (s : String) : Decidable (Plain s) :=
  List.decidableBAll (fun c => isPlain c = true) s.toList

namespace Plain

theorem append {s t : String} (hs : Plain s) (ht : Plain t) : Plain (s ++ t) := by
  rw [Plain, String.toList_append, List.forall_mem_append]
  exact ⟨hs, ht⟩

theorem of_inert {s : String} (h : Inert s) : Plain s :=
  fun c hc => isPlain_of_isInert (h c hc)

end Plain

def Piece.Plain : Piece → Prop
  | code s => Script.Plain s
  | quoted _ => True

def Piece.tokens : Piece → List Token
  | code s => s.toList.map .code
  | quoted s => [.literal s.toList]

def Line.tokens (l : Line) : List Token :=
  l.flatMap Piece.tokens ++ [.code '\n']

theorem tokens?_piece {x : Piece} (h : x.Plain) (r : List Char) :
    tokens? (x.render.toList ++ r) = (tokens? r).map (x.tokens ++ ·) := by
  cases x with
  | code s => exact tokens?_code h r
  | quoted s => exact tokens?_quote s r

theorem tokens?_pieces {l : List Piece} (h : ∀ x ∈ l, x.Plain) (r : List Char) :
    tokens? ((l.flatMap fun x => x.render.toList) ++ r) =
      (tokens? r).map (l.flatMap Piece.tokens ++ ·) := by
  induction l with
  | nil => simp
  | cons x l ih =>
    rw [List.forall_mem_cons] at h
    rw [List.flatMap_cons, List.append_assoc, tokens?_piece h.1, ih h.2, Option.map_map,
      List.flatMap_cons]
    simp only [Function.comp_def, List.append_assoc]

def Line.Plain (l : Line) : Prop :=
  ∀ x ∈ l, x.Plain

/-- Lines are read one by one. -/
theorem tokens?_renderLines {ls : List Line} (h : ∀ l ∈ ls, l.Plain) :
    tokens? (renderLines ls).toList = some (ls.flatMap Line.tokens) := by
  rw [renderLines, String.toList_join, List.flatMap_map]
  induction ls with
  | nil =>
    rw [List.flatMap_nil, tokens?]
    rfl
  | cons l ls ih =>
    rw [List.forall_mem_cons] at h
    have hend : ∀ c ∈ ['\n'], isPlain c = true := List.forall_mem_singleton.mpr rfl
    rw [List.flatMap_cons, String.toList_append, toList_render, List.append_assoc,
      tokens?_pieces h.1]
    have hline := tokens?_code hend (ls.flatMap fun l => (l.render ++ "\n").toList)
    rw [show "\n".toList = ['\n'] from rfl, hline, ih h.2]
    simp [Line.tokens]

/-! ## The code of a script -/

namespace Line.Plain

theorem nil : Line.Plain [] :=
  List.forall_mem_nil _

/-- Code that is always the same is looked at by trying. -/
theorem code {s : String} {l : Line} (hl : l.Plain) (h : Script.Plain s := by decide) :
    Line.Plain (.code s :: l) :=
  List.forall_mem_cons.mpr ⟨h, hl⟩

theorem quoted {s : String} {l : Line} (hl : l.Plain) : Line.Plain (.quoted s :: l) :=
  List.forall_mem_cons.mpr ⟨trivial, hl⟩

theorem append {l l' : Line} (h : l.Plain) (h' : l'.Plain) : Line.Plain (l ++ l') :=
  List.forall_mem_append.mpr ⟨h, h'⟩

end Line.Plain

theorem plain_headerPieces (e : Environment) :
    ∀ headers : List Plan.Pair, Line.Plain (headerPieces e headers)
  | [] => .nil
  | [_] => .quoted (.code (.quoted .nil))
  | _ :: h :: headers => .quoted (.code (.quoted (.code (plain_headerPieces e (h :: headers)))))

theorem plain_requestPieces (e : Environment) (c : Plan.Call) : Line.Plain (requestPieces e c) := by
  unfold requestPieces
  simp only
  split_ifs with hheaders
  · split
    · next function hfunction =>
      have hcall : Plain ("http." ++ function ++ "(") :=
        ((show Plain "http." by decide).append (.of_inert (.shorthand? hfunction))).append
          (by decide)
      exact .code (.quoted (.code .nil)) hcall
    · exact .code (.quoted (.code (.quoted (.code .nil))))
  · exact .append (.append (.code (.quoted (.code (.quoted (.code .nil)))))
      (plain_headerPieces e _)) (.code .nil)

theorem plain_assertionLine (e : Environment) (a : Plan.Assertion) : (assertionLine e a).Plain := by
  cases a with
  | hasStatus n =>
    have hcode : Plain (": (r) => r.status === " ++ toString n.toNat ++ ",") :=
      ((show Plain ": (r) => r.status === " by decide).append (.of_inert (.nat _))).append
        (by decide)
    exact .quoted (.code .nil hcode)
  | bodyContains text => exact .quoted (.code (.quoted (.code .nil)))

theorem plain_count {field : String} (h : Plain field) (n : Nat) :
    Line.Plain [code (field ++ toString n ++ ",")] :=
  .code .nil ((h.append (.of_inert (.nat n))).append (by decide))

theorem StepLine.plain {e : Environment} {l : Line} (h : StepLine e l) : l.Plain := by
  cases h with
  | blank => exact .nil
  | request c => exact (plain_requestPieces e c).append (.code .nil)
  | groupOpening name => exact .code (.quoted (.code .nil))
  | response c => exact .append (.append (.code .nil) (plain_requestPieces e c)) (.code .nil)
  | checkOpening => exact .code .nil
  | assertion a => exact plain_assertionLine e a
  | closing => exact .code .nil
  | sleep x =>
    have hcode : Plain ("sleep(" ++ Decimal.plainText x ++ ");") :=
      ((show Plain "sleep(" by decide).append (.of_inert (.plainText x))).append (by decide)
    exact .code .nil hcode

theorem OptionLine.plain {e : Environment} {l : Line} (h : OptionLine e l) : l.Plain := by
  cases h with
  | opening s =>
    have hcode : Plain (scenarioFunction e s ++ ": \x7b") :=
      (Plain.of_inert (inert_scenarioFunction e s)).append (by decide)
    exact .code .nil hcode
  | executor kind => exact .code (.quoted (.code .nil))
  | vus n => exact plain_count (by decide) n
  | duration text => exact .code (.quoted (.code .nil))
  | startVus n => exact plain_count (by decide) n
  | stagesOpening => exact .code .nil
  | stage s =>
    have hcode : Plain ("\x7b target: " ++ toString s.target.toNat ++ ", duration: ") :=
      ((show Plain "\x7b target: " by decide).append (.of_inert (.nat _))).append (by decide)
    exact .code (.quoted (.code .nil)) hcode
  | stagesClosing => exact .code .nil
  | exec function => exact .code (.quoted (.code .nil))
  | closing => exact .code .nil

theorem plain_functionLines (e : Environment) (s : Plan.Scenario) :
    ∀ l ∈ functionLines e s, l.Plain := by
  have hcode : Plain ("export function " ++ scenarioFunction e s ++ "() \x7b") :=
    ((show Plain "export function " by decide).append
      (.of_inert (inert_scenarioFunction e s))).append (by decide)
  simp only [functionLines, List.forall_mem_append, List.forall_mem_cons]
  exact ⟨⟨⟨.nil, .code .nil hcode, .code .nil, List.forall_mem_nil _⟩,
    fun l hl => (stepLine_of_mem_stepsLines e s.steps l hl).plain⟩,
    .code .nil, List.forall_mem_nil _⟩

theorem plain_lines (e : Environment) (p : Plan) : ∀ l ∈ lines e p, l.Plain := by
  simp only [lines, headLines, List.forall_mem_append, List.forall_mem_cons,
    List.forall_mem_flatMap]
  have hoptions : ∀ s ∈ p.scenarios, ∀ l ∈ optionLines e s, l.Plain :=
    fun s _ l hl => (optionLine_of_mem_optionLines e s l hl).plain
  exact ⟨⟨⟨⟨⟨.code (.quoted (.code .nil)), .code (.quoted (.code .nil)), .nil,
    List.forall_mem_nil _⟩, .code .nil, .code .nil, List.forall_mem_nil _⟩, hoptions⟩,
    .code .nil, .code .nil, List.forall_mem_nil _⟩, fun s _ => plain_functionLines e s⟩

theorem tokens?_script (e : Environment) (p : Plan) :
    tokens? (p.script e).toList = some ((lines e p).flatMap Line.tokens) :=
  tokens?_renderLines (plain_lines e p)

end Script
end LoadTest

import LoadTest.Proofs.Layout.Brackets
import LoadTest.Proofs.Layout.Document

/-!
Laying out line by line.

A layout first writes lines and takes some of the blank ones back, and goes over what it has written
once more.  The same lines come out if every line that is not blank decides how many of the blank
lines before it stay (`layoutLines_eq_ok_iff`): that depends on the line, the last one before it
that is not blank and the state between them.
-/

namespace LoadTest
namespace Layout

/-- What is known in front of a line. -/
structure Spot where
  number : Nat
  lexical : Lexical
  openers : Openers
  /-- The last line laid out that is not blank. -/
  last : Option (List Char)
  /-- The number of blank lines behind it. -/
  blanks : Nat

namespace Spot

def start : Spot :=
  ⟨1, .code, [], none, 0⟩

/-- The closing brackets that `text` starts with, where they count: not in a comment. -/
def closers (s : Spot) (text : List Char) : List Char :=
  if s.lexical = .blockComment then [] else leadingClosers text

/-- The line that `text` becomes. -/
def line (s : Spot) (width : Nat) (text : List Char) : List Char :=
  indented width (depth (s.openers.drop (s.closers text).length)) text

/-- The blank lines that stay behind the last line if nothing follows that takes them away. -/
def pending (s : Spot) : Nat :=
  if s.lexical = .blockComment then s.blanks else if s.last = none then 0 else min s.blanks 1

/-- The blank lines that a line starting with closing brackets does not take away. -/
def kept (s : Spot) (text : List Char) : Nat :=
  if s.closers text = [] then s.pending else 0

/-- The blank lines that stay in front of `text`. -/
def spacing (s : Spot) (text : List Char) : Nat :=
  if s.last.any opensBlock then 0 else s.kept text

/-- Behind a blank line. -/
def blank (s : Spot) : Spot :=
  { s with number := s.number + 1, blanks := s.blanks + 1 }

/-- Behind the line `text`, at the end of which are the state `l` and the brackets `openers`. -/
def after (s : Spot) (width : Nat) (text : List Char) (l : Lexical) (openers : Openers) : Spot :=
  ⟨s.number + 1, l, openers, some (s.line width text), 0⟩

/-- The line `text` is read and leaves the state `l` and the brackets `openers`. -/
structure Reads (s : Spot) (text : List Char) (l : Lexical) (openers : Openers) : Prop where
  closers : (s.closers text).length ≤ s.openers.length
  scan : scan s.number s.lexical s.openers text = .ok (l, openers)
  ended : s.lexical ≠ .blockComment → ∀ mark, l ≠ .quoted mark

end Spot

/-- From the spot on, `lines` are laid out as `out`. -/
inductive Laid (width : Nat) : Spot → List (List Char) → List (List Char) → Prop
  | nil {s : Spot} : s.openers = [] → Laid width s [] []
  | blank {s : Spot} {raw : List Char} {lines out : List (List Char)} :
      Text.trim raw = [] → Laid width s.blank lines out → Laid width s (raw :: lines) out
  | line {s : Spot} {raw : List Char} {lines out : List (List Char)} {l : Lexical}
      {openers : Openers} :
      Text.trim raw ≠ [] → s.Reads (Text.trim raw) l openers →
        Laid width (s.after width (Text.trim raw) l openers) lines out →
          Laid width s (raw :: lines) (List.replicate (s.spacing (Text.trim raw)) [] ++
            s.line width (Text.trim raw) :: out)

/-! ## One line -/

/-- The state in which the line at the spot is read, when `written` is written. -/
def Spot.state (s : Spot) (written : List (List Char)) : State :=
  ⟨s.lexical, s.openers, written⟩

variable {width : Nat}

theorem step_of_trim_eq_nil {s : Spot} {raw : List Char} (h : Text.trim raw = [])
    (written : List (List Char)) :
    step width s.number (s.state written) raw =
      .ok (s.state (if s.lexical = .blockComment then [] :: written else pushBlank written)) := by
  rw [step]
  by_cases hl : s.lexical = .blockComment
  · simp only [Spot.state, h, hl, if_true, commentLine, scan, indented]
    rfl
  · simp only [Spot.state, h, hl, if_true, if_false]

theorem commentLine_eq_ok_iff {n : Nat} {s t : State} {text : List Char} :
    commentLine width n s text = .ok t ↔
      ∃ l openers, scan n s.lexical s.openers text = .ok (l, openers) ∧
        t = ⟨l, openers, indented width (depth s.openers) text :: s.written⟩ := by
  rw [commentLine, bind_eq_ok_iff, Prod.exists]
  refine exists_congr fun l => exists_congr fun openers => and_congr_right fun _ => ?_
  exact ⟨fun h => (Except.ok.inj h).symm, fun h => congrArg Except.ok h.symm⟩

theorem codeLine_eq_ok_iff {n : Nat} {s t : State} {text : List Char} :
    codeLine width n s text = .ok t ↔
      ∃ l openers, (leadingClosers text).length ≤ s.openers.length ∧
        scan n s.lexical s.openers text = .ok (l, openers) ∧ (∀ mark, l ≠ .quoted mark) ∧
        t = ⟨l, openers,
          indented width (depth (s.openers.drop (leadingClosers text).length)) text ::
            (if leadingClosers text = [] then s.written else popBlank s.written)⟩ := by
  rw [codeLine]
  by_cases hlength : (leadingClosers text).length ≤ s.openers.length
  · rw [List.getElem?_eq_none hlength]
    simp only [hlength, true_and]
    rw [bind_eq_ok_iff, Prod.exists]
    refine exists_congr fun l => exists_congr fun openers => and_congr_right fun _ => ?_
    cases l with
    | quoted mark => simp
    | code | blockComment =>
      simp only [ne_eq, reduceCtorEq, not_false_eq_true, implies_true, true_and]
      exact ⟨fun h => (Except.ok.inj h).symm, fun h => congrArg Except.ok h.symm⟩
  · obtain ⟨c, hc⟩ : ∃ c, (leadingClosers text)[s.openers.length]? = some c :=
      ⟨_, List.getElem?_eq_getElem (Nat.lt_of_not_le hlength)⟩
    rw [hc]
    simp [hlength]

/-- What a line that is not blank leads to. -/
theorem step_eq_ok_iff {s : Spot} {raw : List Char} (h : Text.trim raw ≠ [])
    {written : List (List Char)} {t : State} :
    step width s.number (s.state written) raw = .ok t ↔
      ∃ l openers, s.Reads (Text.trim raw) l openers ∧
        t = ⟨l, openers, s.line width (Text.trim raw) ::
          (if s.closers (Text.trim raw) = [] then written else popBlank written)⟩ := by
  rw [step]
  by_cases hl : s.lexical = .blockComment
  · have hclosers : s.closers (Text.trim raw) = [] := if_pos hl
    rw [if_pos (show (s.state written).lexical = .blockComment from hl), commentLine_eq_ok_iff]
    refine exists_congr fun l => exists_congr fun openers => and_congr ?_ ?_
    · refine ⟨fun hscan => ⟨?_, hscan, fun hne => absurd hl hne⟩, fun hreads => hreads.scan⟩
      rw [hclosers]
      exact Nat.zero_le _
    · rw [Spot.line, hclosers]
      rfl
  · have hclosers : s.closers (Text.trim raw) = leadingClosers (Text.trim raw) := if_neg hl
    rw [if_neg (show (s.state written).lexical ≠ .blockComment from hl), if_neg h,
      codeLine_eq_ok_iff]
    refine exists_congr fun l => exists_congr fun openers => ?_
    rw [Spot.line, hclosers, ← and_assoc, ← and_assoc]
    refine and_congr_left fun _ => ⟨?_, fun hreads => ?_⟩
    · rintro ⟨⟨hlength, hscan⟩, hended⟩
      exact ⟨hclosers ▸ hlength, hscan, fun _ => hended⟩
    · exact ⟨⟨hclosers ▸ hreads.closers, hreads.scan⟩, hreads.ended hl⟩

theorem Spot.trim_line (s : Spot) (text : List Char) :
    Text.trim (s.line width text) = Text.trim text := by
  rw [Text.trim, line, trimStart_indented, ← Text.trim]

/-! ## Blank lines -/

/-- The lines `base`, the latest first, have been written up to the last one that is not blank. -/
structure Spot.Base (s : Spot) (base : List (List Char)) : Prop where
  head : base.head? = s.last
  ne_nil : s.last ≠ some []

/-- What has been written at the spot: the blank lines that are pending, and `base` before them. -/
def Spot.written (s : Spot) (base : List (List Char)) : List (List Char) :=
  List.replicate s.pending [] ++ base

namespace Spot.Base

variable {s : Spot} {base : List (List Char)}

theorem popBlank_eq (h : s.Base base) : popBlank base = base := by
  cases base with
  | nil => rfl
  | cons line base =>
    cases line with
    | nil => exact absurd h.head.symm h.ne_nil
    | cons c line => rfl

theorem pushBlank_eq (h : s.Base base) :
    pushBlank base = List.replicate (if s.last = none then 0 else 1) [] ++ base := by
  rw [← h.head]
  cases base with
  | nil => rfl
  | cons line base =>
    cases line with
    | nil => exact absurd h.head.symm h.ne_nil
    | cons c line => rfl

theorem written_blank (h : s.Base base) :
    (if s.lexical = .blockComment then [] :: s.written base else pushBlank (s.written base)) =
      s.blank.written base := by
  by_cases hl : s.lexical = .blockComment
  · simp [Spot.written, Spot.pending, Spot.blank, hl, List.replicate_succ]
  · rw [if_neg hl, Spot.written, Spot.written, Spot.pending, Spot.pending, if_neg hl,
      show s.blank.lexical = s.lexical from rfl, if_neg hl, show s.blank.last = s.last from rfl]
    cases hblanks : s.blanks with
    | zero => simpa [Spot.blank, hblanks] using h.pushBlank_eq
    | succ k =>
      by_cases hlast : s.last = none
      · simpa [hlast] using h.pushBlank_eq
      · simp [hlast, Spot.blank, hblanks, pushBlank]

/-- A line that starts with a closing bracket takes away the blank line before it. -/
theorem written_of_closers (h : s.Base base) (text : List Char) :
    (if s.closers text = [] then s.written base else popBlank (s.written base)) =
      List.replicate (s.kept text) [] ++ base := by
  by_cases hclosers : s.closers text = []
  · rw [if_pos hclosers, Spot.kept, if_pos hclosers]
    rfl
  · have hl : s.lexical ≠ .blockComment := fun hl => hclosers (if_pos hl)
    rw [if_neg hclosers, Spot.kept, if_neg hclosers, Spot.written, Spot.pending, if_neg hl]
    have hfew : (if s.last = none then 0 else min s.blanks 1) ≤ 1 := by
      split_ifs <;> omega
    rcases Nat.le_one_iff_eq_zero_or_eq_one.mp hfew with hnone | hone
    · rw [hnone]
      exact h.popBlank_eq
    · rw [hone]
      rfl

end Spot.Base

/-- What is left of blank lines in front of a line that is not blank. -/
theorem dropAfterOpener_replicate {line : List Char} (h : line ≠ []) (b : Bool) (n : Nat)
    (rest : List (List Char)) :
    dropAfterOpener b (List.replicate n [] ++ line :: rest) =
      List.replicate (if b then 0 else n) [] ++ line :: dropAfterOpener (opensBlock line) rest := by
  have hblank : opensBlock [] = false := rfl
  induction n generalizing b with
  | zero => cases b <;> exact dropAfterOpener_cons h _ rest
  | succ n ih =>
    rw [List.replicate_succ, List.cons_append, dropAfterOpener]
    cases b with
    | true => simpa using ih true
    | false => simpa [hblank, List.replicate_succ] using ih false

theorem dropTrailing_append {line : List Char} (h : line ≠ []) (before after : List (List Char)) :
    dropTrailing (before ++ line :: after) = before ++ line :: dropTrailing after := by
  rw [dropTrailing, dropTrailing, List.reverse_append, List.reverse_cons, List.append_assoc,
    List.singleton_append, List.dropWhile_append,
    List.dropWhile_cons_of_neg (by simpa using h)]
  split_ifs with hall
  · rw [List.isEmpty_iff.mp hall]
    simp
  · simp

theorem dropTrailing_replicate (n : Nat) : dropTrailing (List.replicate n []) = [] := by
  simp [dropTrailing]

theorem dropAfterOpener_blanks (b : Bool) (n : Nat) :
    ∃ k, dropAfterOpener b (List.replicate n []) = List.replicate k [] := by
  have hblank : opensBlock [] = false := rfl
  induction n generalizing b with
  | zero => exact ⟨0, rfl⟩
  | succ n ih =>
    rw [List.replicate_succ, dropAfterOpener]
    split_ifs
    · exact ih true
    · obtain ⟨k, hk⟩ := ih false
      exact ⟨k + 1, by rw [hblank, hk, List.replicate_succ]⟩

/-- What becomes of the lines that are written behind the last line. -/
def Spot.settle (s : Spot) (more : List (List Char)) : List (List Char) :=
  dropTrailing (dropAfterOpener (s.last.any opensBlock) more)

theorem Spot.settle_pending (s : Spot) : s.settle (List.replicate s.pending []) = [] := by
  obtain ⟨k, hk⟩ := dropAfterOpener_blanks (s.last.any opensBlock) s.pending
  rw [settle, hk, dropTrailing_replicate]

theorem Spot.settle_line (s : Spot) {text : List Char} (h : text ≠ []) (l : Lexical)
    (openers : Openers) (more : List (List Char)) :
    s.settle (List.replicate (s.kept text) [] ++ s.line width text :: more) =
      List.replicate (s.spacing text) [] ++
        s.line width text :: (s.after width text l openers).settle more := by
  have hline : s.line width text ≠ [] := indented_ne_nil h
  rw [settle, dropAfterOpener_replicate hline, dropTrailing_append hline, spacing]
  rfl

/-! ## All lines -/

theorem Spot.written_after (s : Spot) (text : List Char) (l : Lexical) (openers : Openers)
    (base : List (List Char)) : (s.after width text l openers).written base = base := by
  have hpending : (s.after width text l openers).pending = 0 := by
    simp [Spot.pending, Spot.after]
  rw [written, hpending]
  rfl

theorem Spot.Base.blank {s : Spot} {base : List (List Char)} (h : s.Base base) :
    s.blank.Base base :=
  ⟨h.head, h.ne_nil⟩

theorem Spot.base_after (s : Spot) {text : List Char} (h : text ≠ []) (l : Lexical)
    (openers : Openers) (rest : List (List Char)) :
    (s.after width text l openers).Base (s.line width text :: rest) :=
  ⟨rfl, fun e => indented_ne_nil h (Option.some.inj e)⟩

/-- The lines that a run writes are laid out. -/
theorem exists_laid_of_run {lines : List (List Char)} {s : Spot} {base : List (List Char)}
    (hbase : s.Base base) {t : State}
    (hrun : run width s.number (s.state (s.written base)) lines = .ok t) (ht : t.openers = []) :
    ∃ more, t.written.reverse = base.reverse ++ more ∧ Laid width s lines (s.settle more) := by
  induction lines generalizing s base with
  | nil =>
    obtain rfl : s.state (s.written base) = t := Except.ok.inj hrun
    refine ⟨List.replicate s.pending [], ?_, ?_⟩
    · simp [Spot.state, Spot.written]
    · rw [s.settle_pending]
      exact .nil ht
  | cons raw lines ih =>
    obtain ⟨t', hstep, hrest⟩ := bind_eq_ok_iff.mp hrun
    by_cases hraw : Text.trim raw = []
    · rw [step_of_trim_eq_nil hraw, hbase.written_blank] at hstep
      obtain rfl := Except.ok.inj hstep
      obtain ⟨more, hwritten, hlaid⟩ := ih hbase.blank hrest
      exact ⟨more, hwritten, .blank hraw hlaid⟩
    · obtain ⟨l, openers, hreads, rfl⟩ := (step_eq_ok_iff hraw).mp hstep
      rw [hbase.written_of_closers] at hrest
      obtain ⟨more, hwritten, hlaid⟩ := ih (s.base_after hraw l openers _)
        (by rw [s.written_after]; exact hrest)
      refine ⟨List.replicate (s.kept (Text.trim raw)) [] ++ s.line width (Text.trim raw) :: more,
        ?_, ?_⟩
      · rw [hwritten]
        simp
      · rw [s.settle_line hraw l openers]
        exact .line hraw hreads hlaid

/-- Lines that can be laid out are written by a run. -/
theorem Laid.exists_run {lines out : List (List Char)} {s : Spot} (h : Laid width s lines out) :
    ∀ {base : List (List Char)}, s.Base base → ∃ t more,
      run width s.number (s.state (s.written base)) lines = .ok t ∧ t.openers = [] ∧
        t.written.reverse = base.reverse ++ more ∧ s.settle more = out := by
  induction h with
  | @nil s hopeners =>
    intro base hbase
    refine ⟨s.state (s.written base), List.replicate s.pending [], rfl, hopeners, ?_,
      s.settle_pending⟩
    simp [Spot.state, Spot.written]
  | @blank s raw lines out hraw hlaid ih =>
    intro base hbase
    obtain ⟨t, more, hrun, ht, hwritten, hsettle⟩ := ih hbase.blank
    have hstep : step width s.number (s.state (s.written base)) raw = _ :=
      step_of_trim_eq_nil hraw (s.written base)
    rw [hbase.written_blank] at hstep
    exact ⟨t, more, by rw [run_cons hstep]; exact hrun, ht, hwritten, hsettle⟩
  | @line s raw lines out l openers hraw hreads hlaid ih =>
    intro base hbase
    obtain ⟨t, more, hrun, ht, hwritten, hsettle⟩ := ih (s.base_after hraw l openers
      (List.replicate (s.kept (Text.trim raw)) [] ++ base))
    rw [s.written_after] at hrun
    have hstep : step width s.number (s.state (s.written base)) raw = .ok _ :=
      (step_eq_ok_iff hraw).mpr ⟨l, openers, hreads, rfl⟩
    rw [hbase.written_of_closers] at hstep
    refine ⟨t, List.replicate (s.kept (Text.trim raw)) [] ++ s.line width (Text.trim raw) :: more,
      by rw [run_cons hstep]; exact hrun, ht, ?_, ?_⟩
    · rw [hwritten]
      simp
    · rw [s.settle_line hraw l openers, hsettle]

theorem base_start : Spot.start.Base [] :=
  ⟨rfl, nofun⟩

/-- Two passes over the lines lay them out as one does. -/
theorem layoutLines_eq_ok_iff {lines out : List (List Char)} :
    layoutLines width lines = .ok out ↔ Laid width Spot.start lines out := by
  rw [layoutLines, bind_eq_ok_iff]
  constructor
  · rintro ⟨t, hrun, hfinish⟩
    cases hlast : t.openers.getLast? with
    | some o =>
      rw [hlast] at hfinish
      cases hfinish
    | none =>
      rw [hlast] at hfinish
      obtain ⟨more, hwritten, hlaid⟩ :=
        exists_laid_of_run base_start hrun (List.getLast?_eq_none_iff.mp hlast)
      rw [hwritten] at hfinish
      obtain rfl := Except.ok.inj hfinish
      exact hlaid
  · intro hlaid
    obtain ⟨t, more, hrun, ht, hwritten, hsettle⟩ := hlaid.exists_run base_start
    refine ⟨t, hrun, ?_⟩
    rw [ht, hwritten, ← hsettle]
    rfl

/-! ## Lines of a text -/

theorem not_mem_of_mem_splitOn {c : Char} {s line : List Char} (h : line ∈ s.splitOn c) :
    c ∉ line := by
  induction s generalizing line with
  | nil =>
    obtain rfl := List.mem_singleton.mp h
    exact List.not_mem_nil
  | cons d s ih =>
    rw [List.splitOn_cons_eq_if_modifyHead] at h
    split_ifs at h with hd
    · rcases List.mem_cons.mp h with rfl | h
      · exact List.not_mem_nil
      · exact ih h
    · obtain ⟨first, rest, hsplit⟩ := List.exists_cons_of_ne_nil (List.splitOn_ne_nil c s)
      rw [hsplit, List.modifyHead_cons] at h
      rw [hsplit] at ih
      rcases List.mem_cons.mp h with rfl | h
      · have hne : d ≠ c := by simpa using hd
        exact List.not_mem_cons_of_ne_of_not_mem hne.symm (ih List.mem_cons_self)
      · exact ih (List.mem_cons_of_mem first h)

theorem newline_not_mem_linesOf (code : List Char) : ∀ line ∈ linesOf code, '\n' ∉ line := by
  intro line hline
  rw [linesOf] at hline
  split_ifs at hline
  · exact not_mem_of_mem_splitOn (List.dropLast_subset _ hline)
  · exact not_mem_of_mem_splitOn hline

/-- What holds of a blank line and of the lines indented holds of the lines laid out. -/
theorem Laid.forall_mem {P : List Char → Prop} {lines out : List (List Char)} {s : Spot}
    (h : Laid width s lines out) (hblank : P [])
    (hlines : ∀ raw ∈ lines, ∀ level, P (indented width level (Text.trim raw))) :
    ∀ line ∈ out, P line := by
  induction h with
  | nil => exact nofun
  | blank _ _ ih => exact ih (List.forall_mem_cons.mp hlines).2
  | line _ _ _ ih =>
    obtain ⟨hraw, hrest⟩ := List.forall_mem_cons.mp hlines
    refine List.forall_mem_append.mpr ⟨fun blank hmem => ?_,
      List.forall_mem_cons.mpr ⟨hraw _, ih hrest⟩⟩
    rw [(List.mem_replicate.mp hmem).2]
    exact hblank

theorem Laid.newline_not_mem {lines out : List (List Char)} {s : Spot}
    (h : Laid width s lines out) (hlines : ∀ line ∈ lines, '\n' ∉ line) :
    ∀ line ∈ out, '\n' ∉ line := by
  refine h.forall_mem List.not_mem_nil fun raw hraw level hmem => ?_
  unfold indented at hmem
  split_ifs at hmem
  · cases hmem
  · rcases List.mem_append.mp hmem with hspace | htext
    · cases (List.mem_replicate.mp hspace).2
    · exact hlines raw hraw (Text.mem_of_mem_trim htext)

end Layout

theorem layout_eq_ok_iff {width : Nat} {code out : String} :
    layout width code = .ok out ↔ ∃ lines,
      Layout.Laid width Layout.Spot.start (Layout.linesOf code.toList) lines ∧
        String.ofList (Layout.unlines lines) = out := by
  rw [layout, Layout.bind_eq_ok_iff]
  refine exists_congr fun lines => and_congr Layout.layoutLines_eq_ok_iff ?_
  exact ⟨Except.ok.inj, congrArg Except.ok⟩

/-- What a layout leads to is made of the lines laid out. -/
theorem layout_lines {width : Nat} {code out : String} (h : layout width code = .ok out) :
    Layout.Laid width Layout.Spot.start (Layout.linesOf code.toList)
        (Layout.linesOf out.toList) ∧
      Layout.unlines (Layout.linesOf out.toList) = out.toList := by
  obtain ⟨lines, hlaid, rfl⟩ := layout_eq_ok_iff.mp h
  have hlines := hlaid.newline_not_mem (Layout.newline_not_mem_linesOf code.toList)
  rw [String.toList_ofList, Layout.linesOf_unlines hlines]
  exact ⟨hlaid, rfl⟩

end LoadTest

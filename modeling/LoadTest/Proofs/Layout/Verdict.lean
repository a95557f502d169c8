import LoadTest.Proofs.Layout.Inspection

/-!
What a layout refuses.

A layout is refused for the first thing that is wrong with the script, with one exception: on a line
that starts in a comment a quoted text may be left open (`Spills`, `layout_agrees_iff`).  It is also
reported as what it is, but for the bracket of a line that starts with more closing brackets than
are open: there it is the first bracket that is too many, even if one before it does not fit
(`found_of_layout_eq_error`).
-/

namespace LoadTest
namespace Layout

/-- Two errors of one kind on one line. -/
def Error.Alike : Error → Error → Prop
  | .unbalanced n _, .unbalanced m _ => n = m
  | e, e' => e = e'

/-- What becomes of a script is what is said of it. -/
def Agrees : Except Error String → Except Error Unit → Prop
  | .ok _, .ok _ => True
  | .error e, .error e' => e.Alike e'
  | _, _ => False

/-- A quoted text is left open on a line that starts in a comment, and nothing is wrong before. -/
def Spills (s : Reader) (lines : List (List Char)) : Prop :=
  ∃ before line after t u, lines = before ++ line :: after ∧
    s.readAll (unlines before) = .ok t ∧ t.context = .blockComment ∧
      t.readAll line = .ok u ∧ u.context.isQuoted = true

/-- The lines in front of the line `raw`, which has the number `n`, are laid out and leave the state
`s`. -/
def Reaches (width : Nat) (code : String) (n : Nat) (s : State) (raw : List Char) : Prop :=
  ∃ before after, linesOf code.toList = before ++ raw :: after ∧ n = 1 + before.length ∧
    run width 1 .start before = .ok s

/-- The line starts with more closing brackets than are open. -/
def State.Overshoots (s : State) (raw : List Char) : Prop :=
  s.lexical ≠ .blockComment ∧ s.openers.length < (leadingClosers (Text.trim raw)).length

/-- The first of some closing brackets that does not close the innermost bracket open there. -/
def misfit? : Openers → List Char → Option Char
  | _, [] => none
  | [], c :: _ => some c
  | o :: openers, c :: closers =>
    if closerOf o.bracket = c then misfit? openers closers else some c

/-! ## Closing brackets at the start of a line -/

theorem turn_of_isCloser {c : Char} (h : isCloser c = true) (n : Nat) (openers : Openers) :
    turn n openers c =
      match openers with
      | o :: rest => if closerOf o.bracket = c then .ok rest else .error (.unbalanced n c)
      | [] => .error (.unbalanced n c) := by
  have hopener : isOpener c = false := by
    simp only [isCloser, Bool.or_eq_true, decide_eq_true_eq] at h
    rcases h with (rfl | rfl) | rfl <;> rfl
  unfold turn
  rw [hopener]
  rfl

/-- Of too many closing brackets the first that does not fit is the one that is refused. -/
theorem exists_misfit {n : Nat} {openers : Openers} {closers : List Char}
    (hclosers : ∀ c ∈ closers, isCloser c = true) (h : openers.length < closers.length)
    (more : List Char) : ∃ c, misfit? openers closers = some c ∧
      (closers ++ more).foldlM (turn n) openers = .error (.unbalanced n c) := by
  induction closers generalizing openers with
  | nil => cases h
  | cons c closers ih =>
    obtain ⟨hc, hclosers⟩ := List.forall_mem_cons.mp hclosers
    rw [List.cons_append, List.foldlM_cons, turn_of_isCloser hc]
    cases openers with
    | nil => exact ⟨c, rfl, rfl⟩
    | cons o openers =>
      rw [misfit?]
      by_cases hfits : closerOf o.bracket = c
      · obtain ⟨d, hd, hturns⟩ := ih hclosers (Nat.lt_of_succ_lt_succ h)
        refine ⟨d, by rw [if_pos hfits, hd], ?_⟩
        simp only [if_pos hfits]
        exact hturns
      · exact ⟨c, if_neg hfits, by simp only [if_neg hfits]; rfl⟩

theorem isCloser_of_mem_leadingClosers {text : List Char} {c : Char}
    (h : c ∈ leadingClosers text) : isCloser c = true :=
  (List.mem_filter.mp h).2

/-- The closing brackets that a line of code starts with are the first brackets of it that count. -/
theorem leadingClosers_prefix (text : List Char) :
    leadingClosers text <+: Lexical.code.brackets text := by
  induction text with
  | nil => exact List.nil_prefix
  | cons c r ih =>
    by_cases hc : isCloser c = true
    · have hbrackets : Lexical.code.brackets (c :: r) = c :: Lexical.code.brackets r := by
        simp only [isCloser, Bool.or_eq_true, decide_eq_true_eq] at hc
        rcases hc with (rfl | rfl) | rfl <;>
          simp [Lexical.brackets, Lexical.read, isQuote, isOpener, isCloser]
      rw [leadingClosers, List.takeWhile_cons_of_pos (by simp [hc]), List.filter_cons_of_pos hc,
        hbrackets]
      exact (List.prefix_cons_inj c).mpr ih
    · by_cases hgap : c = ' ' ∨ c = ';' ∨ c = ','
      · have hbrackets : Lexical.code.brackets (c :: r) = Lexical.code.brackets r := by
          rcases hgap with rfl | rfl | rfl <;>
            simp [Lexical.brackets, Lexical.read, isQuote, isOpener, isCloser]
        rw [leadingClosers, List.takeWhile_cons_of_pos (by simpa [hc, or_assoc] using hgap),
          List.filter_cons_of_neg hc, hbrackets]
        exact ih
      · rw [leadingClosers, List.takeWhile_cons_of_neg (by simpa [hc, and_assoc] using hgap)]
        exact List.nil_prefix

/-! ## One line -/

/-- No quoted text is left open. -/
def State.Unquoted (s : State) : Prop :=
  ∀ mark, s.lexical ≠ .quoted mark

/-- What is known at the start of the line `n`. -/
def State.reader (s : State) (n : Nat) : Reader :=
  ⟨n, s.lexical.context, s.openers⟩

namespace Reader

theorem readAll_newline {s : Reader} (h : s.context.isQuoted = false) :
    s.readAll ['\n'] = .ok ⟨s.line + 1, s.context.lexical.context, s.openers⟩ := by
  obtain ⟨n, k, openers⟩ := s
  cases k <;> first | rfl | cases h

theorem readAll_newline_of_isQuoted {s : Reader} (h : s.context.isQuoted = true) :
    s.readAll ['\n'] = .error (.unterminatedString s.line) := by
  rw [readAll, List.foldlM_cons, read, if_pos rfl, if_pos h]
  rfl

theorem line_of_readAll {s t : Reader} {text : List Char} (h : '\n' ∉ text)
    (hread : s.readAll text = .ok t) : t.line = s.line := by
  rw [readAll_of_newline_not_mem s h] at hread
  cases hturns : (s.context.brackets text).foldlM (turn s.line) s.openers with
  | error e =>
    rw [hturns] at hread
    cases hread
  | ok openers =>
    rw [hturns] at hread
    cases hread
    rfl

end Reader

section Line

variable {width n : Nat} {s s' : State} {raw : List Char} {e : Error}

theorem State.Unquoted.markIsNoBlank (hs : s.Unquoted) : s.lexical.context.MarkIsNoBlank := by
  intro mark hmark
  rw [Lexical.lexical_context] at hmark
  exact absurd hmark (hs mark)

/-- A line that is not scanned to its end is not read to it, for the same reason. -/
theorem readAll_of_scan_eq_error (hs : s.Unquoted) (hraw : '\n' ∉ raw)
    (h : scan n s.lexical s.openers (Text.trim raw) = .error e) :
    (s.reader n).readAll raw = .error e := by
  rw [scan_trim hs.markIsNoBlank hraw] at h
  show (⟨n, s.lexical.context, s.openers⟩ : Reader).readAll raw = .error e
  cases hread : (⟨n, s.lexical.context, s.openers⟩ : Reader).readAll raw with
  | error e' =>
    rw [hread] at h
    exact congrArg Except.error (Except.error.inj h)
  | ok t =>
    rw [hread] at h
    cases h

theorem readAll_of_scan_eq_ok (hs : s.Unquoted) (hraw : '\n' ∉ raw) {l : Lexical}
    {openers : Openers} (h : scan n s.lexical s.openers (Text.trim raw) = .ok (l, openers)) :
    ∃ t, (s.reader n).readAll raw = .ok t ∧ t.line = n ∧ t.context.lexical = l ∧
      t.openers = openers := by
  rw [scan_trim hs.markIsNoBlank hraw] at h
  cases hread : (s.reader n).readAll raw with
  | error e =>
    rw [State.reader] at hread
    rw [hread] at h
    cases h
  | ok t =>
    have hline : t.line = n := Reader.line_of_readAll hraw hread
    rw [State.reader] at hread
    rw [hread] at h
    obtain ⟨hl, hopeners⟩ := Prod.mk.inj (Except.ok.inj h)
    exact ⟨t, rfl, hline, hl, hopeners⟩

theorem scan_of_step (h : step width n s raw = .ok s') :
    scan n s.lexical s.openers (Text.trim raw) = .ok (s'.lexical, s'.openers) ∧
      (s.lexical ≠ .blockComment → s.Unquoted → s'.Unquoted) := by
  simp only [step] at h
  split_ifs at h with hl hblank
  · obtain ⟨l, openers, hscan, rfl⟩ := commentLine_eq_ok_iff.mp h
    exact ⟨hscan, fun hne => absurd hl hne⟩
  · cases h
    rw [hblank]
    exact ⟨by cases s.lexical <;> rfl, fun _ hs => hs⟩
  · obtain ⟨l, openers, -, hscan, hended, rfl⟩ := codeLine_eq_ok_iff.mp h
    exact ⟨hscan, fun _ _ => hended⟩

/-- A line that is laid out is read to its end, or a quoted text is left open on it. -/
theorem readAll_of_step (hs : s.Unquoted) (hraw : '\n' ∉ raw) (h : step width n s raw = .ok s') :
    ((s.reader n).readAll (raw ++ ['\n']) = .ok (s'.reader (n + 1)) ∧ s'.Unquoted) ∨
      s.lexical = .blockComment ∧
        ∃ t, (s.reader n).readAll raw = .ok t ∧ t.context.isQuoted = true := by
  obtain ⟨hscan, hunquoted⟩ := scan_of_step h
  obtain ⟨t, hread, hline, hl, hopeners⟩ := readAll_of_scan_eq_ok hs hraw hscan
  by_cases hquoted : t.context.isQuoted = true
  · right
    refine ⟨?_, t, hread, hquoted⟩
    by_contra hne
    obtain ⟨mark, hmark⟩ := Context.isQuoted_iff.mp hquoted
    exact hunquoted hne hs mark (hl ▸ hmark)
  · left
    refine ⟨?_, fun mark hmark => hquoted (Context.isQuoted_iff.mpr ⟨mark, hl.trans hmark⟩)⟩
    rw [Reader.readAll_append, hread]
    show t.readAll ['\n'] = _
    rw [Reader.readAll_newline (Bool.not_eq_true _ ▸ hquoted), hline, hl, hopeners]
    rfl

/-- Scanning refuses brackets only. -/
theorem exists_found_of_scan {l : Lexical} {openers : Openers} {text : List Char}
    (h : scan n l openers text = .error e) : ∃ c, e = .unbalanced n c := by
  fun_induction scan n l openers text <;> grind

theorem codeLine_eq_error {text : List Char} (h : codeLine width n s text = .error e) :
    (∃ found, (leadingClosers text)[s.openers.length]? = some found ∧ e = .unbalanced n found) ∨
      ((leadingClosers text).length ≤ s.openers.length ∧
        scan n s.lexical s.openers text = .error e) ∨
      e = .unterminatedString n ∧
        ∃ mark openers, scan n s.lexical s.openers text = .ok (.quoted mark, openers) := by
  rw [codeLine] at h
  cases hfound : (leadingClosers text)[s.openers.length]? with
  | some found =>
    rw [hfound] at h
    exact .inl ⟨found, rfl, (Except.error.inj h).symm⟩
  | none =>
    rw [hfound] at h
    right
    rcases bind_eq_error_iff.mp h with hscan | ⟨⟨l, openers⟩, hscan, hended⟩
    · exact .inl ⟨List.getElem?_eq_none_iff.mp hfound, hscan⟩
    · cases l with
      | quoted mark => exact .inr ⟨(Except.error.inj hended).symm, mark, openers, hscan⟩
      | code | blockComment => cases hended

/-- The three reasons for which a line is refused. -/
theorem step_eq_error (h : step width n s raw = .error e) :
    (s.Overshoots raw ∧ ∃ found, (leadingClosers (Text.trim raw))[s.openers.length]? = some found ∧
        e = .unbalanced n found) ∨
      (¬ s.Overshoots raw ∧ scan n s.lexical s.openers (Text.trim raw) = .error e) ∨
      s.lexical ≠ .blockComment ∧ e = .unterminatedString n ∧
        ∃ mark openers, scan n s.lexical s.openers (Text.trim raw) = .ok (.quoted mark, openers) := by
  simp only [step] at h
  split_ifs at h with hl hblank
  · right
    left
    refine ⟨fun hover => hover.1 hl, ?_⟩
    rcases bind_eq_error_iff.mp h with hscan | ⟨_, -, hdone⟩
    · exact hscan
    · cases hdone
  · rcases codeLine_eq_error h with ⟨found, hfound, he⟩ | ⟨hlength, hscan⟩ | ⟨he, hscan⟩
    · exact .inl ⟨⟨hl, (List.getElem?_eq_some_iff.mp hfound).1⟩, found, hfound, he⟩
    · exact .inr (.inl ⟨fun hover => Nat.not_lt.mpr hlength hover.2, hscan⟩)
    · exact .inr (.inr ⟨hl, he, hscan⟩)

/-- A line with too many closing brackets in front is refused. -/
theorem exists_found_of_overshoots (h : s.Overshoots raw) (width n : Nat) :
    ∃ found, step width n s raw = .error (.unbalanced n found) := by
  obtain ⟨hl, hlength⟩ := h
  have hraw : Text.trim raw ≠ [] := by
    intro hblank
    rw [hblank] at hlength
    cases hlength
  simp only [step]
  rw [if_neg hl, if_neg hraw, codeLine, List.getElem?_eq_getElem hlength]
  exact ⟨_, rfl⟩

/-- Of the brackets of a line that does not fit, `c` comes first and `found` is reported. -/
structure State.Reports (s : State) (raw : List Char) (found c : Char) : Prop where
  misfit : s.Overshoots raw → misfit? s.openers (leadingClosers (Text.trim raw)) = some c
  same : ¬ s.Overshoots raw → c = found

/-- A line that is refused is read up to a bracket that does not fit, or a quoted text is left open
on it. -/
theorem readAll_of_step_eq_error (hs : s.Unquoted) (hraw : '\n' ∉ raw)
    (h : step width n s raw = .error e) :
    (∃ found c, e = .unbalanced n found ∧
        (s.reader n).readAll raw = .error (.unbalanced n c) ∧ s.Reports raw found c) ∨
      e = .unterminatedString n ∧
        ∃ t, (s.reader n).readAll raw = .ok t ∧ t.context.isQuoted = true := by
  rcases step_eq_error h with ⟨hover, found, -, rfl⟩ | ⟨hover, hscan⟩ | ⟨-, rfl, mark, _, hscan⟩
  · left
    have hcode : s.lexical = .code := by
      cases hl : s.lexical with
      | code => rfl
      | quoted mark => exact absurd hl (hs mark)
      | blockComment => exact absurd hl hover.1
    obtain ⟨more, hmore⟩ := leadingClosers_prefix (Text.trim raw)
    obtain ⟨c, hmisfit, hturns⟩ := exists_misfit (n := n)
      (fun c hc => isCloser_of_mem_leadingClosers hc) hover.2 more
    have hscan : scan n s.lexical s.openers (Text.trim raw) = .error (.unbalanced n c) := by
      rw [hcode, scan_eq, ← hmore, hturns]
      rfl
    exact ⟨found, c, rfl, readAll_of_scan_eq_error hs hraw hscan, fun _ => hmisfit,
      fun hne => absurd hover hne⟩
  · left
    obtain ⟨c, rfl⟩ := exists_found_of_scan hscan
    exact ⟨c, c, rfl, readAll_of_scan_eq_error hs hraw hscan, fun hover' => absurd hover' hover,
      fun _ => rfl⟩
  · right
    obtain ⟨t, hread, -, hl, -⟩ := readAll_of_scan_eq_ok hs hraw hscan
    exact ⟨rfl, t, hread, Context.isQuoted_iff.mpr ⟨mark, hl⟩⟩

end Line

/-! ## All lines -/

theorem unlines_append (lines more : List (List Char)) :
    unlines (lines ++ more) = unlines lines ++ unlines more :=
  List.flatMap_append

theorem unlines_cons (line : List Char) (lines : List (List Char)) :
    unlines (line :: lines) = (line ++ ['\n']) ++ unlines lines :=
  List.flatMap_cons

namespace Spills

variable {s t : Reader} {line : List Char} {lines : List (List Char)}

theorem cons (hread : s.readAll (line ++ ['\n']) = .ok t) (h : Spills t lines) :
    Spills s (line :: lines) := by
  obtain ⟨before, spilled, after, u, v, rfl, hbefore, hrest⟩ := h
  refine ⟨line :: before, spilled, after, u, v, rfl, ?_, hrest⟩
  rw [unlines_cons, Reader.readAll_append, hread]
  exact hbefore

theorem append (h : Spills s lines) (more : List (List Char)) : Spills s (lines ++ more) := by
  obtain ⟨before, spilled, after, u, v, rfl, hrest⟩ := h
  exact ⟨before, spilled, after ++ more, u, v, by simp, hrest⟩

end Spills

section Lines

variable {width n : Nat} {s s' : State} {lines : List (List Char)} {e : Error}

/-- Lines that are laid out are read to their end, or a quoted text is left open on one that starts
in a comment. -/
theorem readAll_of_run (hs : s.Unquoted) (hlines : ∀ line ∈ lines, '\n' ∉ line)
    (h : run width n s lines = .ok s') :
    ((s.reader n).readAll (unlines lines) = .ok (s'.reader (n + lines.length)) ∧ s'.Unquoted) ∨
      Spills (s.reader n) lines := by
  induction lines generalizing n s with
  | nil =>
    cases h
    exact .inl ⟨rfl, hs⟩
  | cons raw lines ih =>
    obtain ⟨hraw, hlines⟩ := List.forall_mem_cons.mp hlines
    obtain ⟨middle, hstep, hrun⟩ := bind_eq_ok_iff.mp h
    rcases readAll_of_step hs hraw hstep with ⟨hread, hmiddle⟩ | ⟨hl, t, hread, hquoted⟩
    · refine (ih hmiddle hlines hrun).imp ?_ (Spills.cons hread)
      rintro ⟨hrest, hs'⟩
      refine ⟨?_, hs'⟩
      rw [unlines_cons, Reader.readAll_append, hread, List.length_cons, Nat.add_comm lines.length,
        ← Nat.add_assoc]
      exact hrest
    · exact .inr ⟨[], raw, lines, s.reader n, t, rfl, rfl, by rw [State.reader, hl]; rfl, hread,
        hquoted⟩

/-- A run is stopped by one of its lines. -/
theorem exists_of_run_eq_error (h : run width n s lines = .error e) :
    ∃ before raw after s', lines = before ++ raw :: after ∧ run width n s before = .ok s' ∧
      step width (n + before.length) s' raw = .error e := by
  induction lines generalizing n s with
  | nil => cases h
  | cons raw lines ih =>
    rcases bind_eq_error_iff.mp h with hstep | ⟨middle, hstep, hrun⟩
    · exact ⟨[], raw, lines, s, rfl, rfl, hstep⟩
    · obtain ⟨before, raw', after, s', rfl, hbefore, hstep'⟩ := ih hrun
      refine ⟨raw :: before, raw', after, s', rfl, ?_, ?_⟩
      · rw [run_cons hstep]
        exact hbefore
      · rw [List.length_cons, Nat.add_comm before.length, ← Nat.add_assoc]
        exact hstep'

theorem line_of_readAll_unlines {s t : Reader} (hlines : ∀ line ∈ lines, '\n' ∉ line)
    (h : s.readAll (unlines lines) = .ok t) : t.line = s.line + lines.length := by
  induction lines generalizing s with
  | nil =>
    cases h
    rfl
  | cons line lines ih =>
    obtain ⟨hline, hlines⟩ := List.forall_mem_cons.mp hlines
    rw [unlines_cons, Reader.readAll_append] at h
    obtain ⟨middle, hmiddle, hrest⟩ := bind_eq_ok_iff.mp h
    rw [Reader.readAll_append] at hmiddle
    obtain ⟨u, hu, hnewline⟩ := bind_eq_ok_iff.mp hmiddle
    have hmiddle : middle.line = u.line + 1 := by
      cases hquoted : u.context.isQuoted with
      | true =>
        rw [Reader.readAll_newline_of_isQuoted hquoted] at hnewline
        cases hnewline
      | false =>
        rw [Reader.readAll_newline hquoted] at hnewline
        cases hnewline
        rfl
    rw [ih hlines hrest, hmiddle, Reader.line_of_readAll hline hu, List.length_cons]
    omega

theorem readAll_eq_error_of_isQuoted {t u : Reader} {raw : List Char} (hraw : '\n' ∉ raw)
    (hread : t.readAll raw = .ok u) (hquoted : u.context.isQuoted = true) :
    t.readAll (raw ++ ['\n']) = .error (.unterminatedString t.line) := by
  rw [Reader.readAll_append, hread]
  show u.readAll ['\n'] = _
  rw [Reader.readAll_newline_of_isQuoted hquoted, Reader.line_of_readAll hraw hread]

theorem readAll_append_of_eq_error {t : Reader} {raw : List Char}
    (hread : t.readAll raw = .error e) :
    t.readAll (raw ++ ['\n']) = .error e := by
  rw [Reader.readAll_append, hread]
  rfl

/-- Nothing behind the first thing that is wrong matters. -/
theorem readAll_unlines_of_eq_error {s t : Reader} {before after : List (List Char)}
    {raw : List Char} (hbefore : s.readAll (unlines before) = .ok t)
    (hread : t.readAll (raw ++ ['\n']) = .error e) :
    s.readAll (unlines (before ++ raw :: after)) = .error e := by
  rw [unlines_append, unlines_cons, Reader.readAll_append, hbefore]
  show t.readAll ((raw ++ ['\n']) ++ unlines after) = _
  rw [Reader.readAll_append, hread]
  rfl

theorem Spills.exists_readAll {s : Reader} (hlines : ∀ line ∈ lines, '\n' ∉ line)
    (h : Spills s lines) : ∃ n, s.readAll (unlines lines) = .error (.unterminatedString n) := by
  obtain ⟨before, raw, after, t, u, rfl, hbefore, -, hread, hquoted⟩ := h
  have hraw := hlines raw (List.mem_append_right before List.mem_cons_self)
  exact ⟨t.line, readAll_unlines_of_eq_error hbefore
    (readAll_eq_error_of_isQuoted hraw hread hquoted)⟩

end Lines

/-! ## The script -/

variable {width n : Nat} {code : String} {s : State} {raw : List Char} {e : Error}

theorem layout_eq_error_of_run (h : run width 1 .start (linesOf code.toList) = .error e) :
    layout width code = .error e := by
  rw [layout, layoutLines, h]
  rfl

theorem exists_layout_of_run (h : run width 1 .start (linesOf code.toList) = .ok s) :
    (s.openers.getLast? = none ∧ ∃ out, layout width code = .ok out) ∨
      ∃ o, s.openers.getLast? = some o ∧
        layout width code = .error (.unclosed o.line o.bracket) := by
  rw [layout, layoutLines, h]
  cases hlast : s.openers.getLast? with
  | none => exact .inl ⟨rfl, _, by simp only [bind, Except.bind, hlast]; rfl⟩
  | some o => exact .inr ⟨o, rfl, by simp only [bind, Except.bind, hlast]⟩

theorem inspect_of_readAll {t : Reader}
    (h : Reader.start.readAll (unlines (linesOf code.toList)) = .ok t) :
    inspect code = t.finish := by
  rw [inspect_eq, h]
  rfl

theorem inspect_of_readAll_eq_error {before after : List (List Char)} {t : Reader}
    (h : linesOf code.toList = before ++ raw :: after)
    (hbefore : Reader.start.readAll (unlines before) = .ok t)
    (hread : t.readAll (raw ++ ['\n']) = .error e) : inspect code = .error e := by
  rw [inspect_eq, h, readAll_unlines_of_eq_error hbefore hread]
  rfl

theorem unquoted_start : State.start.Unquoted :=
  nofun

/-- Of a script in which no quoted text is left open behind a comment, a line that is reached is
reached by reading, too. -/
theorem Reaches.exists_readAll (h : Reaches width code n s raw)
    (hspills : ¬ Spills .start (linesOf code.toList)) :
    s.Unquoted ∧ '\n' ∉ raw ∧ ∃ before after, linesOf code.toList = before ++ raw :: after ∧
      Reader.start.readAll (unlines before) = .ok (s.reader n) := by
  obtain ⟨before, after, hsplit, rfl, hrun⟩ := h
  have hnewline := newline_not_mem_linesOf code.toList
  rw [hsplit] at hspills hnewline
  obtain ⟨hbefore, hraw⟩ := List.forall_mem_append.mp hnewline
  obtain ⟨hread, hs⟩ := (readAll_of_run unquoted_start hbefore hrun).resolve_right
    fun h => hspills (h.append _)
  exact ⟨hs, hraw raw List.mem_cons_self, before, after, hsplit, hread⟩

/-- A line that is refused is where the script is first wrong. -/
theorem Reaches.exists_inspect (h : Reaches width code n s raw)
    (hspills : ¬ Spills .start (linesOf code.toList)) (hstep : step width n s raw = .error e) :
    (∃ found c, e = .unbalanced n found ∧ inspect code = .error (.unbalanced n c) ∧
        s.Reports raw found c) ∨
      e = .unterminatedString n ∧ inspect code = .error (.unterminatedString n) := by
  obtain ⟨hs, hraw, before, after, hsplit, hbefore⟩ := h.exists_readAll hspills
  rcases readAll_of_step_eq_error hs hraw hstep with
    ⟨found, c, rfl, hread, hreports⟩ | ⟨rfl, t, hread, hquoted⟩
  · left
    exact ⟨found, c, rfl, inspect_of_readAll_eq_error hsplit hbefore
      (readAll_append_of_eq_error hread), hreports⟩
  · right
    exact ⟨rfl, inspect_of_readAll_eq_error hsplit hbefore
      (readAll_eq_error_of_isQuoted hraw hread hquoted)⟩

theorem exists_reaches_of_run (h : run width 1 .start (linesOf code.toList) = .error e) :
    ∃ n s raw, Reaches width code n s raw ∧ step width n s raw = .error e := by
  obtain ⟨before, raw, after, s, hsplit, hrun, hstep⟩ := exists_of_run_eq_error h
  exact ⟨_, s, raw, ⟨before, after, hsplit, rfl, hrun⟩, hstep⟩

/-- A script in which no quoted text is left open behind a comment is laid out if nothing is wrong
with it, and refused for the first thing that is. -/
theorem agrees_of_not_spills (width : Nat) (h : ¬ Spills .start (linesOf code.toList)) :
    Agrees (layout width code) (inspect code) := by
  cases hrun : run width 1 .start (linesOf code.toList) with
  | error e =>
    rw [layout_eq_error_of_run hrun]
    obtain ⟨n, s, raw, hreaches, hstep⟩ := exists_reaches_of_run hrun
    rcases hreaches.exists_inspect h hstep with ⟨found, c, rfl, hinspect, -⟩ | ⟨rfl, hinspect⟩
    · rw [hinspect]
      exact rfl
    · rw [hinspect]
      exact rfl
  | ok s =>
    obtain ⟨hread, hs⟩ := (readAll_of_run unquoted_start
      (newline_not_mem_linesOf code.toList) hrun).resolve_right h
    have hquoted : (s.reader (1 + (linesOf code.toList).length)).context.isQuoted = false := by
      rw [Bool.eq_false_iff, Ne, Context.isQuoted_iff]
      rintro ⟨mark, hmark⟩
      rw [State.reader, Lexical.lexical_context] at hmark
      exact hs mark hmark
    have hinspect := inspect_of_readAll hread
    rw [Reader.finish, if_neg (by rw [hquoted]; exact Bool.false_ne_true)] at hinspect
    rw [hinspect]
    rcases exists_layout_of_run hrun with ⟨hlast, out, hlayout⟩ | ⟨o, hlast, hlayout⟩
    · rw [hlayout, show (s.reader _).openers.getLast? = none from hlast]
      trivial
    · rw [hlayout, show (s.reader _).openers.getLast? = some o from hlast]
      exact rfl

/-- A quoted text that is left open behind a comment is not what a script is refused for. -/
theorem Spills.exists_inspect (h : Spills .start (linesOf code.toList)) :
    ∃ n, inspect code = .error (.unterminatedString n) ∧
      ∀ width, layout width code ≠ .error (.unterminatedString n) := by
  obtain ⟨before, raw, after, t, u, hsplit, hbefore, hcontext, hread, hquoted⟩ := h
  have hnewline := newline_not_mem_linesOf code.toList
  rw [hsplit] at hnewline
  obtain ⟨hlines, hraw⟩ := List.forall_mem_append.mp hnewline
  have hraw := hraw raw List.mem_cons_self
  refine ⟨t.line, inspect_of_readAll_eq_error hsplit hbefore
    (readAll_eq_error_of_isQuoted hraw hread hquoted), fun width hlayout => ?_⟩
  have hline := line_of_readAll_unlines hlines hbefore
  cases hrun : run width 1 .start (linesOf code.toList) with
  | ok s =>
    rcases exists_layout_of_run hrun with ⟨-, out, hok⟩ | ⟨o, -, hunclosed⟩
    · rw [hok] at hlayout
      cases hlayout
    · rw [hunclosed] at hlayout
      cases hlayout
  | error e =>
    rw [layout_eq_error_of_run hrun] at hlayout
    obtain ⟨n, s, raw', ⟨before', after', hsplit', hn, hrun'⟩, hstep⟩ := exists_reaches_of_run hrun
    obtain rfl := Except.error.inj hlayout
    rcases step_eq_error hstep with ⟨-, _, -, herror⟩ | ⟨-, hscan⟩ | ⟨hl, hlines', -⟩
    · cases herror
    · obtain ⟨c, herror⟩ := exists_found_of_scan hscan
      cases herror
    · -- The line that is refused would be the one that starts in a comment.
      have hlength : before.length = before'.length := by
        rw [Error.unterminatedString.injEq, hn, hline] at hlines'
        exact Nat.add_left_cancel hlines'
      obtain ⟨rfl, -⟩ := List.append_inj (hsplit.symm.trans hsplit') hlength
      rcases readAll_of_run unquoted_start hlines hrun' with ⟨hread', -⟩ | hspills
      · obtain rfl := Except.ok.inj (hbefore.symm.trans hread')
        rw [← Lexical.lexical_context s.lexical] at hl
        exact hl (congrArg Context.lexical hcontext)
      · obtain ⟨m, herror⟩ := hspills.exists_readAll hlines
        cases hbefore.symm.trans herror

end Layout

open Layout (Agrees inspect linesOf Reaches Spills leadingClosers misfit?)

/-- A script is laid out if nothing is wrong with it and refused for the first thing that is, unless
that is a quoted text which is left open on a line that starts in a comment.  A line of code that is
not refused starts with no more closing brackets than are open. -/
theorem layout_agrees_iff (width : Nat) (code : String) :
    (Agrees (layout width code) (inspect code) ↔ ¬ Spills .start (linesOf code.toList)) ∧
      ∀ n s raw, s.lexical ≠ .blockComment →
        (leadingClosers (Text.trim raw)).length ≤ s.openers.length ∨
          ∃ found, Layout.step width n s raw = .error (.unbalanced n found) := by
  refine ⟨⟨fun hagrees hspills => ?_, Layout.agrees_of_not_spills width⟩, fun n s raw hl => ?_⟩
  · obtain ⟨n, hinspect, hlayout⟩ := hspills.exists_inspect
    rw [hinspect] at hagrees
    cases hresult : layout width code with
    | ok out =>
      rw [hresult] at hagrees
      exact hagrees
    | error e =>
      rw [hresult] at hagrees
      refine hlayout width (hresult.trans (congrArg Except.error ?_))
      cases e <;> exact hagrees
  · rcases Nat.lt_or_ge s.openers.length (leadingClosers (Text.trim raw)).length with hlt | hge
    · exact .inr (Layout.exists_found_of_overshoots ⟨hl, hlt⟩ width n)
    · exact .inl hge

/-- Behind a comment a quoted text may go past its line. -/
example : layout 2 "/*\n*/ \"a\nb\"\n" = .ok "/*\n*/ \"a\nb\"\n" ∧
    inspect "/*\n*/ \"a\nb\"\n" = .error (.unterminatedString 2) := by
  decide +kernel

/-- The bracket that is reported is the first one that does not fit, unless its line starts with
more closing brackets than are open.  Then it is the first that is too many, which is the first that
does not fit only if those before it do. -/
theorem found_of_layout_eq_error {width line : Nat} {code : String} {found : Char}
    (h : layout width code = .error (.unbalanced line found)) :
    ∃ s raw, Reaches width code line s raw ∧
      (s.Overshoots raw → (leadingClosers (Text.trim raw))[s.openers.length]? = some found) ∧
      (¬ Spills .start (linesOf code.toList) →
        ∃ c, inspect code = .error (.unbalanced line c) ∧ s.Reports raw found c) ∧
      (inspect code = .error (.unbalanced line found) ↔
        ¬ Spills .start (linesOf code.toList) ∧
          (s.Overshoots raw → misfit? s.openers (leadingClosers (Text.trim raw)) = some found)) := by
  cases hrun : Layout.run width 1 .start (linesOf code.toList) with
  | ok s =>
    rcases Layout.exists_layout_of_run hrun with ⟨-, out, hok⟩ | ⟨o, -, hunclosed⟩
    · rw [hok] at h
      cases h
    · rw [hunclosed] at h
      cases h
  | error e =>
    obtain rfl := Except.error.inj ((Layout.layout_eq_error_of_run hrun).symm.trans h)
    obtain ⟨n, s, raw, hreaches, hstep⟩ := Layout.exists_reaches_of_run hrun
    obtain ⟨rfl, hexcess⟩ : n = line ∧
        (s.Overshoots raw → (leadingClosers (Text.trim raw))[s.openers.length]? = some found) := by
      rcases Layout.step_eq_error hstep with ⟨-, d, hd, he⟩ | ⟨hover, hscan⟩ | ⟨-, he, -⟩
      · cases he
        exact ⟨rfl, fun _ => hd⟩
      · obtain ⟨c, he⟩ := Layout.exists_found_of_scan hscan
        cases he
        exact ⟨rfl, fun hover' => absurd hover' hover⟩
      · cases he
    refine ⟨s, raw, hreaches, hexcess, ?_⟩
    by_cases hspills : Spills .start (linesOf code.toList)
    · obtain ⟨m, hinspect, -⟩ := hspills.exists_inspect
      simp [hinspect, hspills]
    · rcases hreaches.exists_inspect hspills hstep with ⟨_, c, he, hinspect, hreports⟩ | ⟨he, -⟩
      · cases he
        refine ⟨fun _ => ⟨c, hinspect, hreports⟩, fun hfound => ?_, fun ⟨_, hmisfit⟩ => ?_⟩
        · cases hinspect.symm.trans hfound
          exact ⟨hspills, hreports.misfit⟩
        · by_cases hover : s.Overshoots raw
          · cases (hreports.misfit hover).symm.trans (hmisfit hover)
            exact hinspect
          · cases hreports.same hover
            exact hinspect
      · cases he

/-- The square bracket does not close the round one, and the round one behind it is reported. -/
theorem found_of_layout_eq_error_call :
    let code := "f(\n]);\n"
    layout 2 code = .error (.unbalanced 2 ')') ∧ inspect code = .error (.unbalanced 2 ']') ∧
      ∃ s raw, Reaches 2 code 2 s raw ∧
        (s.Overshoots raw → (leadingClosers (Text.trim raw))[s.openers.length]? = some ')') ∧
        (¬ Spills .start (linesOf code.toList) →
          ∃ c, inspect code = .error (.unbalanced 2 c) ∧ s.Reports raw ')' c) ∧
        (inspect code = .error (.unbalanced 2 ')') ↔
          ¬ Spills .start (linesOf code.toList) ∧
            (s.Overshoots raw → misfit? s.openers (leadingClosers (Text.trim raw)) = some ')')) := by
  intro code
  have h : layout 2 code = .error (.unbalanced 2 ')') := by decide +kernel
  exact ⟨h, by decide +kernel, found_of_layout_eq_error h⟩

end LoadTest

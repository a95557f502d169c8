import LoadTest.Proofs.Layout.Laying

/-!
Reading a script character by character.

`inspect` says what is wrong with a script first: a closing bracket that does not fit, a quoted
text that goes past its line, a bracket that is never closed.  It looks at the text as it stands,
one character at a time.  A line that is scanned without the blanks at its ends says the same
(`scan_trim`), so a text can be inspected line by line (`inspect_eq`).
-/

namespace LoadTest
namespace Layout

/-! ## One character after the other -/

/-- What surrounds a character.  Some marks are made of two characters, so what a slash, a backslash
and a star lead to is only known behind the next character. -/
inductive Context where
  | code
  | slash
  | quoted (mark : Char)
  | escaped (mark : Char)
  | lineComment
  | blockComment
  | star
  deriving DecidableEq

namespace Context

def behindCode (c : Char) : Context :=
  if isQuote c then .quoted c else if c = '/' then .slash else .code

def next : Context → Char → Context
  | .code, c => behindCode c
  | .slash, c => if c = '/' then .lineComment else if c = '*' then .blockComment else behindCode c
  | .quoted mark, c => if c = '\\' then .escaped mark else if c = mark then .code else .quoted mark
  | .escaped mark, _ => .quoted mark
  | .lineComment, c => if c = '\n' then .code else .lineComment
  | .blockComment, c => if c = '*' then .star else .blockComment
  | .star, c => if c = '/' then .code else if c = '*' then .star else .blockComment

/-- Brackets count here. -/
def isCode : Context → Bool
  | .code | .slash => true
  | _ => false

def isQuoted : Context → Bool
  | .quoted _ | .escaped _ => true
  | _ => false

end Context

/-- What is known behind a part of a script: the line, what surrounds the next character and the
open brackets. -/
structure Reader where
  line : Nat
  context : Context
  openers : Openers
  deriving DecidableEq

namespace Reader

def start : Reader :=
  ⟨1, .code, []⟩

def read (s : Reader) (c : Char) : Except Error Reader :=
  if c = '\n' then
    if s.context.isQuoted then .error (.unterminatedString s.line)
    else .ok ⟨s.line + 1, s.context.next c, s.openers⟩
  else if s.context.isCode && (isOpener c || isCloser c) then
    (turn s.line s.openers c).map fun openers => ⟨s.line, s.context.next c, openers⟩
  else .ok ⟨s.line, s.context.next c, s.openers⟩

def readAll (s : Reader) (text : List Char) : Except Error Reader :=
  text.foldlM read s

/-- At the end of a script nothing may be open but a comment. -/
def finish (s : Reader) : Except Error Unit :=
  if s.context.isQuoted then .error (.unterminatedString s.line)
  else
    match s.openers.getLast? with
    | some o => .error (.unclosed o.line o.bracket)
    | none => .ok ()

theorem readAll_append (s : Reader) (text more : List Char) :
    s.readAll (text ++ more) = s.readAll text >>= fun t => t.readAll more :=
  List.foldlM_append

end Reader

/-- The first thing that is wrong with a script. -/
def inspect (code : String) : Except Error Unit := do
  (← Reader.start.readAll code.toList).finish

/-! ## One line -/

namespace Context

/-- The brackets of a text that count. -/
def brackets : Context → List Char → List Char
  | _, [] => []
  | k, c :: r =>
    if k.isCode && (isOpener c || isCloser c) then c :: (k.next c).brackets r
    else (k.next c).brackets r

/-- What surrounds the character behind a text. -/
def behind (k : Context) (text : List Char) : Context :=
  text.foldl next k

/-- What a line that ends here leaves to the next one. -/
def lexical : Context → Lexical
  | .code | .slash | .lineComment => .code
  | .quoted mark | .escaped mark => .quoted mark
  | .blockComment | .star => .blockComment

/-- The brackets of a line that count, and what it leaves to the next line. -/
def line (k : Context) (text : List Char) : List Char × Lexical :=
  (k.brackets text, (k.behind text).lexical)

theorem line_cons (k : Context) (c : Char) (r : List Char) :
    k.line (c :: r) =
      if k.isCode && (isOpener c || isCloser c) then
        (c :: ((k.next c).line r).1, ((k.next c).line r).2)
      else (k.next c).line r := by
  rw [line, brackets]
  split_ifs <;> rfl

theorem isQuoted_iff {k : Context} : k.isQuoted = true ↔ ∃ mark, k.lexical = .quoted mark := by
  cases k <;> simp [isQuoted, lexical]

/-- No quoted text is marked by a blank. -/
def MarkIsNoBlank (k : Context) : Prop :=
  ∀ mark, k.lexical = .quoted mark → Text.isBlank mark = false

theorem line_lineComment {text : List Char} (h : '\n' ∉ text) :
    lineComment.line text = ([], .code) := by
  induction text with
  | nil => rfl
  | cons c r ih =>
    obtain ⟨hc, hr⟩ := List.ne_and_not_mem_of_not_mem_cons h
    rw [line_cons, if_neg (by simp [isCode]), next, if_neg hc.symm, ih hr]

/-- A slash that starts no comment is a character of code. -/
theorem line_slash {text : List Char} (h : ∀ c ∈ text.head?, c ≠ '/' ∧ c ≠ '*') :
    slash.line text = code.line text := by
  cases text with
  | nil => rfl
  | cons c r =>
    obtain ⟨hslash, hstar⟩ := h c rfl
    have hnext : slash.next c = code.next c := by
      simp only [next, if_neg hslash, if_neg hstar]
    rw [line_cons, line_cons, hnext]
    rfl

/-- A star that ends no comment is a character of it. -/
theorem line_star {text : List Char} (h : ∀ c ∈ text.head?, c ≠ '/') :
    star.line text = blockComment.line text := by
  cases text with
  | nil => rfl
  | cons c r =>
    have hnext : star.next c = blockComment.next c := by
      simp only [next, if_neg (h c rfl)]
    rw [line_cons, line_cons, hnext]
    rfl

end Context

/-- What surrounds the first character of a line. -/
def Lexical.context : Lexical → Context
  | .code => .code
  | .quoted mark => .quoted mark
  | .blockComment => .blockComment

theorem Lexical.lexical_context (l : Lexical) : l.context.lexical = l := by
  cases l <;> rfl

/-- Reading a line by its marks of two characters is reading it character by character. -/
theorem Lexical.line_context (l : Lexical) {text : List Char} (h : '\n' ∉ text) :
    l.context.line text = l.read text := by
  fun_induction Lexical.read l text with
  | case1 l => cases l <;> rfl
  | case2 r ih => exact ih (by simp_all)
  | case3 c r hends ih =>
    rw [← ih (List.not_mem_of_not_mem_cons h)]
    show (Context.blockComment.next c).line r = Context.blockComment.line r
    by_cases hstar : c = '*'
    · rw [Context.next, if_pos hstar]
      refine Context.line_star fun d hd hslash => ?_
      obtain ⟨r, rfl⟩ := List.head?_eq_some_iff.mp (hslash ▸ hd)
      exact hends r hstar rfl
    · rw [Context.next, if_neg hstar]
  | case4 mark => rfl
  | case5 mark c r ih =>
    rw [← ih (by simp_all)]
    rfl
  | case6 mark c r hlast hescape ih =>
    have hc : c ≠ '\\' := by
      rintro rfl
      cases r with
      | nil => exact hlast rfl rfl
      | cons d r => exact hescape d r rfl rfl
    rw [← ih (List.not_mem_of_not_mem_cons h)]
    show (Context.next (.quoted mark) c).line r = _
    rw [Context.next, if_neg hc]
    split_ifs <;> rfl
  | case7 r => exact Context.line_lineComment (by simp_all)
  | case8 r ih => exact ih (by simp_all)
  | case9 c r hline hblock hquote ih =>
    rw [← ih (List.not_mem_of_not_mem_cons h)]
    have hbracket : (isOpener c || isCloser c) = false := by
      simp only [isQuote, Bool.or_eq_true, decide_eq_true_eq] at hquote
      rcases hquote with (rfl | rfl) | rfl <;> rfl
    show Context.code.line (c :: r) = _
    rw [Context.line_cons, hbracket, Context.next, Context.behindCode, if_pos hquote]
    rfl
  | case10 c r hline hblock hquote hbracket ih =>
    have hslash : c ≠ '/' := by
      rintro rfl
      cases hbracket
    rw [← ih (List.not_mem_of_not_mem_cons h)]
    show Context.code.line (c :: r) = _
    rw [Context.line_cons, hbracket, Context.next, Context.behindCode, if_neg hquote, if_neg hslash]
    rfl
  | case11 c r hline hblock hquote hbracket ih =>
    rw [← ih (List.not_mem_of_not_mem_cons h)]
    show Context.code.line (c :: r) = Context.code.line r
    rw [Context.line_cons, if_neg (by simp [hbracket]), Context.next, Context.behindCode,
      if_neg hquote]
    by_cases hslash : c = '/'
    · rw [if_pos hslash]
      refine Context.line_slash fun d hd => ⟨?_, ?_⟩
      · rintro rfl
        obtain ⟨r, rfl⟩ := List.head?_eq_some_iff.mp hd
        exact hline r hslash rfl
      · rintro rfl
        obtain ⟨r, rfl⟩ := List.head?_eq_some_iff.mp hd
        exact hblock r hslash rfl
    · rw [if_neg hslash]

/-! ## Blanks at the ends of a line -/

namespace Context

theorem ne_of_isBlank {c d : Char} (hc : Text.isBlank c = true) (hd : Text.isBlank d = false) :
    c ≠ d := by
  rintro rfl
  rw [hc] at hd
  cases hd

theorem isBracket_of_isBlank {c : Char} (h : Text.isBlank c = true) :
    (isOpener c || isCloser c) = false := by
  have hne {d : Char} (hd : Text.isBlank d = false) : decide (c = d) = false :=
    decide_eq_false (ne_of_isBlank h hd)
  rw [isOpener, isCloser, hne rfl, hne rfl, hne rfl, hne rfl, hne rfl, hne rfl]
  rfl

theorem behindCode_of_isBlank {c : Char} (h : Text.isBlank c = true) : behindCode c = .code := by
  have hne {d : Char} (hd : Text.isBlank d = false) : decide (c = d) = false :=
    decide_eq_false (ne_of_isBlank h hd)
  have hquote : isQuote c = false := by
    rw [isQuote, hne rfl, hne rfl, hne rfl]
    rfl
  rw [behindCode, hquote, if_neg (ne_of_isBlank h rfl)]
  rfl

/-- A blank leaves to the next line what there was before it. -/
theorem lexical_next_of_isBlank {k : Context} (hk : k.MarkIsNoBlank) {c : Char}
    (h : Text.isBlank c = true) : (k.next c).lexical = k.lexical := by
  cases k with
  | code => rw [next, behindCode_of_isBlank h]
  | slash =>
    rw [next, if_neg (ne_of_isBlank h rfl), if_neg (ne_of_isBlank h rfl), behindCode_of_isBlank h]
    rfl
  | quoted mark =>
    rw [next, if_neg (ne_of_isBlank h rfl), if_neg (ne_of_isBlank h (hk mark rfl))]
  | escaped mark => rfl
  | lineComment =>
    rw [next]
    split_ifs <;> rfl
  | blockComment => rw [next, if_neg (ne_of_isBlank h rfl)]
  | star =>
    rw [next, if_neg (ne_of_isBlank h rfl), if_neg (ne_of_isBlank h rfl)]
    rfl

theorem MarkIsNoBlank.next {k : Context} (hk : k.MarkIsNoBlank) (c : Char) :
    (k.next c).MarkIsNoBlank := by
  have hcode : (behindCode c).MarkIsNoBlank := by
    intro mark hmark
    rw [behindCode] at hmark
    split_ifs at hmark with hquote
    · cases hmark
      simp only [isQuote, Bool.or_eq_true, decide_eq_true_eq] at hquote
      rcases hquote with (rfl | rfl) | rfl <;> rfl
    · cases hmark
    · cases hmark
  cases k with
  | code => exact hcode
  | slash =>
    rw [Context.next]
    split_ifs
    · exact nofun
    · exact nofun
    · exact hcode
  | quoted mark =>
    rw [Context.next]
    split_ifs
    · exact hk
    · exact nofun
    · exact hk
  | escaped mark => exact hk
  | lineComment | blockComment | star =>
    rw [Context.next]
    split_ifs <;> exact nofun

theorem line_of_blanks {k : Context} (hk : k.MarkIsNoBlank) {blanks : List Char}
    (h : ∀ c ∈ blanks, Text.isBlank c = true) : k.line blanks = ([], k.lexical) := by
  induction blanks generalizing k with
  | nil => rfl
  | cons c r ih =>
    obtain ⟨hc, hr⟩ := List.forall_mem_cons.mp h
    rw [line_cons, isBracket_of_isBlank hc, Bool.and_false, ih (hk.next c) hr,
      lexical_next_of_isBlank hk hc]
    rfl

/-- Blanks at the end of a line do not matter. -/
theorem line_append_blanks {k : Context} (hk : k.MarkIsNoBlank) (text : List Char)
    {blanks : List Char} (h : ∀ c ∈ blanks, Text.isBlank c = true) :
    k.line (text ++ blanks) = k.line text := by
  induction text generalizing k with
  | nil => exact line_of_blanks hk h
  | cons c r ih => rw [List.cons_append, line_cons, line_cons, ih (hk.next c)]

end Context

theorem Lexical.next_context_of_isBlank {l : Lexical} (hl : l.context.MarkIsNoBlank) {c : Char}
    (h : Text.isBlank c = true) : l.context.next c = l.context := by
  have hne {d : Char} (hd : Text.isBlank d = false) : c ≠ d := Context.ne_of_isBlank h hd
  cases l with
  | code => exact Context.behindCode_of_isBlank h
  | quoted mark =>
    rw [context, Context.next, if_neg (hne rfl), if_neg (hne (hl mark rfl))]
  | blockComment => rw [context, Context.next, if_neg (hne rfl)]

/-- Blanks at the start of a line do not matter. -/
theorem Lexical.line_trimStart {l : Lexical} (hl : l.context.MarkIsNoBlank) (text : List Char) :
    l.context.line (Text.trimStart text) = l.context.line text := by
  induction text with
  | nil => rfl
  | cons c r ih =>
    rw [Text.trimStart_cons]
    split_ifs with hc
    · rw [ih, Context.line_cons, Context.isBracket_of_isBlank hc, Bool.and_false,
        next_context_of_isBlank hl hc]
      rfl
    · rfl

theorem exists_blanks_of_trimEnd (s : List Char) :
    ∃ blanks, s = Text.trimEnd s ++ blanks ∧ ∀ c ∈ blanks, Text.isBlank c = true := by
  refine ⟨(s.reverse.takeWhile Text.isBlank).reverse, ?_, fun c hc => ?_⟩
  · rw [Text.trimEnd, Text.trimStart, ← List.reverse_append, List.takeWhile_append_dropWhile,
      List.reverse_reverse]
  · exact List.mem_takeWhile_imp (List.mem_reverse.mp hc)

/-- A line says the same with and without the blanks at its ends. -/
theorem Lexical.line_context_eq {l : Lexical} (hl : l.context.MarkIsNoBlank) {raw : List Char}
    (h : '\n' ∉ raw) : l.context.line raw = l.read (Text.trim raw) := by
  obtain ⟨blanks, hsplit, hblanks⟩ := exists_blanks_of_trimEnd (Text.trimStart raw)
  calc l.context.line raw = l.context.line (Text.trimStart raw) := (line_trimStart hl raw).symm
    _ = l.context.line (Text.trim raw ++ blanks) := congrArg _ hsplit
    _ = l.context.line (Text.trim raw) := Context.line_append_blanks hl _ hblanks
    _ = l.read (Text.trim raw) := l.line_context fun hmem => h (Text.mem_of_mem_trim hmem)

namespace Reader

/-- Reading a part of a line turns the open brackets once for every bracket that counts. -/
theorem readAll_of_newline_not_mem (s : Reader) {text : List Char} (h : '\n' ∉ text) :
    s.readAll text = ((s.context.brackets text).foldlM (turn s.line) s.openers).map
      fun openers => ⟨s.line, s.context.behind text, openers⟩ := by
  induction text generalizing s with
  | nil => rfl
  | cons c r ih =>
    obtain ⟨hc, hr⟩ := List.ne_and_not_mem_of_not_mem_cons h
    rw [readAll, List.foldlM_cons, read, if_neg hc.symm, Context.brackets]
    split_ifs
    · rw [List.foldlM_cons]
      cases turn s.line s.openers c with
      | error e => rfl
      | ok openers => exact ih _ hr
    · exact ih _ hr

end Reader

/-- Scanning a line without the blanks at its ends is reading it as it stands. -/
theorem scan_trim {l : Lexical} (hl : l.context.MarkIsNoBlank) {raw : List Char} (h : '\n' ∉ raw)
    (n : Nat) (openers : Openers) :
    scan n l openers (Text.trim raw) =
      ((⟨n, l.context, openers⟩ : Reader).readAll raw).map fun s =>
        (s.context.lexical, s.openers) := by
  obtain ⟨hbrackets, hbehind⟩ := Prod.ext_iff.mp (Lexical.line_context_eq hl h)
  rw [scan_eq, Reader.readAll_of_newline_not_mem _ h, Lexical.brackets, Lexical.behind, ← hbrackets,
    ← hbehind]
  show Except.map (fun openers => ((l.context.behind raw).lexical, openers))
    ((l.context.brackets raw).foldlM (turn n) openers) = _
  cases (l.context.brackets raw).foldlM (turn n) openers <;> rfl

/-! ## The lines of a text -/

theorem unlines_eq {lines : List (List Char)} (h : lines ≠ []) :
    unlines lines = ['\n'].intercalate lines ++ ['\n'] := by
  induction lines with
  | nil => exact absurd rfl h
  | cons line lines ih =>
    cases lines with
    | nil => simp [unlines]
    | cons next lines =>
      rw [List.intercalate_cons_cons, unlines, List.flatMap_cons, ← unlines,
        ih (List.cons_ne_nil next lines)]
      simp

/-- The lines of a text are that text, with its last line ended. -/
theorem unlines_linesOf (code : List Char) :
    unlines (linesOf code) = code ∨ unlines (linesOf code) = code ++ ['\n'] := by
  have hne := List.splitOn_ne_nil '\n' code
  have hall := unlines_eq hne
  rw [List.intercalate_splitOn] at hall
  rw [linesOf]
  split_ifs with hlast
  · obtain ⟨lines, hlines⟩ := List.getLast?_eq_some_iff.mp hlast
    rw [hlines, unlines, List.flatMap_append, List.flatMap_singleton, List.nil_append,
      ← unlines] at hall
    rw [hlines, List.dropLast_concat]
    exact .inl (List.append_cancel_right hall)
  · exact .inr hall

theorem Reader.finish_of_newline (s : Reader) : s.readAll ['\n'] >>= finish = s.finish := by
  obtain ⟨n, k, openers⟩ := s
  cases k <;> rfl

/-- Ending the last line of a script changes nothing. -/
theorem inspect_eq (code : String) :
    inspect code = Reader.start.readAll (unlines (linesOf code.toList)) >>= Reader.finish := by
  rcases unlines_linesOf code.toList with h | h
  · rw [h, inspect]
  · rw [h, inspect, Reader.readAll_append, bind_assoc]
    simp only [Reader.finish_of_newline]

end Layout
end LoadTest

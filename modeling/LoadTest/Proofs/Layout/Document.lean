import LoadTest.Proofs.Layout.Scanning
import Mathlib.Data.List.TakeWhile

/-!
Laying out nested lines.

A document is made of lines and of nests: an opening line, what is nested in it, and a line that
closes the brackets that the opening line left open.  Laying it out indents every line by the nests
around it, and keeps the blank lines but those at the start of a nest.
-/

namespace LoadTest
namespace Layout

/-! ## Documents -/

/-- Nested lines.  What is `spaced` has a blank line before it. -/
inductive Doc where
  | line (spaced : Bool) (text : List Char)
  | nest (spaced : Bool) (opening : List Char) (body : List Doc) (closing : List Char)

/-- A blank line, or none. -/
def blankIf (b : Bool) : List (List Char) :=
  if b then [[]] else []

mutual

/-- The lines of a document, not laid out. -/
def Doc.lines : Doc → List (List Char)
  | .line spaced text => blankIf spaced ++ [text]
  | .nest spaced opening body closing =>
    blankIf spaced ++ (opening :: (linesAll body ++ [closing]))

def linesAll : List Doc → List (List Char)
  | [] => []
  | d :: ds => d.lines ++ linesAll ds

end

mutual

/-- The lines of a document laid out at a level.  The blank line before a document that is `first`
is left out, and if `tight` then what comes first in a nest is first in that sense. -/
def Doc.shown (width : Nat) (tight : Bool) (level : Nat) (first : Bool) : Doc → List (List Char)
  | .line spaced text => blankIf (spaced && !first) ++ [indented width level text]
  | .nest spaced opening body closing =>
    blankIf (spaced && !first) ++ (indented width level opening ::
      (shownAll width tight (level + 1) tight body ++ [indented width level closing]))

def shownAll (width : Nat) (tight : Bool) (level : Nat) (first : Bool) :
    List Doc → List (List Char)
  | [] => []
  | d :: ds => d.shown width tight level first ++ shownAll width tight level false ds

end

theorem linesAll_append (ds ds' : List Doc) :
    linesAll (ds ++ ds') = linesAll ds ++ linesAll ds' := by
  induction ds with
  | nil => rfl
  | cons d ds ih => rw [List.cons_append, linesAll, linesAll, ih, List.append_assoc]

theorem linesAll_map {α : Type} (f : α → Doc) (xs : List α) :
    linesAll (xs.map f) = xs.flatMap fun x => (f x).lines := by
  induction xs with
  | nil => rfl
  | cons x xs ih => rw [List.map_cons, linesAll, ih, List.flatMap_cons]

theorem linesAll_lines {α : Type} (f : α → List Char) (xs : List α) :
    linesAll (xs.map fun x => .line false (f x)) = xs.map f := by
  rw [linesAll_map, List.map_eq_flatMap]
  rfl

theorem shownAll_append (width : Nat) (tight : Bool) (level : Nat) (first : Bool)
    (ds ds' : List Doc) :
    shownAll width tight level first (ds ++ ds') = shownAll width tight level first ds ++
      shownAll width tight level (first && ds.isEmpty) ds' := by
  induction ds generalizing first with
  | nil => simp [shownAll]
  | cons d ds ih => simp [shownAll, ih]

theorem shownAll_lines {α : Type} (width : Nat) (tight : Bool) (level : Nat) (first : Bool)
    (f : α → List Char) (xs : List α) :
    shownAll width tight level first (xs.map fun x => .line false (f x)) =
      xs.map fun x => indented width level (f x) := by
  induction xs generalizing first with
  | nil => rfl
  | cons x xs ih =>
    rw [List.map_cons, shownAll, ih]
    rfl

/-! ## Lines of code -/

/-- A line of code that starts with no closing bracket and leaves the brackets `stack` open. -/
structure Tidy (text stack : List Char) : Prop where
  scan : ∀ n openers, scan n .code openers text = .ok (.code, openedOn n stack ++ openers)
  first : ∃ c r, text = c :: r ∧ Text.isBlank c = false ∧ isCloser c = false ∧ c ≠ ';' ∧ c ≠ ','
  last : ∃ c, text.getLast? = some c ∧ Text.isBlank c = false ∧ isOpener c = !stack.isEmpty
  newline : '\n' ∉ text

/-- A line that closes the brackets `stack` and does nothing else. -/
structure Closes (text stack : List Char) : Prop where
  openers : ∀ b ∈ stack, isOpener b = true
  text : ∃ tail, text = stack.map closerOf ++ tail ∧ ∀ c ∈ tail, c = ';' ∨ c = ','

/-- The lines of the document fit together. -/
inductive Doc.Good : Doc → Prop
  | line {spaced : Bool} {text : List Char} : Tidy text [] → Good (.line spaced text)
  | nest {spaced : Bool} {opening closing stack : List Char} {body : List Doc} :
      Tidy opening stack → stack ≠ [] → Closes closing stack → (∀ d ∈ body, d.Good) →
        Good (.nest spaced opening body closing)

theorem trim_eq_self {text r : List Char} {c d : Char} (hfirst : text = c :: r)
    (hc : Text.isBlank c = false) (hlast : text.getLast? = some d) (hd : Text.isBlank d = false) :
    Text.trim text = text := by
  obtain ⟨ys, hys⟩ := List.getLast?_eq_some_iff.mp hlast
  have hstart : Text.trimStart text = text := by
    rw [hfirst, Text.trimStart_cons, hc]
    rfl
  rw [Text.trim, hstart, Text.trimEnd, hys, List.reverse_append, List.reverse_singleton,
    List.singleton_append, Text.trimStart_cons, hd]
  simp

theorem indented_zero (width : Nat) (text : List Char) : indented width 0 text = text := by
  rw [indented]
  split
  · next h => rw [h]
  · simp

theorem indented_ne_nil {width level : Nat} {text : List Char} (h : text ≠ []) :
    indented width level text ≠ [] := by
  rw [indented, if_neg h]
  simp [h]

theorem opensBlock_indented {text : List Char} {c : Char} (hlast : text.getLast? = some c)
    (hc : Text.isBlank c = false) (width level : Nat) :
    opensBlock (indented width level text) = isOpener c := by
  obtain ⟨ys, rfl⟩ := List.getLast?_eq_some_iff.mp hlast
  have hne : ys ++ [c] ≠ [] := by simp
  rw [indented, if_neg hne, opensBlock, Text.trimEnd, ← List.append_assoc, List.reverse_append,
    List.reverse_singleton, List.singleton_append, Text.trimStart_cons, hc]
  simp

namespace Tidy

variable {text stack : List Char}

theorem ne_nil (h : Tidy text stack) : text ≠ [] := by
  obtain ⟨c, r, rfl, -⟩ := h.first
  exact List.cons_ne_nil c r

theorem trim_eq (h : Tidy text stack) : Text.trim text = text := by
  obtain ⟨c, r, hfirst, hc, -⟩ := h.first
  obtain ⟨d, hlast, hd, -⟩ := h.last
  exact trim_eq_self hfirst hc hlast hd

theorem leadingClosers_eq (h : Tidy text stack) : leadingClosers text = [] := by
  obtain ⟨c, r, rfl, hblank, hcloser, hsemicolon, hcomma⟩ := h.first
  have hspace : c ≠ ' ' := by
    rintro rfl
    cases hblank
  rw [leadingClosers, List.takeWhile_cons_of_neg (by simp [hcloser, hspace, hsemicolon, hcomma])]
  rfl

theorem opensBlock_eq (h : Tidy text stack) (width level : Nat) :
    opensBlock (indented width level text) = !stack.isEmpty := by
  obtain ⟨c, hlast, hblank, hopen⟩ := h.last
  rw [opensBlock_indented hlast hblank, hopen]

end Tidy

namespace Closes

variable {text stack : List Char}

theorem closer_of_mem (h : Closes text stack) {b : Char} (hb : b ∈ stack) :
    isCloser (closerOf b) = true ∧ isQuote (closerOf b) = false ∧ isOpener (closerOf b) = false ∧
      closerOf b ≠ '/' ∧ Text.isBlank (closerOf b) = false := by
  have hopen := h.openers b hb
  simp only [isOpener, Bool.or_eq_true, decide_eq_true_eq] at hopen
  rcases hopen with (rfl | rfl) | rfl <;> decide

theorem leadingClosers_eq (h : Closes text stack) : leadingClosers text = stack.map closerOf := by
  obtain ⟨tail, rfl, htail⟩ := h.text
  have hstack : ∀ c ∈ stack.map closerOf, isCloser c = true := by
    intro c hc
    obtain ⟨b, hb, rfl⟩ := List.mem_map.mp hc
    exact (h.closer_of_mem hb).1
  have htake : (stack.map closerOf ++ tail).takeWhile
      (fun c => isCloser c || c = ' ' || c = ';' || c = ',') = stack.map closerOf ++ tail := by
    refine List.takeWhile_eq_self_iff.mpr fun c hc => ?_
    rcases List.mem_append.mp hc with hc | hc
    · simp [hstack c hc]
    · rcases htail c hc with rfl | rfl <;> decide
  have hfilter : tail.filter isCloser = [] := by
    rw [List.filter_eq_nil_iff]
    intro c hc
    rcases htail c hc with rfl | rfl <;> decide
  rw [leadingClosers, htake, List.filter_append, hfilter, List.append_nil,
    List.filter_eq_self.mpr hstack]

theorem exists_last (h : Closes text stack) (hne : stack ≠ []) :
    ∃ c, text.getLast? = some c ∧ Text.isBlank c = false ∧ isOpener c = false := by
  obtain ⟨tail, rfl, htail⟩ := h.text
  rcases List.eq_nil_or_concat tail with rfl | ⟨init, c, rfl⟩
  · obtain ⟨init, b, rfl⟩ := List.eq_nil_or_concat stack |>.resolve_left hne
    have hb := h.closer_of_mem (b := b) (by simp)
    exact ⟨closerOf b, by simp, hb.2.2.2.2, hb.2.2.1⟩
  · refine ⟨c, by simp, ?_⟩
    rcases htail c (by simp) with rfl | rfl <;> decide

theorem exists_first (h : Closes text stack) (hne : stack ≠ []) :
    ∃ c r, text = c :: r ∧ Text.isBlank c = false := by
  obtain ⟨tail, rfl, -⟩ := h.text
  cases stack with
  | nil => exact absurd rfl hne
  | cons b stack =>
    have hblank := (h.closer_of_mem (b := b) List.mem_cons_self).2.2.2.2
    exact ⟨closerOf b, stack.map closerOf ++ tail, rfl, hblank⟩

theorem trim_eq (h : Closes text stack) (hne : stack ≠ []) : Text.trim text = text := by
  obtain ⟨c, r, hfirst, hc⟩ := h.exists_first hne
  obtain ⟨d, hlast, hd, -⟩ := h.exists_last hne
  exact trim_eq_self hfirst hc hlast hd

theorem ne_nil (h : Closes text stack) (hne : stack ≠ []) : text ≠ [] := by
  obtain ⟨c, r, rfl, -⟩ := h.exists_first hne
  exact List.cons_ne_nil c r

theorem opensBlock_eq (h : Closes text stack) (hne : stack ≠ []) (width level : Nat) :
    opensBlock (indented width level text) = false := by
  obtain ⟨c, hlast, hblank, hopen⟩ := h.exists_last hne
  rw [opensBlock_indented hlast hblank, hopen]

theorem scan_stack (stack : List Char) (hstack : ∀ b ∈ stack, isOpener b = true) (n m : Nat)
    (outer : Openers) (r : List Char) :
    scan n .code (openedOn m stack ++ outer) (stack.map closerOf ++ r) = scan n .code outer r := by
  have h : Closes (stack.map closerOf) stack := ⟨hstack, [], (List.append_nil _).symm, nofun⟩
  induction stack with
  | nil => rfl
  | cons b stack ih =>
    obtain ⟨hcloser, hquote, hopen, hslash, -⟩ := h.closer_of_mem (b := b) List.mem_cons_self
    have hrest : ∀ b ∈ stack, isOpener b = true := fun b hb => hstack b (List.mem_cons_of_mem _ hb)
    rw [List.map_cons, List.cons_append, scan_code_cons hslash, if_neg (by simp [hquote]),
      if_neg (by simp [hopen]), if_pos hcloser]
    simp only [openedOn, List.map_cons, List.cons_append, if_true]
    exact ih hrest ⟨hrest, [], (List.append_nil _).symm, nofun⟩

theorem scan_eq (h : Closes text stack) (n m : Nat) (outer : Openers) :
    scan n .code (openedOn m stack ++ outer) text = .ok (.code, outer) := by
  obtain ⟨tail, rfl, htail⟩ := h.text
  have hinert : ∀ c ∈ tail, isInert c = true := by
    intro c hc
    rcases htail c hc with rfl | rfl <;> decide
  have htail := scan_of_nesting (nesting_of_inert hinert []) n outer []
  rw [List.append_nil] at htail
  rw [scan_stack stack h.openers]
  exact htail

theorem newline_not_mem (h : Closes text stack) : '\n' ∉ text := by
  obtain ⟨tail, rfl, htail⟩ := h.text
  rw [List.mem_append, not_or]
  constructor
  · intro hmem
    obtain ⟨b, hb, he⟩ := List.mem_map.mp hmem
    have hblank := (h.closer_of_mem hb).2.2.2.2
    rw [he] at hblank
    cases hblank
  · intro hmem
    rcases htail _ hmem with h | h <;> cases h

end Closes

/-! ## One line -/

/-- Between two lines: code goes on, the open brackets are on earlier lines, and the last line is
not blank. -/
structure Settled (number : Nat) (s : State) : Prop where
  lexical : s.lexical = .code
  earlier : ∀ o ∈ s.openers, o.line < number
  written : ∃ line r, s.written = line :: r ∧ line ≠ []

theorem depth_openedOn {n : Nat} {stack : List Char} {openers : Openers} (hne : stack ≠ [])
    (h : ∀ o ∈ openers, o.line < n) : depth (openedOn n stack ++ openers) = depth openers + 1 := by
  induction stack with
  | nil => exact absurd rfl hne
  | cons b stack ih =>
    cases stack with
    | nil =>
      cases openers with
      | nil => rfl
      | cons o rest =>
        have hline : n ≠ o.line := Nat.ne_of_gt (h o List.mem_cons_self)
        simp [openedOn, depth, hline]
    | cons b' stack =>
      have hrest := ih (List.cons_ne_nil b' stack)
      simpa [openedOn, depth] using hrest

theorem step_tidy {text stack : List Char} (h : Tidy text stack) {s : State}
    (hs : s.lexical = .code) (width number : Nat) :
    step width number s text = .ok ⟨.code, openedOn number stack ++ s.openers,
      indented width (depth s.openers) text :: s.written⟩ := by
  rw [step]
  simp only [h.trim_eq, hs, if_neg h.ne_nil, codeLine, h.leadingClosers_eq, h.scan]
  rfl

theorem step_closes {text stack : List Char} (h : Closes text stack) (hne : stack ≠ []) {s : State}
    {number : Nat} (hs : Settled number s) {m : Nat} {outer : Openers}
    (hopeners : s.openers = openedOn m stack ++ outer) (width : Nat) :
    step width number s text =
      .ok ⟨.code, outer, indented width (depth outer) text :: s.written⟩ := by
  have hlength : (stack.map closerOf).length = (openedOn m stack).length := by simp [openedOn]
  have hclosers : stack.map closerOf ≠ [] := by simpa using hne
  obtain ⟨line, r, hwritten, hline⟩ := hs.written
  have hnone : (stack.map closerOf)[(openedOn m stack ++ outer).length]? = none := by
    rw [List.getElem?_eq_none_iff, List.length_append, hlength]
    exact Nat.le_add_right _ _
  have hpop : popBlank s.written = s.written := by
    rw [hwritten]
    cases line with
    | nil => exact absurd rfl hline
    | cons c line => rfl
  rw [step]
  simp only [h.trim_eq hne, hs.lexical, if_neg (h.ne_nil hne), codeLine, h.leadingClosers_eq,
    hopeners, hnone, hlength, List.drop_left, if_neg hclosers, hpop, h.scan_eq]
  rfl

theorem step_blank {s : State} {number : Nat} (hs : Settled number s) (width : Nat) :
    step width number s [] = .ok { s with written := [] :: s.written } := by
  have hcode : s.lexical ≠ .blockComment := by simp [hs.lexical]
  obtain ⟨line, r, hwritten, hline⟩ := hs.written
  have hpush : pushBlank s.written = [] :: s.written := by
    rw [hwritten]
    cases line with
    | nil => exact absurd rfl hline
    | cons c line => rfl
  rw [step]
  simp only [Text.trim_nil, if_neg hcode, if_true, hpush]

/-! ## All lines -/

theorem run_cons {width number : Nat} {s s' : State} {raw : List Char} {rest : List (List Char)}
    (h : step width number s raw = .ok s') :
    run width number s (raw :: rest) = run width (number + 1) s' rest := by
  rw [run, h]
  rfl

theorem run_blankIf {s : State} {number : Nat} (hs : Settled number s) (width : Nat) (b : Bool)
    (rest : List (List Char)) :
    run width number s (blankIf b ++ rest) =
      run width (number + (blankIf b).length) { s with written := blankIf b ++ s.written }
        rest := by
  cases b with
  | false => rfl
  | true => exact run_cons (step_blank hs width)

theorem reverse_blankIf (b : Bool) : (blankIf b).reverse = blankIf b := by
  cases b <;> rfl

/-- The state after what a document comes to has been written. -/
def State.after (s : State) (shown : List (List Char)) : State :=
  { s with written := shown.reverse ++ s.written }

theorem State.after_append (s : State) (l r : List (List Char)) :
    s.after (l ++ r) = (s.after l).after r := by
  simp [State.after]

/-- A good document ends with a line that is not blank. -/
theorem Doc.Good.exists_shown {d : Doc} (h : d.Good) (width : Nat) (tight : Bool) (level : Nat)
    (first : Bool) :
    ∃ init line, d.shown width tight level first = init ++ [line] ∧ line ≠ [] := by
  cases h with
  | line ht => exact ⟨_, _, rfl, indented_ne_nil ht.ne_nil⟩
  | nest ho hne hc hbody =>
    rw [Doc.shown, ← List.cons_append, ← List.append_assoc]
    exact ⟨_, _, rfl, indented_ne_nil (hc.ne_nil hne)⟩

theorem Settled.after {s : State} {number : Nat} (hs : Settled number s) {d : Doc} (h : d.Good)
    (width : Nat) (tight : Bool) (level : Nat) (first : Bool) (n : Nat) :
    Settled (number + n) (s.after (d.shown width tight level first)) := by
  obtain ⟨init, line, hshown, hline⟩ := h.exists_shown width tight level first
  refine ⟨hs.lexical, fun o ho => Nat.lt_add_right n (hs.earlier o ho), ?_⟩
  exact ⟨line, init.reverse ++ s.written, by simp [State.after, hshown], hline⟩

theorem Settled.afterAll {s : State} {number : Nat} (hs : Settled number s) {ds : List Doc}
    (h : ∀ d ∈ ds, d.Good) (width : Nat) (tight : Bool) (level : Nat) (first : Bool) (n : Nat) :
    Settled (number + n) (s.after (shownAll width tight level first ds)) := by
  induction ds generalizing s number n first with
  | nil => exact ⟨hs.lexical, fun o ho => Nat.lt_add_right n (hs.earlier o ho), hs.written⟩
  | cons d ds ih =>
    rw [shownAll, State.after_append]
    have hd := hs.after (h d List.mem_cons_self) width tight level first 0
    exact ih hd (fun d' hd' => h d' (List.mem_cons_of_mem d hd')) false n

theorem Settled.opened {number : Nat} {s : State} (hs : Settled number s) {stack line : List Char}
    (hline : line ≠ []) (n : Nat) (r : List (List Char)) :
    Settled (number + n + 1) ⟨.code, openedOn (number + n) stack ++ s.openers, line :: r⟩ := by
  refine ⟨rfl, fun o ho => ?_, line, r, rfl, hline⟩
  rcases List.mem_append.mp ho with ho | ho
  · obtain ⟨b, -, rfl⟩ := List.mem_map.mp ho
    exact Nat.lt_succ_self _
  · have hearlier := hs.earlier o ho
    omega

mutual

/-- A document is written with the indents of its nests, and with all its blank lines. -/
theorem run_doc (width : Nat) : ∀ (d : Doc), d.Good → ∀ {number : Nat} {s : State},
    Settled number s → ∀ rest : List (List Char),
      run width number s (d.lines ++ rest) =
        run width (number + d.lines.length)
          (s.after (d.shown width false (depth s.openers) false)) rest
  | .line spaced text, h, number, s, hs, rest => by
    cases h with
    | line ht =>
      have hafter : s.after (Doc.shown width false (depth s.openers) false (.line spaced text)) =
          ⟨.code, s.openers, indented width (depth s.openers) text ::
            (blankIf spaced ++ s.written)⟩ := by
        simp [State.after, Doc.shown, reverse_blankIf, hs.lexical]
      rw [hafter, Doc.lines, List.append_assoc, run_blankIf hs, List.singleton_append,
        run_cons (step_tidy ht (by exact hs.lexical) _ _), List.length_append, Nat.add_assoc]
      rfl
  | .nest spaced opening body closing, h, number, s, hs, rest => by
    cases h with
    | @nest _ _ _ stack _ ho hne hc hbody =>
      let k := (blankIf spaced).length
      let s₁ : State := ⟨.code, openedOn (number + k) stack ++ s.openers,
        indented width (depth s.openers) opening :: (blankIf spaced ++ s.written)⟩
      have hs₁ : Settled (number + k + 1) s₁ := hs.opened (indented_ne_nil ho.ne_nil) k _
      -- However many brackets the opening line leaves open, they are on one line.
      have hdepth : depth s₁.openers = depth s.openers + 1 :=
        depth_openedOn hne fun o ho => Nat.lt_add_right k (hs.earlier o ho)
      have hs₂ := hs₁.afterAll hbody width false (depth s₁.openers) false (linesAll body).length
      have hafter :
          s.after (Doc.shown width false (depth s.openers) false
            (.nest spaced opening body closing)) =
          ⟨.code, s.openers, indented width (depth s.openers) closing ::
            (s₁.after (shownAll width false (depth s₁.openers) false body)).written⟩ := by
        simp [State.after, Doc.shown, reverse_blankIf, hs.lexical, hdepth, s₁]
      rw [hafter, Doc.lines, List.append_assoc, run_blankIf hs, List.cons_append,
        run_cons (step_tidy ho (by exact hs.lexical) _ _), List.append_assoc,
        run_all width body hbody hs₁, List.singleton_append,
        run_cons (step_closes hc hne hs₂ rfl width)]
      congr 1
      simp only [List.length_append, List.length_cons, List.length_nil, k]
      omega

theorem run_all (width : Nat) : ∀ (ds : List Doc), (∀ d ∈ ds, d.Good) → ∀ {number : Nat}
    {s : State}, Settled number s → ∀ rest : List (List Char),
      run width number s (linesAll ds ++ rest) =
        run width (number + (linesAll ds).length)
          (s.after (shownAll width false (depth s.openers) false ds)) rest
  | [], _, number, s, _, rest => rfl
  | d :: ds, h, number, s, hs, rest => by
    have hd := h d List.mem_cons_self
    have hds := fun d' hd' => h d' (List.mem_cons_of_mem d hd')
    rw [linesAll, List.append_assoc, run_doc width d hd hs,
      run_all width ds hds (hs.after hd width false _ false _), shownAll, State.after_append,
      List.length_append, Nat.add_assoc]
    rfl

end

/-! ## Blank lines -/

theorem dropAfterOpener_cons {line : List Char} (h : line ≠ []) (b : Bool)
    (rest : List (List Char)) :
    dropAfterOpener b (line :: rest) = line :: dropAfterOpener (opensBlock line) rest := by
  rw [dropAfterOpener, if_neg fun hb => h hb.1]

/-- A blank line stays unless it follows an opening line. -/
theorem dropAfterOpener_blankIf {line : List Char} (h : line ≠ []) (spaced b : Bool)
    (rest : List (List Char)) :
    dropAfterOpener b (blankIf spaced ++ line :: rest) =
      blankIf (spaced && !b) ++ line :: dropAfterOpener (opensBlock line) rest := by
  have hblank : opensBlock [] = false := rfl
  cases spaced <;> cases b <;>
    simp [blankIf, dropAfterOpener, h, hblank]

mutual

/-- Of the blank lines of a document those are dropped that start a nest. -/
theorem dropAfterOpener_doc (width level : Nat) : ∀ (d : Doc), d.Good → ∀ (b : Bool)
    (rest : List (List Char)),
      dropAfterOpener b (d.shown width false level false ++ rest) =
        d.shown width true level b ++ dropAfterOpener false rest
  | .line spaced text, h, b, rest => by
    cases h with
    | line ht =>
      rw [Doc.shown, Doc.shown, Bool.not_false, Bool.and_true, List.append_assoc,
        List.singleton_append, dropAfterOpener_blankIf (indented_ne_nil ht.ne_nil),
        ht.opensBlock_eq, List.append_assoc]
      rfl
  | .nest spaced opening body closing, h, b, rest => by
    cases h with
    | @nest _ _ _ stack _ ho hne hc hbody =>
      have hopens : opensBlock (indented width level opening) = true := by
        rw [ho.opensBlock_eq]
        simpa using hne
      rw [Doc.shown, Doc.shown, Bool.not_false, Bool.and_true, List.append_assoc, List.cons_append,
        dropAfterOpener_blankIf (indented_ne_nil ho.ne_nil), hopens, List.append_assoc,
        dropAfterOpener_all width (level + 1) body hbody, List.singleton_append,
        dropAfterOpener_cons (indented_ne_nil (hc.ne_nil hne)), hc.opensBlock_eq hne]
      simp

theorem dropAfterOpener_all (width level : Nat) : ∀ (ds : List Doc), (∀ d ∈ ds, d.Good) →
    ∀ (b : Bool) (rest : List (List Char)),
      dropAfterOpener b (shownAll width false level false ds ++ rest) =
        shownAll width true level b ds ++ dropAfterOpener (b && ds.isEmpty) rest
  | [], _, b, rest => by simp [shownAll]
  | d :: ds, h, b, rest => by
    have hd := h d List.mem_cons_self
    have hds := fun d' hd' => h d' (List.mem_cons_of_mem d hd')
    rw [shownAll, shownAll, List.append_assoc, dropAfterOpener_doc width level d hd,
      dropAfterOpener_all width level ds hds]
    simp

end

theorem dropTrailing_concat (lines : List (List Char)) {line : List Char} (h : line ≠ []) :
    dropTrailing (lines ++ [line]) = lines ++ [line] := by
  rw [dropTrailing, List.reverse_append, List.reverse_singleton, List.singleton_append,
    List.dropWhile_cons_of_neg (by simpa using h)]
  simp

/-! ## Lines of a text -/

theorem splitOn_unlines {lines : List (List Char)} (h : ∀ line ∈ lines, '\n' ∉ line) :
    (unlines lines).splitOn '\n' = lines ++ [[]] := by
  induction lines with
  | nil => rfl
  | cons line lines ih =>
    have hline := h line List.mem_cons_self
    have hlines := ih fun l hl => h l (List.mem_cons_of_mem line hl)
    rw [unlines, List.flatMap_cons, List.append_assoc, List.singleton_append,
      List.splitOn_append_cons_self_of_not_mem hline, ← unlines, hlines, List.cons_append]

theorem linesOf_unlines {lines : List (List Char)} (h : ∀ line ∈ lines, '\n' ∉ line) :
    linesOf (unlines lines) = lines := by
  rw [linesOf, splitOn_unlines h]
  simp

mutual

theorem newline_not_mem_doc : ∀ d : Doc, d.Good → ∀ line ∈ d.lines, '\n' ∉ line
  | .line spaced text, h => by
    cases h with
    | line ht =>
      cases spaced <;> simp [Doc.lines, blankIf, ht.newline]
  | .nest spaced opening body closing, h => by
    cases h with
    | nest ho hne hc hbody =>
      have hlines := newline_not_mem_all body hbody
      cases spaced <;>
        simp only [Doc.lines, blankIf, Bool.false_eq_true, if_false, if_true, List.nil_append,
          List.singleton_append, List.forall_mem_cons, List.forall_mem_append]
      · exact ⟨ho.newline, hlines, hc.newline_not_mem, nofun⟩
      · exact ⟨List.not_mem_nil, ho.newline, hlines, hc.newline_not_mem, nofun⟩

theorem newline_not_mem_all : ∀ ds : List Doc, (∀ d ∈ ds, d.Good) →
    ∀ line ∈ linesAll ds, '\n' ∉ line
  | [], _ => nofun
  | d :: ds, h => by
    rw [linesAll, List.forall_mem_append]
    exact ⟨newline_not_mem_doc d (h d List.mem_cons_self),
      newline_not_mem_all ds fun d' hd' => h d' (List.mem_cons_of_mem d hd')⟩

end

/-- Behind a line that is not blank, good documents end with such a line. -/
theorem dropTrailing_shownAll {ds : List Doc} (h : ∀ d ∈ ds, d.Good) (width : Nat) (tight : Bool)
    (level : Nat) (first : Bool) (lines : List (List Char)) {line : List Char} (hline : line ≠ []) :
    dropTrailing (lines ++ line :: shownAll width tight level first ds) =
      lines ++ line :: shownAll width tight level first ds := by
  induction ds generalizing lines line first with
  | nil => exact dropTrailing_concat lines hline
  | cons d ds ih =>
    obtain ⟨init, last, hshown, hlast⟩ :=
      (h d List.mem_cons_self).exists_shown width tight level first
    have hrest := ih (fun d' hd' => h d' (List.mem_cons_of_mem d hd')) false
      (lines ++ line :: init) hlast
    rw [shownAll, hshown]
    simpa using hrest

/-! ## Layout -/

theorem layoutLines_of_run {width : Nat} {lines : List (List Char)} {s : State}
    (hrun : run width 1 State.start lines = .ok s) (hs : s.openers = []) :
    layoutLines width lines = .ok (dropTrailing (dropAfterOpener false s.written.reverse)) := by
  rw [layoutLines, hrun]
  simp only [bind, Except.bind, hs]
  rfl

/-- Good documents behind a line of code are laid out as they are shown. -/
theorem layout_docs (width : Nat) {text : List Char} (htext : Tidy text []) {ds : List Doc}
    (hds : ∀ d ∈ ds, d.Good) :
    layout width (String.ofList (unlines (text :: linesAll ds))) =
      .ok (String.ofList (unlines (text :: shownAll width true 0 false ds))) := by
  have hnewline : ∀ line ∈ text :: linesAll ds, '\n' ∉ line :=
    List.forall_mem_cons.mpr ⟨htext.newline, newline_not_mem_all ds hds⟩
  have hfirst : step width 1 State.start text = .ok ⟨.code, [], [text]⟩ := by
    rw [step_tidy htext rfl]
    simp only [State.start, depth, indented_zero]
    rfl
  have hsettled : Settled (1 + 1) ⟨.code, [], [text]⟩ :=
    ⟨rfl, nofun, text, [], rfl, htext.ne_nil⟩
  have hrun : run width 1 State.start (text :: linesAll ds) =
      .ok ((⟨.code, [], [text]⟩ : State).after (shownAll width false 0 false ds)) := by
    rw [run_cons hfirst]
    have hall := run_all width ds hds hsettled []
    rw [List.append_nil] at hall
    rw [hall]
    rfl
  have hopens : opensBlock text = false := by
    have h := htext.opensBlock_eq width 0
    rwa [indented_zero] at h
  have hwritten : ((⟨.code, [], [text]⟩ : State).after
      (shownAll width false 0 false ds)).written.reverse =
        text :: shownAll width false 0 false ds := by
    simp [State.after]
  have hdrop := dropAfterOpener_all width 0 ds hds false []
  rw [List.append_nil, dropAfterOpener, List.append_nil] at hdrop
  rw [layout, String.toList_ofList, linesOf_unlines hnewline, layoutLines_of_run hrun rfl, hwritten,
    dropAfterOpener_cons htext.ne_nil, hopens, hdrop]
  have htrailing := dropTrailing_shownAll hds width true 0 false [] htext.ne_nil
  rw [List.nil_append] at htrailing
  rw [htrailing]
  rfl

/-! ## What a layout keeps -/

theorem trimStart_indented (width level : Nat) (text : List Char) :
    Text.trimStart (indented width level text) = Text.trimStart text := by
  unfold indented
  split_ifs with htext
  · rw [htext]
  · refine List.dropWhile_append_of_pos fun c hc => ?_
    rw [(List.mem_replicate.mp hc).2]
    decide

/-- What does not look at blanks. -/
structure IgnoresBlanks {β : Type} (f : List Char → List β) : Prop where
  blank : f [] = []
  indented : ∀ width level text, f (indented width level text) = f text

section IgnoresBlanks

variable {β : Type} {f : List Char → List β}

theorem IgnoresBlanks.flatMap_blankIf (hf : IgnoresBlanks f) (b : Bool) :
    (blankIf b).flatMap f = [] := by
  cases b with
  | false => rfl
  | true => rw [blankIf, if_pos rfl, List.flatMap_singleton, hf.blank]

mutual

theorem flatMap_shown (hf : IgnoresBlanks f) (width : Nat) (tight : Bool) :
    ∀ (d : Doc) (level : Nat) (first : Bool),
      (d.shown width tight level first).flatMap f = d.lines.flatMap f
  | .line spaced text, level, first => by
    rw [Doc.shown, Doc.lines, List.flatMap_append, List.flatMap_append, hf.flatMap_blankIf,
      hf.flatMap_blankIf, List.flatMap_singleton, List.flatMap_singleton, hf.indented]
  | .nest spaced opening body closing, level, first => by
    have hbody := flatMap_shownAll hf width tight body (level + 1) tight
    simp only [Doc.shown, Doc.lines, List.flatMap_append, List.flatMap_cons, hf.flatMap_blankIf,
      hf.indented, hbody]

/-- The same is found before and after a layout. -/
theorem flatMap_shownAll (hf : IgnoresBlanks f) (width : Nat) (tight : Bool) :
    ∀ (ds : List Doc) (level : Nat) (first : Bool),
      (shownAll width tight level first ds).flatMap f = (linesAll ds).flatMap f
  | [], _, _ => rfl
  | d :: ds, level, first => by
    rw [shownAll, linesAll, List.flatMap_append, List.flatMap_append,
      flatMap_shown hf width tight d level first, flatMap_shownAll hf width tight ds level false]

end

end IgnoresBlanks

theorem ignoresBlanks_filter_newline : IgnoresBlanks (List.filter (· = '\n')) where
  blank := rfl
  indented width level text := by
    unfold indented
    split_ifs with htext
    · rw [htext]
    · rw [List.filter_append, List.filter_replicate_of_neg (by decide), List.nil_append]

theorem newline_not_mem_shownAll {ds : List Doc} (h : ∀ d ∈ ds, d.Good) (width level : Nat)
    (tight first : Bool) : ∀ line ∈ shownAll width tight level first ds, '\n' ∉ line := by
  have hfilter (line : List Char) : '\n' ∉ line ↔ line.filter (· = '\n') = [] := by
    simp only [List.filter_eq_nil_iff, decide_eq_true_eq]
    exact ⟨fun h c hc heq => h (heq ▸ hc), fun h hc => h '\n' hc rfl⟩
  have hlines := newline_not_mem_all ds h
  simp only [hfilter] at hlines ⊢
  rw [← List.flatMap_eq_nil_iff] at hlines ⊢
  rw [flatMap_shownAll ignoresBlanks_filter_newline, hlines]

end Layout
end LoadTest

import LoadTest.Proofs.Layout.Document

/-!
Reading the lines of a script back as nests.

A line that ends with an opening bracket starts a nest, and one that starts with a closing bracket
ends it.  Blanks at the ends of lines and blank lines do not count, so what is read is what was
nested before it was laid out.
-/

namespace LoadTest
namespace Layout

/-- A line, or a nest between two lines. -/
inductive Outline where
  | line (text : List Char)
  | nest (opening : List Char) (body : List Outline) (closing : List Char)

namespace Outline

/-- The first line. -/
def first : Outline → List Char
  | line text => text
  | nest opening _ _ => opening

/-- What is nested behind the first line. -/
def body : Outline → List Outline
  | line _ => []
  | nest _ body _ => body

end Outline

mutual

/-- All lines, one after the other. -/
def Outline.lines : Outline → List (List Char)
  | .line text => [text]
  | .nest opening body closing => opening :: (outlineLines body ++ [closing])

def outlineLines : List Outline → List (List Char)
  | [] => []
  | o :: os => o.lines ++ outlineLines os

end

/-! ## Reading -/

/-- What is known of a script from some line on: what follows on the level of that line and, for
each nest that is not opened again, its last line and what follows that. -/
structure Reading where
  here : List Outline
  outer : List (List Char × List Outline)

/-- One more line in front.  A line that opens a nest which is never closed is only a line. -/
def Reading.extend (text : List Char) (r : Reading) : Reading :=
  if leadingClosers text ≠ [] then ⟨[], (text, r.here) :: r.outer⟩
  else if opensBlock text then
    match r.outer with
    | (closing, after) :: outer => ⟨.nest text r.here closing :: after, outer⟩
    | [] => ⟨.line text :: r.here, []⟩
  else ⟨.line text :: r.here, r.outer⟩

/-- The text of a line, if it is not blank. -/
def textOf (line : List Char) : List (List Char) :=
  let text := Text.trim line
  if text = [] then [] else [text]

/-- Lines in front of what was read behind them. -/
def Reading.extendAll (lines : List (List Char)) (r : Reading) : Reading :=
  (lines.flatMap textOf).foldr Reading.extend r

/-- The lines of a script and their nests. -/
def outlinesOf (script : String) : List Outline :=
  (Reading.extendAll (linesOf script.toList) ⟨[], []⟩).here

theorem Reading.extendAll_append (l l' : List (List Char)) (r : Reading) :
    r.extendAll (l ++ l') = (r.extendAll l').extendAll l := by
  rw [extendAll, List.flatMap_append, List.foldr_append]
  rfl

theorem ignoresBlanks_textOf : IgnoresBlanks textOf where
  blank := rfl
  indented width level text := by
    rw [textOf, Text.trim, trimStart_indented, ← Text.trim, ← textOf]

/-! ## Reading a document -/

mutual

def Doc.outline : Doc → Outline
  | .line _ text => .line text
  | .nest _ opening body closing => .nest opening (outlineAll body) closing

def outlineAll : List Doc → List Outline
  | [] => []
  | d :: ds => d.outline :: outlineAll ds

end

theorem outlineAll_eq_map (ds : List Doc) : outlineAll ds = ds.map Doc.outline := by
  induction ds with
  | nil => rfl
  | cons d ds ih => rw [outlineAll, ih, List.map_cons]

theorem outlineAll_append (ds ds' : List Doc) :
    outlineAll (ds ++ ds') = outlineAll ds ++ outlineAll ds' := by
  rw [outlineAll_eq_map, outlineAll_eq_map, outlineAll_eq_map, List.map_append]

theorem extendAll_blankIf (b : Bool) (r : Reading) : r.extendAll (blankIf b) = r := by
  cases b <;> rfl

theorem Tidy.extendAll_eq {text stack : List Char} (h : Tidy text stack) (r : Reading) :
    r.extendAll [text] =
      if stack ≠ [] then
        match r.outer with
        | (closing, after) :: outer => ⟨.nest text r.here closing :: after, outer⟩
        | [] => ⟨.line text :: r.here, []⟩
      else ⟨.line text :: r.here, r.outer⟩ := by
  have hopens := h.opensBlock_eq 0 0
  rw [indented_zero] at hopens
  have htext : textOf text = [text] := by
    simp only [textOf, h.trim_eq, if_neg h.ne_nil]
  have hclosers : ¬ leadingClosers text ≠ [] := not_not.mpr h.leadingClosers_eq
  rw [Reading.extendAll, List.flatMap_singleton, htext, List.foldr_cons, List.foldr_nil,
    Reading.extend, if_neg hclosers, hopens]
  cases stack <;> rfl

theorem Closes.extendAll_eq {text stack : List Char} (h : Closes text stack) (hne : stack ≠ [])
    (r : Reading) : r.extendAll [text] = ⟨[], (text, r.here) :: r.outer⟩ := by
  have htext : textOf text = [text] := by
    simp only [textOf, h.trim_eq hne, if_neg (h.ne_nil hne)]
  have hclosers : leadingClosers text ≠ [] := by
    rw [h.leadingClosers_eq]
    simpa using hne
  rw [Reading.extendAll, List.flatMap_singleton, htext, List.foldr_cons, List.foldr_nil,
    Reading.extend, if_pos hclosers]

mutual

/-- The lines of a good document are read as that document. -/
theorem extendAll_doc : ∀ (d : Doc), d.Good → ∀ r : Reading,
    r.extendAll d.lines = ⟨d.outline :: r.here, r.outer⟩
  | .line spaced text, h, r => by
    cases h with
    | line ht =>
      rw [Doc.lines, Reading.extendAll_append, extendAll_blankIf, ht.extendAll_eq, Doc.outline]
      rfl
  | .nest spaced opening body closing, h, r => by
    cases h with
    | nest ho hne hc hbody =>
      rw [Doc.lines, Reading.extendAll_append, extendAll_blankIf, ← List.singleton_append,
        Reading.extendAll_append, Reading.extendAll_append, hc.extendAll_eq hne,
        extendAll_all body hbody, ho.extendAll_eq, if_pos hne, List.append_nil, Doc.outline]

theorem extendAll_all : ∀ (ds : List Doc), (∀ d ∈ ds, d.Good) → ∀ r : Reading,
    r.extendAll (linesAll ds) = ⟨outlineAll ds ++ r.here, r.outer⟩
  | [], _, r => rfl
  | d :: ds, h, r => by
    rw [linesAll, Reading.extendAll_append,
      extendAll_all ds (fun d' hd' => h d' (List.mem_cons_of_mem d hd')) r,
      extendAll_doc d (h d List.mem_cons_self), outlineAll, List.cons_append]

end

/-- Good documents that have been laid out are read back. -/
theorem outlinesOf_shownAll {ds : List Doc} (h : ∀ d ∈ ds, d.Good) (width level : Nat)
    (tight first : Bool) :
    outlinesOf (String.ofList (unlines (shownAll width tight level first ds))) = outlineAll ds := by
  have hlines := newline_not_mem_shownAll h width level tight first
  rw [outlinesOf, String.toList_ofList, linesOf_unlines hlines, Reading.extendAll,
    flatMap_shownAll ignoresBlanks_textOf, ← Reading.extendAll, extendAll_all ds h, List.append_nil]

mutual

/-- Reading leaves nothing out but blank lines. -/
theorem lines_outline : ∀ d : Doc, d.Good → d.outline.lines = d.lines.filter (· ≠ [])
  | .line spaced text, h => by
    cases h with
    | line ht => cases spaced <;> simp [Doc.outline, Outline.lines, Doc.lines, blankIf, ht.ne_nil]
  | .nest spaced opening body closing, h => by
    cases h with
    | nest ho hne hc hbody =>
      have hclosing := hc.ne_nil hne
      rw [Doc.outline, Outline.lines, outlineLines_outlineAll body hbody]
      cases spaced <;> simp [Doc.lines, blankIf, ho.ne_nil, hclosing]

theorem outlineLines_outlineAll : ∀ ds : List Doc, (∀ d ∈ ds, d.Good) →
    outlineLines (outlineAll ds) = (linesAll ds).filter (· ≠ [])
  | [], _ => rfl
  | d :: ds, h => by
    rw [outlineAll, outlineLines, linesAll, List.filter_append,
      lines_outline d (h d List.mem_cons_self),
      outlineLines_outlineAll ds fun d' hd' => h d' (List.mem_cons_of_mem d hd')]

end

end Layout
end LoadTest

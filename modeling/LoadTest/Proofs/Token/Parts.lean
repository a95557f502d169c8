import LoadTest.Proofs.Token.Reading

/-!
Texts made of parts: stretches without braces, and tokens.

Where all names are free of braces as well, replacing the token of a name acts on the parts one by
one (`replace_charsOf`), and what is read are the names of the parts (`names_charsOf`).
-/

namespace LoadTest
namespace Token

/-- A part of a text. -/
inductive Part where
  | plain (text : String)
  | token (name : String)

namespace Part

/-- What is written between the braces, if there are any. -/
def content : Part → String
  | plain text => text
  | token name => name

def chars : Part → List Char
  | plain text => text.toList
  | token name => written name.toList

/-- The part with a value for one name. -/
def fill (p : Part) (v : String × String) : Part :=
  match p with
  | plain text => plain text
  | token name => if name = v.1 then plain v.2 else token name

/-- The name of a token, if it has one. -/
def name? : Part → Option String
  | plain _ => none
  | token name => if name = "" then none else some name

end Part

def charsOf (parts : List Part) : List Char :=
  parts.flatMap Part.chars

/-- The text that is made of the parts. -/
def textOf (parts : List Part) : String :=
  String.ofList (charsOf parts)

theorem charsOf_cons (p : Part) (parts : List Part) :
    charsOf (p :: parts) = p.chars ++ charsOf parts :=
  List.flatMap_cons

/-! ## Replacing -/

theorem replace_written_append {a : List Char} (ha : '{' ∉ a) (name value s : List Char) :
    Text.replace (written name) value (a ++ s) = a ++ Text.replace (written name) value s := by
  induction a with
  | nil => rfl
  | cons c a ih =>
    rw [List.mem_cons, not_or] at ha
    have hstart : ¬ written name <+: c :: (a ++ s) := fun h =>
      ha.1 (List.cons_prefix_cons.mp h).1
    rw [List.cons_append, Text.replace_cons_of_not_prefix hstart, ih ha.2, List.cons_append]

/-- Of two plain names neither token starts in that of the other. -/
theorem replace_written_of_ne {name other : List Char} (hname : IsPlain name)
    (hother : IsPlain other) (hne : name ≠ other) (value s : List Char) :
    Text.replace (written name) value (written other ++ s) =
      written other ++ Text.replace (written name) value s := by
  have hfirst : ¬ written name <+: written other ++ s := by
    intro h
    rcases List.prefix_or_prefix_of_prefix h (List.prefix_append _ s) with hstart | hstart
    · exact hne (eq_of_infix_written hname hother hstart.isInfix)
    · exact hne (eq_of_infix_written hother hname hstart.isInfix).symm
  have hbody : '{' ∉ other ++ closing := by
    rw [List.mem_append, not_or]
    exact ⟨hother.1, by decide⟩
  have hsecond : ¬ written name <+: '{' :: ((other ++ closing) ++ s) := by
    intro h
    have hbrace : '{' :: (name ++ closing) <+: (other ++ closing) ++ s :=
      (List.cons_prefix_cons.mp h).2
    cases other with
    | nil => exact absurd (List.cons_prefix_cons.mp hbrace).1 (by decide)
    | cons c other =>
      rw [← (List.cons_prefix_cons.mp hbrace).1] at hbody
      exact hbody List.mem_cons_self
  have hwritten : written other ++ s = '{' :: '{' :: ((other ++ closing) ++ s) := by
    simp [written, opening]
  rw [hwritten] at hfirst ⊢
  rw [Text.replace_cons_of_not_prefix hfirst, Text.replace_cons_of_not_prefix hsecond,
    replace_written_append hbody]
  simp [written, opening]

/-- Replacing the token of a name fills the parts. -/
theorem replace_charsOf {v : String × String} (hv : IsPlain v.1.toList) {parts : List Part}
    (hparts : ∀ p ∈ parts, IsPlain p.content.toList) :
    Text.replace (written v.1.toList) v.2.toList (charsOf parts) =
      charsOf (parts.map fun p => p.fill v) := by
  induction parts with
  | nil => exact Text.replace_nil _ _
  | cons p parts ih =>
    obtain ⟨hp, hrest⟩ := List.forall_mem_cons.mp hparts
    rw [List.map_cons, charsOf_cons, charsOf_cons, ← ih hrest]
    cases p with
    | plain text => exact replace_written_append hp.1 _ _ _
    | token name =>
      by_cases hname : name = v.1
      · rw [Part.fill, if_pos hname, Part.chars, Part.chars, hname]
        exact Text.replace_append (written_ne_nil _) _ _
      · have hne : v.1.toList ≠ name.toList := fun h => hname (String.toList_inj.mp h).symm
        rw [Part.fill, if_neg hname]
        exact replace_written_of_ne hv hp hne _ _

/-! ## Reading -/

theorem names_append_charsOf {a : List Char} (ha : '{' ∉ a) {parts : List Part}
    (hparts : ∀ p ∈ parts, IsPlain p.content.toList) :
    names (a ++ charsOf parts) = (parts.filterMap Part.name?).map String.toList := by
  induction parts generalizing a with
  | nil =>
    refine names_of_not_infix fun h => ha ?_
    rw [charsOf, List.flatMap_nil, List.append_nil] at h
    exact h.subset List.mem_cons_self
  | cons p parts ih =>
    obtain ⟨hp, hrest⟩ := List.forall_mem_cons.mp hparts
    rw [charsOf_cons, ← List.append_assoc]
    cases p with
    | plain text =>
      have hplain : '{' ∉ a ++ text.toList := by
        rw [List.mem_append, not_or]
        exact ⟨ha, hp.1⟩
      exact ih hplain hrest
    | token name =>
      have hname : IsPlain name.toList := hp
      have hbehind := ih List.not_mem_nil hrest
      rw [List.nil_append] at hbehind
      rw [Part.chars, names_written (not_infix_opening ha) (not_infix_closing hname.2),
        hbehind, List.filterMap_cons, Part.name?]
      by_cases hempty : name = ""
      · subst hempty
        rfl
      · have hread : isName name.toList = true := (isName_iff hname).mpr (by simpa using hempty)
        rw [if_pos hread, if_neg hempty, List.map_cons]

/-- What is read of a text made of parts are the names of its tokens. -/
theorem names_charsOf {parts : List Part} (hparts : ∀ p ∈ parts, IsPlain p.content.toList) :
    names (charsOf parts) = (parts.filterMap Part.name?).map String.toList :=
  names_append_charsOf List.not_mem_nil hparts

end Token
end LoadTest

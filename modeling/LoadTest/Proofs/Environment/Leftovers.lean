import LoadTest.Environment
import LoadTest.Proofs.Token
import Mathlib

/-!
Tokens of known variables that are left after substitution.

The variables are replaced one after the other in the order of their names, each in all of the text
that the turns before it have made.  So the token of a variable that has a value is left only if the
value of that variable itself or of a later one brought it (`known_left`).
-/

namespace LoadTest
namespace Environment

open Token (written written_ne_nil IsPlain)

variable (e : Environment)

/-! ## One turn -/

theorem substituteOne_of_not_occurs {s : List Char} {v : String × String}
    (h : ¬ written v.1.toList <:+: s) : substituteOne s v = s :=
  Text.replace_of_not_occurs h _

/-- The turns change nothing in a text where no token starts. -/
theorem foldl_substituteOne_of_not_occurs {s : List Char} (h : ¬ Token.opening <:+: s)
    (entries : List (String × String)) : entries.foldl substituteOne s = s := by
  induction entries with
  | nil => rfl
  | cons v entries ih =>
    have hturn : substituteOne s v = s :=
      substituteOne_of_not_occurs fun hv => h ((Token.opening_infix_written _).trans hv)
    rw [List.foldl_cons, hturn, ih]

theorem substituteChars_eq_foldl (s : List Char) :
    e.substituteChars s = e.values.entries.foldl substituteOne s := by
  rw [substituteChars]
  split
  · rfl
  · next hopening =>
    rw [foldl_substituteOne_of_not_occurs fun h => hopening (Text.occurs_iff.mpr h)]

/-- A text in which no token starts is left as it is. -/
theorem substitute_of_not_opening {text : String} (h : ¬ Token.opening <:+: text.toList) :
    e.substitute text = text := by
  rw [substitute, substituteChars_eq_foldl, foldl_substituteOne_of_not_occurs h,
    String.ofList_toList]

/-- The turn of `v` brings the word `w` into `s`: a token is replaced, and in what comes of that the
word shares letters with the value.  It was not there before, or all that was there was replaced. -/
structure Brings (s : List Char) (v : String × String) (w : List Char) : Prop where
  replaced : written v.1.toList <:+: s
  meets : Text.Meets v.2.toList w
  absent : w <:+: s → written v.1.toList <:+: w
  present : w <:+: substituteOne s v

/-- What is there after a turn stayed or was brought. -/
theorem infix_substituteOne {s w : List Char} {v : String × String} (h : w <:+: substituteOne s v) :
    (w <:+: s ∧ ¬ written v.1.toList <:+: w) ∨ Brings s v w := by
  by_cases hstays : w <:+: s ∧ ¬ written v.1.toList <:+: w
  · exact .inl hstays
  · rcases Text.infix_replace (written_ne_nil _) h with hstayed | ⟨hreplaced, hmeets⟩
    · exact absurd hstayed hstays
    · exact .inr ⟨hreplaced, hmeets, fun hs => not_not.mp fun hno => hstays ⟨hs, hno⟩, h⟩

/-! ## All turns -/

/-- What is there after all turns was there from the start or was brought by one of them, and no
turn after that replaced it. -/
theorem infix_foldl {s w : List Char} {entries : List (String × String)}
    (h : w <:+: entries.foldl substituteOne s) :
    (w <:+: s ∧ ∀ u ∈ entries, ¬ written u.1.toList <:+: w) ∨
      ∃ before v after, entries = before ++ v :: after ∧
        Brings (before.foldl substituteOne s) v w ∧ ∀ u ∈ after, ¬ written u.1.toList <:+: w := by
  induction entries using List.reverseRecOn with
  | nil => exact .inl ⟨h, fun u hu => absurd hu List.not_mem_nil⟩
  | append_singleton entries v ih =>
    rw [List.foldl_concat] at h
    have hbehind {l : List (String × String)} (hl : ∀ u ∈ l, ¬ written u.1.toList <:+: w)
        (hv : ¬ written v.1.toList <:+: w) : ∀ u ∈ l ++ [v], ¬ written u.1.toList <:+: w :=
      List.forall_mem_append.mpr ⟨hl, List.forall_mem_singleton.mpr hv⟩
    rcases infix_substituteOne h with ⟨hstayed, hv⟩ | hbrings
    · rcases ih hstayed with ⟨hs, hnone⟩ | ⟨before, u, after, rfl, hbrings, hnone⟩
      · exact .inl ⟨hs, hbehind hnone hv⟩
      · exact .inr ⟨before, u, after ++ [v], by simp, hbrings, hbehind hnone hv⟩
    · exact .inr ⟨entries, v, [], rfl, hbrings, fun u hu => absurd hu List.not_mem_nil⟩

/-- A later turn brings the token of `name` into the text, or its own turn does. -/
def BringsBack (s : List Char) (name : String) : Prop :=
  ∃ before v after, e.values.entries = before ++ v :: after ∧ name ≤ v.1 ∧
    Brings (before.foldl substituteOne s) v (written name.toList)

theorem bringsBack_of_occurs {name value : String} (hknown : (name, value) ∈ e.values.entries)
    {s : List Char} (h : written name.toList <:+: e.substituteChars s) : e.BringsBack s name := by
  rw [substituteChars_eq_foldl] at h
  rcases infix_foldl h with ⟨-, hnone⟩ | ⟨before, v, after, hentries, hbrings, hnone⟩
  · exact absurd (List.infix_refl (written name.toList)) (hnone (name, value) hknown)
  · refine ⟨before, v, after, hentries, ?_, hbrings⟩
    have hsorted := e.values.sorted
    rw [hentries] at hsorted hknown
    have hbefore := (List.pairwise_append.mp hsorted).2.2
    rcases List.mem_append.mp hknown with hmem | hmem
    · exact String.not_lt.1 (String.lt_asymm (hbefore _ hmem v List.mem_cons_self))
    · rcases List.mem_cons.mp hmem with rfl | hmem
      · exact String.le_refl _
      · exact absurd (List.infix_refl (written name.toList)) (hnone (name, value) hmem)

theorem bringsBack_of_unresolved {name value : String} (hknown : (name, value) ∈ e.values.entries)
    {text : String} (h : name ∈ unresolvedTokens (e.substitute text)) :
    e.BringsBack text.toList name := by
  obtain ⟨found, hfound, rfl⟩ := List.mem_map.mp h
  have hwritten := Token.written_infix_of_mem_names hfound
  rw [substitute, String.toList_ofList] at hwritten
  exact e.bringsBack_of_occurs hknown (by rwa [String.toList_ofList])

theorem infix_foldl_of_not_meets {s w : List Char} {entries : List (String × String)}
    (h : ∀ u ∈ entries, ¬ Text.Meets (written u.1.toList) w) (hs : w <:+: s) :
    w <:+: entries.foldl substituteOne s := by
  induction entries generalizing s with
  | nil => exact hs
  | cons u entries ih =>
    obtain ⟨hu, hentries⟩ := List.forall_mem_cons.mp h
    exact ih hentries (Text.infix_replace_of_not_meets (written_ne_nil _) hu hs _)

/-- Later turns keep what was brought, if no name has braces. -/
theorem occurs_of_bringsBack (hplain : ∀ u ∈ e.values.entries, IsPlain u.1.toList)
    {name value : String} (hknown : (name, value) ∈ e.values.entries) {s : List Char}
    (h : e.BringsBack s name) : written name.toList <:+: e.substituteChars s := by
  obtain ⟨before, v, after, hentries, hle, hbrings⟩ := h
  have hsorted := e.values.sorted
  rw [hentries] at hsorted
  have hafter := (List.pairwise_cons.mp (List.pairwise_append.mp hsorted).2.1).1
  rw [substituteChars_eq_foldl, hentries, List.foldl_append, List.foldl_cons]
  refine infix_foldl_of_not_meets (fun u hu => ?_) hbrings.present
  have hmem : u ∈ e.values.entries := by
    rw [hentries]
    exact List.mem_append_right before (List.mem_cons_of_mem v hu)
  refine Token.not_meets_written (hplain u hmem) (hplain _ hknown) fun heq => ?_
  rw [String.toList_inj] at heq
  exact String.not_lt.2 hle (heq ▸ hafter u hu)

/-- The token of a variable with a value is left only if the value of that variable or of a later
one brought it back.  Where no name has braces, whatever is brought back is also left. -/
theorem known_left {name value : String} (hknown : (name, value) ∈ e.values.entries)
    (text : String) :
    (name ∈ unresolvedTokens (e.substitute text) → e.BringsBack text.toList name) ∧
      ((∀ u ∈ e.values.entries, IsPlain u.1.toList) →
        (written name.toList <:+: (e.substitute text).toList ↔ e.BringsBack text.toList name)) := by
  refine ⟨e.bringsBack_of_unresolved hknown, fun hplain => ?_⟩
  rw [substitute, String.toList_ofList]
  exact ⟨e.bringsBack_of_occurs hknown, e.occurs_of_bringsBack hplain hknown⟩

/-- The value of `b` brings the token of `a`, whose turn is over. -/
theorem known_left_nested :
    let e := ((new "").withVariable "a" "x").withVariable "b" "\x7b\x7ba\x7d\x7d"
    let text := "\x7b\x7bb\x7d\x7d"
    "a" ∈ unresolvedTokens (e.substitute text) ∧ e.BringsBack text.toList "a" ∧
      written "a".toList <:+: (e.substitute text).toList := by
  intro e text
  have hknown : ("a", "x") ∈ e.values.entries := by decide
  have hplain : ∀ u ∈ e.values.entries, IsPlain u.1.toList := by decide
  have htokens : unresolvedTokens (e.substitute text) = ["a"] := by cbv
  have hleft : "a" ∈ unresolvedTokens (e.substitute text) := htokens ▸ List.mem_singleton_self "a"
  have hback := (e.known_left hknown text).1 hleft
  exact ⟨hleft, hback, ((e.known_left hknown text).2 hplain).mpr hback⟩

/-- No text leaves the token of a variable if its value and those of the later variables have no
braces and are no parts of its name. -/
theorem not_mem_unresolvedTokens {name value : String} (hknown : (name, value) ∈ e.values.entries)
    (hvalues : ∀ u ∈ e.values.entries, name ≤ u.1 →
      '{' ∉ u.2.toList ∧ '}' ∉ u.2.toList ∧ ¬ u.2.toList <:+: name.toList) (text : String) :
    name ∉ unresolvedTokens (e.substitute text) := by
  intro h
  obtain ⟨before, v, after, hentries, hle, hbrings⟩ := e.bringsBack_of_unresolved hknown h
  have hmem : v ∈ e.values.entries := by
    rw [hentries]
    exact List.mem_append_right before List.mem_cons_self
  obtain ⟨hopen, hclose, hpart⟩ := hvalues v hmem hle
  exact hpart (Token.infix_of_meets_written hopen hclose hbrings.meets)

end Environment
end LoadTest

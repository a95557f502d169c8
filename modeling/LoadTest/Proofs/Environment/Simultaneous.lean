import LoadTest.Proofs.Environment.Unresolved
import LoadTest.Proofs.Token.Parts

/-!
Substitution in one pass.

The turns of the variables look at the whole text each.  Where a text is made of parts and all
values are free of braces, a turn acts on the parts one by one and what it has put there no other
turn touches, so all turns together fill each token once (`substitute_textOf`).
-/

namespace LoadTest
namespace Environment

open Token (IsPlain Part charsOf textOf)

/-- The part with the value of its variable in place of a token. -/
def fillPart (e : Environment) : Part → Part
  | .plain text => .plain text
  | .token name =>
    match e.values.get? name with
    | some value => .plain value
    | none => .token name

/-- The name of a token that has no value. -/
def unknown? (e : Environment) : Part → Option String
  | .plain _ => none
  | .token name => if name = "" ∨ (e.values.get? name).isSome then none else some name

/-- Braces stand only around names. -/
def Plain (parts : List Part) : Prop :=
  ∀ p ∈ parts, IsPlain p.content.toList

instance (parts : List Part) : Decidable (Plain parts) :=
  inferInstanceAs (Decidable (∀ p ∈ parts, IsPlain p.content.toList))

/-- Neither the names nor the values of these variables have braces. -/
def PlainValues (entries : List (String × String)) : Prop :=
  ∀ v ∈ entries, IsPlain v.1.toList ∧ IsPlain v.2.toList

instance (entries : List (String × String)) : Decidable (PlainValues entries) :=
  inferInstanceAs (Decidable (∀ v ∈ entries, IsPlain v.1.toList ∧ IsPlain v.2.toList))

/-! ## One turn -/

theorem isPlain_fill {p : Part} (hp : IsPlain p.content.toList) {v : String × String}
    (hv : IsPlain v.2.toList) : IsPlain (p.fill v).content.toList := by
  cases p with
  | plain text => exact hp
  | token name =>
    rw [Part.fill]
    split_ifs
    · exact hv
    · exact hp

/-- The turns of different names do not depend on each other. -/
theorem fill_comm {u v : String × String} (h : u.1 = v.1 → u = v) (p : Part) :
    (p.fill u).fill v = (p.fill v).fill u := by
  cases p with
  | plain text => rfl
  | token name =>
    by_cases hu : name = u.1
    · by_cases hv : name = v.1
      · rw [h (hu.symm.trans hv)]
      · simp only [Part.fill, if_pos hu, if_neg hv]
    · by_cases hv : name = v.1
      · simp only [Part.fill, if_neg hu, if_pos hv]
      · simp only [Part.fill, if_neg hu, if_neg hv]

/-! ## All turns -/

theorem foldl_substituteOne_charsOf {entries : List (String × String)}
    (hvalues : PlainValues entries) {parts : List Part} (hparts : Plain parts) :
    entries.foldl substituteOne (charsOf parts) =
      charsOf (parts.map fun p => entries.foldl Part.fill p) := by
  induction entries generalizing parts with
  | nil => simp
  | cons v entries ih =>
    obtain ⟨hv, hentries⟩ := List.forall_mem_cons.mp hvalues
    have hturn : substituteOne (charsOf parts) v = charsOf (parts.map fun p => p.fill v) :=
      Token.replace_charsOf hv.1 hparts
    have hfilled : Plain (parts.map fun p => p.fill v) :=
      List.forall_mem_map.mpr fun p hp => isPlain_fill (hparts p hp) hv.2
    rw [List.foldl_cons, hturn, ih hentries hfilled, List.map_map]
    rfl

theorem foldl_fill_plain (entries : List (String × String)) (text : String) :
    entries.foldl Part.fill (.plain text) = .plain text := by
  induction entries with
  | nil => rfl
  | cons v entries ih => exact ih

theorem foldl_fill (e : Environment) (p : Part) :
    e.values.entries.foldl Part.fill p = e.fillPart p := by
  cases p with
  | plain text => exact foldl_fill_plain _ text
  | token name =>
    rw [fillPart, Dict.get?]
    induction e.values.entries with
    | nil => rfl
    | cons v entries ih =>
      rw [List.foldl_cons, Part.fill, List.lookup_cons]
      by_cases hname : name = v.1
      · rw [if_pos hname, foldl_fill_plain, beq_iff_eq.mpr hname]
      · rw [if_neg hname, ih, beq_eq_false_iff_ne.mpr hname]

/-- The order of the turns does not matter. -/
theorem foldl_fill_of_perm {e : Environment} {turns : List (String × String)}
    (h : turns.Perm e.values.entries) (p : Part) : turns.foldl Part.fill p = e.fillPart p := by
  rw [← foldl_fill]
  refine h.foldl_eq' (fun u hu v hv p => fill_comm (fun hkey => ?_) p) p
  have hu := Dict.mem_entries_iff.mp (h.mem_iff.mp hu)
  have hv := Dict.mem_entries_iff.mp (h.mem_iff.mp hv)
  rw [hkey, hv, Option.some.injEq] at hu
  exact Prod.ext hkey hu.symm

theorem plain_map_fillPart (e : Environment) {parts : List Part} (hparts : Plain parts)
    (hvalues : PlainValues e.values.entries) : Plain (parts.map e.fillPart) := by
  refine List.forall_mem_map.mpr fun p hp => ?_
  cases p with
  | plain text => exact hparts _ hp
  | token name =>
    rw [fillPart]
    cases hvalue : e.values.get? name with
    | none => exact hparts _ hp
    | some value => exact (hvalues (name, value) (Dict.mem_entries_iff.mpr hvalue)).2

theorem filterMap_name?_fillPart (e : Environment) (parts : List Part) :
    (parts.map e.fillPart).filterMap Part.name? = parts.filterMap e.unknown? := by
  rw [List.filterMap_map]
  refine List.filterMap_congr fun p _ => ?_
  cases p with
  | plain text => rfl
  | token name =>
    rw [Function.comp_apply, fillPart, unknown?]
    cases e.values.get? name with
    | some value => simp [Part.name?]
    | none => simp [Part.name?]

/-! ## Substitution -/

/-- In a text made of parts all tokens with a value are filled at once, whatever the order of the
turns, and the names found in what comes of that are those of the other tokens, one by one. -/
theorem substitute_textOf (e : Environment) {parts : List Part} (hparts : Plain parts)
    (hvalues : PlainValues e.values.entries) :
    e.substitute (textOf parts) = textOf (parts.map e.fillPart) ∧
      (∀ turns : List (String × String), turns.Perm e.values.entries →
        turns.foldl substituteOne (charsOf parts) = charsOf (parts.map e.fillPart)) ∧
      unresolvedTokens (e.substitute (textOf parts)) = parts.filterMap e.unknown? := by
  have hturns (turns : List (String × String)) (hperm : turns.Perm e.values.entries) :
      turns.foldl substituteOne (charsOf parts) = charsOf (parts.map e.fillPart) := by
    have hplain : PlainValues turns := fun v hv => hvalues v (hperm.mem_iff.mp hv)
    rw [foldl_substituteOne_charsOf hplain hparts,
      List.map_congr_left fun p _ => foldl_fill_of_perm hperm p]
  have hsubstitute : e.substitute (textOf parts) = textOf (parts.map e.fillPart) := by
    rw [substitute, textOf, String.toList_ofList, substituteChars_eq_foldl,
      hturns _ (List.Perm.refl _), textOf]
  refine ⟨hsubstitute, hturns, ?_⟩
  rw [hsubstitute, unresolvedTokens, textOf, String.toList_ofList,
    Token.names_charsOf (e.plain_map_fillPart hparts hvalues), filterMap_name?_fillPart]
  simp

/-- The token of `host` is filled, the empty one and those of `x` stay. -/
theorem substitute_textOf_addressed :
    let e := (((new "").withVariable "host" "a.test").withVariable "team" "Payments")
    let parts := [Part.token "host", .plain "/", .token "x", .token "", .token "x"]
    e.substitute "{{host}}/{{x}}{{}}{{x}}" =
        "a.test/{{x}}{{}}{{x}}" ∧
      [("team", "Payments"), ("host", "a.test")].foldl substituteOne (charsOf parts) =
        charsOf [.plain "a.test", .plain "/", .token "x", .token "", .token "x"] ∧
      unresolvedTokens "a.test/{{x}}{{}}{{x}}" = ["x", "x"] := by
  intro e parts
  have hparts : Plain parts := by decide
  have hvalues : PlainValues e.values.entries := by decide
  obtain ⟨hfilled, hturns, hleft⟩ := e.substitute_textOf hparts hvalues
  have hleftText : textOf (parts.map e.fillPart) =
      "a.test/{{x}}{{}}{{x}}" := by decide
  have hunknown : parts.filterMap e.unknown? = ["x", "x"] := by decide
  rw [hfilled, hleftText, hunknown] at hleft
  exact ⟨hfilled.trans hleftText, hturns _ (List.Perm.swap _ _ _), hleft⟩

end Environment
end LoadTest

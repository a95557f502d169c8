import LoadTest.Proofs.Environment.Leftovers
import LoadTest.Proofs.Token.Reading

/-!
What is found of the tokens that substitution could replace.

Substitution replaces a token wherever it stands.  The names of a text are found by reading it from
the front, so a token is passed over where a pair of opening braces in front of it stands open:
that pair is read together with the closing braces of the token (`mem_unresolvedTokens_iff`).
-/

namespace LoadTest

open Token (written written_ne_nil IsPlain Settled Open)

/-- With a value for one name only, substitution changes the texts that have its token. -/
theorem Environment.substitute_withVariable_ne_iff (title : String) {name value : String}
    (hvalue : value.toList ≠ written name.toList) (text : String) :
    ((new title).withVariable name value).substitute text ≠ text ↔
      written name.toList <:+: text.toList := by
  have hentries : ((new title).withVariable name value).values.entries = [(name, value)] := rfl
  rw [substitute, substituteChars_eq_foldl, hentries, List.foldl_cons, List.foldl_nil, Ne,
    ← String.toList_inj, String.toList_ofList, not_iff_comm]
  exact (Text.replace_eq_self_iff (written_ne_nil _) hvalue).symm

theorem mem_unresolvedTokens {name text : String} :
    name ∈ unresolvedTokens text ↔ name.toList ∈ Token.names text.toList := by
  rw [unresolvedTokens, List.mem_map]
  constructor
  · rintro ⟨found, hfound, rfl⟩
    rwa [String.toList_ofList]
  · exact fun h => ⟨name.toList, h, String.ofList_toList⟩

/-- A name without braces is found if its token stands somewhere with no pair of braces open in
front of it; where it is not found, such a pair is in front of every token of it.  A value for the
name changes the text in both cases. -/
theorem mem_unresolvedTokens_iff {name : String} (hname : IsPlain name.toList) (hne : name ≠ "")
    (text : String) :
    (name ∈ unresolvedTokens text ↔ ∃ before after,
        text.toList = before ++ written name.toList ++ after ∧ Settled before) ∧
      (name ∉ unresolvedTokens text → ∀ before after,
        text.toList = before ++ written name.toList ++ after → Open before) ∧
      ∀ title value : String, value.toList ≠ written name.toList →
        (((Environment.new title).withVariable name value).substitute text ≠ text ↔
          written name.toList <:+: text.toList) := by
  have hletters : name.toList ≠ [] := by simpa using hne
  have hread := Token.mem_names_iff_of_isPlain (s := text.toList) hname hletters
  rw [mem_unresolvedTokens]
  refine ⟨hread, fun hmissed before after htext => ?_, fun title value hvalue => ?_⟩
  · rcases Token.settled_or_open before with hsettled | hopen
    · exact absurd (hread.mpr ⟨before, after, htext, hsettled⟩) hmissed
    · exact hopen
  · exact Environment.substitute_withVariable_ne_iff title hvalue text

/-- The braces in front of `base` are read together with those behind `id`. -/
theorem mem_unresolvedTokens_iff_nested :
    let text := "\x7b\x7bbase\x7b\x7bid\x7d\x7d"
    "id" ∉ unresolvedTokens text ∧ Open "\x7b\x7bbase".toList ∧
      ((Environment.new "").withVariable "id" "7").substitute text ≠ text := by
  intro text
  have hname : IsPlain "id".toList := by decide
  have htokens : unresolvedTokens text = [] := by decide +kernel
  have hmissed : "id" ∉ unresolvedTokens text := htokens ▸ List.not_mem_nil
  have htext : text.toList = "\x7b\x7bbase".toList ++ written "id".toList ++ [] := by decide
  obtain ⟨-, hopen, hchanges⟩ := mem_unresolvedTokens_iff hname (by decide) text
  exact ⟨hmissed, hopen hmissed _ _ htext,
    (hchanges "" "7" (by decide)).mpr ⟨_, _, htext.symm⟩⟩

end LoadTest

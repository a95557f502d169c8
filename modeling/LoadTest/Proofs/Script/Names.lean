import LoadTest.Proofs.Script.Declarations
import Mathlib.Data.List.DropRight

/-!
The name of a function, character by character.

A name is made word by word, but how a character is written depends only on what stands before it:
whether its word has begun, and whether any word has.  Read in this way the name of a function is
one pass over the name of the scenario, each character in its place, and a name that was made like
this is left alone.
-/

namespace LoadTest
namespace Script

/-- How a character that is kept is written behind `before`: as it is inside a word, raised where a
word begins, and lowered where the first one does. -/
def caseBehind (before : List Char) : Char → Char :=
  if (before.rtakeWhile (· ≠ ' ')).any isNameChar then id
  else if before.any isNameChar then Char.toUpper
  else Char.toLower

/-- The characters of `s` that are kept, as they are written behind `before`. -/
def casedFrom (before : List Char) : List Char → List Char
  | [] => []
  | c :: r =>
    if isNameChar c then caseBehind before c :: casedFrom (before ++ [c]) r
    else casedFrom (before ++ [c]) r

/-! ## The case of a character -/

theorem any_of_any_rtakeWhile {before : List Char}
    (h : (before.rtakeWhile (· ≠ ' ')).any isNameChar = true) : before.any isNameChar = true := by
  obtain ⟨c, hc, hkept⟩ := List.any_eq_true.mp h
  exact List.any_eq_true.mpr ⟨c, (List.rtakeWhile_suffix _ _).subset hc, hkept⟩

theorem caseBehind_of_none {before : List Char} (h : before.any isNameChar = false) :
    caseBehind before = Char.toLower := by
  have hword : ¬ (before.rtakeWhile (· ≠ ' ')).any isNameChar = true := fun hw => by
    rw [any_of_any_rtakeWhile hw] at h
    cases h
  rw [caseBehind, if_neg hword, if_neg (Bool.eq_false_iff.mp h)]

theorem caseBehind_kept (before : List Char) {c : Char} (hc : isNameChar c = true) :
    caseBehind (before ++ [c]) = id := by
  have hne : c ≠ ' ' := by
    rintro rfl
    cases hc
  rw [caseBehind, List.rtakeWhile_concat_pos _ _ _ (by simpa using hne), if_pos (by simp [hc])]

theorem caseBehind_blank {before : List Char} (h : before.any isNameChar = true) :
    caseBehind (before ++ [' ']) = Char.toUpper := by
  rw [caseBehind, List.rtakeWhile_concat_neg _ _ _ (by simp), if_neg (by simp),
    if_pos (by simp [h])]

theorem caseBehind_skipped (before : List Char) {c : Char} (hc : isNameChar c = false)
    (hne : c ≠ ' ') : caseBehind (before ++ [c]) = caseBehind before := by
  rw [caseBehind, caseBehind, List.rtakeWhile_concat_pos _ _ _ (by simpa using hne)]
  simp [hc]

/-! ## Word by word is character by character -/

/-- The words of `ws` joined, the first letter of each raised. -/
def raised (ws : List (List Char)) : List Char :=
  (ws.map (·.filter isNameChar)).flatMap (mapFirst Char.toUpper)

theorem splitOn_blank_cons {s w : List Char} {ws : List (List Char)} (h : s.splitOn ' ' = w :: ws)
    (c : Char) :
    (c :: s).splitOn ' ' = if c = ' ' then [] :: w :: ws else (c :: w) :: ws := by
  rw [List.splitOn_cons_eq_if_modifyHead, h]
  simp

theorem exists_splitOn_blank (s : List Char) : ∃ w ws, s.splitOn ' ' = w :: ws :=
  List.exists_cons_of_ne_nil (List.splitOn_ne_nil ' ' s)

theorem mapFirst_id (w : List Char) : mapFirst id w = w := by
  cases w <;> rfl

/-- Words that are dropped have nothing in them to raise. -/
theorem flatMap_filter_ne_nil (ws : List (List Char)) :
    (ws.filter (· ≠ [])).flatMap (mapFirst Char.toUpper) = ws.flatMap (mapFirst Char.toUpper) := by
  induction ws with
  | nil => rfl
  | cons w ws ih =>
    cases w with
    | nil => simpa [mapFirst] using ih
    | cons c w => simpa using ih

/-- Behind a character that is kept every word that begins is raised. -/
theorem casedFrom_of_any {s w : List Char} {ws : List (List Char)} (h : s.splitOn ' ' = w :: ws)
    (before : List Char) (hbefore : before.any isNameChar = true) :
    casedFrom before s = mapFirst (caseBehind before) (w.filter isNameChar) ++ raised ws := by
  induction s generalizing w ws before with
  | nil =>
    rw [List.splitOn_nil] at h
    cases h
    rfl
  | cons c s ih =>
    obtain ⟨v, vs, hs⟩ := exists_splitOn_blank s
    have ih := ih hs (before ++ [c]) (by simp [hbefore])
    rw [splitOn_blank_cons hs] at h
    by_cases hblank : c = ' '
    · subst hblank
      cases h
      rw [casedFrom, if_neg (by decide), ih, caseBehind_blank hbefore]
      rfl
    · rw [if_neg hblank] at h
      cases h
      cases hc : isNameChar c with
      | true =>
        rw [casedFrom, if_pos hc, ih, caseBehind_kept before hc, mapFirst_id,
          List.filter_cons_of_pos hc]
        rfl
      | false =>
        rw [casedFrom, if_neg (Bool.eq_false_iff.mp hc), ih, caseBehind_skipped before hc hblank,
          List.filter_cons_of_neg (Bool.eq_false_iff.mp hc)]

theorem nameWords_skipped {c : Char} (hc : isNameChar c = false) (s : List Char) :
    nameWords (c :: s) = nameWords s := by
  obtain ⟨w, ws, hs⟩ := exists_splitOn_blank s
  rw [nameWords, nameWords, splitOn_blank_cons hs, hs]
  split
  · simp
  · simp [hc]

theorem nameWords_kept {c : Char} (hc : isNameChar c = true) {s w : List Char}
    {ws : List (List Char)} (hs : s.splitOn ' ' = w :: ws) :
    nameWords (c :: s) = (c :: w.filter isNameChar) ::
      (ws.map (·.filter isNameChar)).filter (· ≠ []) := by
  have hne : c ≠ ' ' := by
    rintro rfl
    cases hc
  rw [nameWords, splitOn_blank_cons hs, if_neg hne, List.map_cons, List.filter_cons_of_pos hc,
    List.filter_cons_of_pos (by simp)]

/-- The words are joined as if the name were read from the left. -/
theorem camelCase_nameWords (before s : List Char) (hbefore : before.any isNameChar = false) :
    camelCase (nameWords s) = casedFrom before s := by
  induction s generalizing before with
  | nil => rfl
  | cons c s ih =>
    cases hc : isNameChar c with
    | true =>
      obtain ⟨w, ws, hs⟩ := exists_splitOn_blank s
      rw [nameWords_kept hc hs, camelCase, casedFrom, if_pos hc, caseBehind_of_none hbefore,
        casedFrom_of_any hs _ (by simp [hc]), caseBehind_kept before hc, mapFirst_id,
        flatMap_filter_ne_nil]
      rfl
    | false =>
      rw [nameWords_skipped hc, casedFrom, if_neg (Bool.eq_false_iff.mp hc),
        ih (before ++ [c]) (by rw [List.any_append, hbefore, List.any_cons, hc]; rfl)]

/-! ## Places -/

theorem casedFrom_append (before s t : List Char) :
    casedFrom before (s ++ t) = casedFrom before s ++ casedFrom (before ++ s) t := by
  induction s generalizing before with
  | nil => simp [casedFrom]
  | cons c s ih =>
    rw [List.cons_append, casedFrom, casedFrom, ih, List.append_assoc, List.singleton_append]
    split <;> rfl

theorem length_casedFrom (before s : List Char) :
    (casedFrom before s).length = (s.filter isNameChar).length := by
  induction s generalizing before with
  | nil => rfl
  | cons c s ih =>
    rw [casedFrom, List.filter_cons]
    split
    · rw [List.length_cons, List.length_cons, ih]
    · exact ih _

/-- Every character that is kept has its place behind those that are kept before it. -/
theorem getElem?_casedFrom (before : List Char) {c : Char} (hc : isNameChar c = true)
    (after : List Char) :
    (casedFrom [] (before ++ c :: after))[(before.filter isNameChar).length]? =
      some (caseBehind before c) := by
  rw [casedFrom_append, ← length_casedFrom [] before, List.getElem?_append_right (Nat.le_refl _),
    Nat.sub_self, casedFrom, if_pos hc]
  rfl

/-! ## What goes in front -/

theorem isNameStart_toLower {c : Char} (h : isNameChar c = true) :
    isNameStart c.toLower = !c.isDigit :=
  ascii_forall (P := fun c => isNameChar c = true → isNameStart c.toLower = !c.isDigit)
    (by decide +kernel) c (toNat_lt_of_isNameChar h) h

theorem isNameChar_of_filter {s kept : List Char} {c : Char}
    (h : s.filter isNameChar = c :: kept) : isNameChar c = true :=
  (List.mem_filter.mp (h ▸ List.mem_cons_self)).2

/-- The first character that is kept is lowered. -/
theorem exists_casedFrom_of_filter {s kept : List Char} {c : Char}
    (h : s.filter isNameChar = c :: kept) : ∃ r, casedFrom [] s = c.toLower :: r := by
  obtain ⟨before, after, rfl, hbefore, hc, -⟩ := List.filter_eq_cons_iff.mp h
  have hfirst := getElem?_casedFrom before hc after
  rw [List.filter_eq_nil_iff.mpr hbefore, List.length_nil, ← List.head?_eq_getElem?,
    caseBehind_of_none (List.any_eq_false.mpr hbefore)] at hfirst
  exact List.head?_eq_some_iff.mp hfirst

theorem guardStart_casedFrom (s : List Char) : guardStart (casedFrom [] s) =
    if (s.filter isNameChar).head?.all Char.isDigit then '_' :: casedFrom [] s
    else casedFrom [] s := by
  cases hkept : s.filter isNameChar with
  | nil =>
    have hnil : casedFrom [] s = [] := by
      rw [← List.length_eq_zero_iff, length_casedFrom, hkept, List.length_nil]
    rw [hnil]
    rfl
  | cons c kept =>
    obtain ⟨r, hr⟩ := exists_casedFrom_of_filter hkept
    rw [hr, guardStart, isNameStart_toLower (isNameChar_of_filter hkept), List.head?_cons,
      Option.all_some]
    cases c.isDigit <;> rfl

theorem functionChars_eq (s : List Char) : functionChars s =
    if (s.filter isNameChar).head?.all Char.isDigit then '_' :: casedFrom [] s
    else casedFrom [] s := by
  rw [functionChars, camelCase_nameWords [] s rfl, guardStart_casedFrom]

/-! ## Names of functions as names of scenarios -/

theorem casedFrom_inside (before : List Char) {c : Char} (hc : isNameChar c = true) {r : List Char}
    (hr : ∀ d ∈ r, isNameChar d = true) : casedFrom (before ++ [c]) r = r := by
  induction r generalizing before c with
  | nil => rfl
  | cons d r ih =>
    rw [List.forall_mem_cons] at hr
    rw [casedFrom, if_pos hr.1, caseBehind_kept before hc, ih (before ++ [c]) hr.1 hr.2]
    rfl

theorem toLower_toLower {c : Char} (h : isNameChar c = true) : c.toLower.toLower = c.toLower :=
  ascii_forall (P := fun c => isNameChar c = true → c.toLower.toLower = c.toLower)
    (by decide +kernel) c (toNat_lt_of_isNameChar h) h

/-- A function starts with a character that a name may start with, and not in upper case. -/
theorem exists_functionChars (s : List Char) :
    ∃ c r, functionChars s = c :: r ∧ isNameStart c = true ∧ c.toLower = c := by
  rw [functionChars_eq]
  cases hkept : s.filter isNameChar with
  | nil => exact ⟨'_', casedFrom [] s, rfl, by decide, by decide⟩
  | cons c kept =>
    rw [List.head?_cons, Option.all_some]
    split
    · exact ⟨'_', casedFrom [] s, rfl, by decide, by decide⟩
    · next hdigit =>
      have hc := isNameChar_of_filter hkept
      obtain ⟨r, hr⟩ := exists_casedFrom_of_filter hkept
      refine ⟨c.toLower, r, hr, ?_, toLower_toLower hc⟩
      rw [isNameStart_toLower hc, Bool.eq_false_iff.mpr hdigit]
      rfl

theorem functionChars_functionChars (s : List Char) :
    functionChars (functionChars s) = functionChars s := by
  have hchars := fun d => isNameChar_of_mem_functionChars (s := s) (c := d)
  obtain ⟨c, r, hcons, hstart, hlower⟩ := exists_functionChars s
  rw [hcons] at hchars ⊢
  obtain ⟨hc, hr⟩ := List.forall_mem_cons.mp hchars
  have hcased : casedFrom [] (c :: r) = c :: r := by
    have hinside := casedFrom_inside [] hc hr
    rw [casedFrom, if_pos hc, caseBehind_of_none rfl, hlower, hinside]
  have hdigit : c.isDigit = false := by
    have hnot := isNameStart_toLower hc
    rw [hlower, hstart] at hnot
    simpa using hnot.symm
  rw [functionChars_eq, hcased, List.filter_cons_of_pos hc, List.head?_cons, Option.all_some,
    hdigit]
  rfl

/-- The function of a scenario has a name.  It is the one that a scenario of that name has as well,
and it is spelled with the letters, digits and underscores of the scenario's name in their order,
in another case at most, behind an underscore if there are none or a digit comes first. -/
theorem functionName_spelled (name : String) :
    (∃ c r, (functionName name).toList = c :: r ∧ isNameStart c = true ∧
      r.all isNameChar = true) ∧
    functionName (functionName name) = functionName name ∧
    ∃ body, (functionName name).toList =
        (if (name.toList.filter isNameChar).head?.all Char.isDigit then '_' :: body else body) ∧
      body.length = (name.toList.filter isNameChar).length ∧
      ∀ before c after, name.toList = before ++ c :: after → isNameChar c = true →
        body[(before.filter isNameChar).length]? = some (caseBehind before c) := by
  refine ⟨exists_isNameStart name, ?_, casedFrom [] name.toList, ?_, length_casedFrom _ _, ?_⟩
  · rw [functionName, functionName, String.toList_ofList, functionChars_functionChars]
  · rw [functionName, String.toList_ofList, functionChars_eq]
  · intro before c after hname hc
    rw [hname]
    exact getElem?_casedFrom before hc after

example : functionName "2 fast Users" = "_2FastUsers" := by decide +kernel

end Script
end LoadTest

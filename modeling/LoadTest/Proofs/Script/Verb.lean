import LoadTest.Proofs.Script.Literals
import LoadTest.Text.Query
import Mathlib

/-!
The verb of a request, as it is read off the call that sends it.

A call names its verb by the function of the `http` module that it uses, or as the first argument of
`http.request`.  A request with headers is always sent in the second way.  Both ways agree on every
method but `del`, which stands for `DELETE` only where the function is used.
-/

namespace LoadTest
namespace Text

/-! ## Letters with a lower case in ASCII -/

theorem toNat_ofNat (n : Nat) : (Char.ofNat n).toNat = if n.isValidChar then n else 0 := by
  unfold Char.ofNat
  split
  · simp [Char.toNat, Char.ofNatAux, UInt32.toNat]
  · rfl

/-- The code point `d` would have to come from `d - r.offset`. -/
theorem Run.image?_ne {r : Run} {n d : Nat} (hd : d ≠ 0) (hn : 0x80 ≤ n)
    (h : ¬ (0x80 ≤ (d : Int) - r.offset ∧ r.first ≤ (d : Int) - r.offset ∧
      (d : Int) - r.offset ≤ r.last)) : r.image? n ≠ some d := by
  intro himage
  rw [Run.image?] at himage
  split at himage
  · next hrange =>
    have hshift : ((n : Int) + r.offset).toNat = d := Option.some.inj himage
    omega
  · cases himage

/-- The letters of `del`. -/
def delLetters : List Char := ['d', 'e', 'l']

theorem ne_of_mem_delLetters {c d : Char} (hc : 0x80 ≤ c.toNat) (hd : d ∈ delLetters) : d ≠ c := by
  have hall : (delLetters.all fun d => d.toNat < 0x80) = true := by decide
  have hsmall : d.toNat < 0x80 := of_decide_eq_true (List.all_eq_true.mp hall d hd)
  rintro rfl
  exact absurd hsmall (Nat.not_lt.mpr hc)

/-- Only ASCII letters have one of these letters as their lower case. -/
theorem not_mem_lowerChar {c : Char} (hc : 0x80 ≤ c.toNat) :
    lowerChar c ≠ [] ∧ ∀ d ∈ delLetters, d ∉ lowerChar c := by
  have hexpansions : ∀ x ∈ lowerExpansions, x.2.map Char.ofNat ≠ [] ∧
      (delLetters.all fun d => d ∉ x.2.map Char.ofNat) = true := by decide
  have hruns : (delLetters.all fun d => d.toNat ≠ 0 ∧ ∀ r ∈ lowerRuns,
      ¬ (0x80 ≤ (d.toNat : Int) - r.offset ∧ r.first ≤ (d.toNat : Int) - r.offset ∧
        (d.toNat : Int) - r.offset ≤ r.last)) = true := by decide +kernel
  rw [lowerChar, if_neg (Nat.not_lt.mpr hc), mapCase]
  split
  · next image himage =>
    obtain ⟨before, after, hentry, -⟩ := List.lookup_eq_some_iff.mp himage
    have hmem : (c.toNat, image) ∈ lowerExpansions := by simp [hentry]
    obtain ⟨hne, hnone⟩ := hexpansions _ hmem
    exact ⟨hne, fun d hd => of_decide_eq_true (List.all_eq_true.mp hnone d hd)⟩
  · split
    · next n hn =>
      obtain ⟨r, hr, himage⟩ := List.exists_of_findSome?_eq_some hn
      refine ⟨List.cons_ne_nil _ _, fun d hd hmem => ?_⟩
      obtain ⟨hzero, hruns⟩ := of_decide_eq_true (List.all_eq_true.mp hruns d hd)
      have hnat := congrArg Char.toNat (List.mem_singleton.mp hmem)
      rw [toNat_ofNat] at hnat
      split at hnat
      · exact Run.image?_ne hzero hc (hruns r hr) (hnat ▸ himage)
      · exact hzero hnat
    · refine ⟨List.cons_ne_nil _ _, fun d hd hmem => ?_⟩
      exact ne_of_mem_delLetters hc hd (List.mem_singleton.mp hmem)

theorem lowerFrom_eq_iff {w : List Char} (hw : ∀ d ∈ w, d ∈ delLetters) (before s : List Char) :
    lowerFrom before s = w ↔ s.map Char.toLower = w := by
  induction s generalizing before w with
  | nil => rfl
  | cons c s ih =>
    rw [lowerFrom, List.map_cons]
    by_cases hc : c.toNat < 0x80
    · have hsigma : c ≠ capitalSigma := by
        rintro rfl
        revert hc
        decide
      rw [if_neg hsigma, lowerChar, if_pos hc, List.singleton_append]
      cases w with
      | nil => simp
      | cons d w =>
        rw [List.cons.injEq, List.cons.injEq, ih fun d hd => hw d (List.mem_cons_of_mem _ hd)]
    · have hc : 0x80 ≤ c.toNat := Nat.not_lt.mp hc
      -- Such a letter has another lower case, and in ASCII it has none.
      refine iff_of_false ?_ ?_
      · have hhead : (if c = capitalSigma then [lowerSigma before s] else lowerChar c) ≠ [] ∧
            ∀ d ∈ delLetters,
              d ∉ if c = capitalSigma then [lowerSigma before s] else lowerChar c := by
          split
          · have hsigma : 0x80 ≤ (lowerSigma before s).toNat := by
              rw [lowerSigma]
              split <;> decide
            refine ⟨List.cons_ne_nil _ _, fun d hd hmem => ?_⟩
            exact ne_of_mem_delLetters hsigma hd (List.mem_singleton.mp hmem)
          · exact not_mem_lowerChar hc
        rintro rfl
        obtain ⟨d, hd⟩ := List.exists_mem_of_ne_nil _ hhead.1
        exact hhead.2 d (hw d (List.mem_append_left _ hd)) hd
      · rintro rfl
        have hlower : c.toLower = c := by
          rw [Char.toLower, dif_neg]
          rintro ⟨-, hle⟩
          exact absurd hc (Nat.not_le.mpr ((UInt32.le_iff_toNat_le.mp hle).trans_lt (by decide)))
        exact ne_of_mem_delLetters hc (hw _ List.mem_cons_self) hlower

end Text

namespace Script

open Piece (code quoted)

/-! ## Reading a call -/

/-- The verb that a function of the `http` module sends, if it takes the URL first. -/
def functionVerb? (function : String) : Option String :=
  match function with
  | "get" => some "GET"
  | "post" => some "POST"
  | "put" => some "PUT"
  | "patch" => some "PATCH"
  | "del" => some "DELETE"
  | "head" => some "HEAD"
  | "options" => some "OPTIONS"
  | _ => none

/-- The first argument of a call, if it is a literal. -/
def firstLiteral? : List Char → Option String
  | '"' :: r => (literal? r).map fun l => String.ofList l.1
  | _ => none

/-- The verb of a call of the `http` module. -/
def callVerb? (call : List Char) : Option String := do
  let call ← "http.".toList.isPrefixOf? call
  let function := String.ofList (call.takeWhile (· ≠ '('))
  let arguments := (call.dropWhile (· ≠ '(')).drop 1
  if function = "request" then firstLiteral? arguments else functionVerb? function

/-- The verb of the call that sends a request. -/
def sentVerb? (e : Environment) (c : Plan.Call) : Option String :=
  callVerb? (Line.render (requestPieces e c)).toList

theorem callVerb?_append {function : String} (h : '(' ∉ function.toList) (arguments : List Char) :
    callVerb? ("http.".toList ++ function.toList ++ '(' :: arguments) =
      if function = "request" then firstLiteral? arguments else functionVerb? function := by
  have hhttp : "http.".toList.isPrefixOf? ("http.".toList ++ function.toList ++ '(' :: arguments) =
      some (function.toList ++ '(' :: arguments) := rfl
  rw [callVerb?, hhttp, Option.bind_eq_bind, Option.bind_some, Text.takeWhile_ne_append_cons h,
    Text.dropWhile_ne_append_cons h, String.ofList_toList]
  rfl

theorem firstLiteral?_quote (s : String) (r : List Char) :
    firstLiteral? ((Json.quote s).toList ++ r) = some s := by
  have hliteral := literal?_escape s.toList r
  rw [Json.quote, String.toList_ofList, List.append_assoc, List.cons_append, List.singleton_append,
    firstLiteral?, hliteral, Option.map_some, String.ofList_toList]

/-! ## The verb that is sent -/

/-- The verb that a function stands for is its method in upper case, but for `del`. -/
theorem functionVerb?_of_shorthand? {method function : String}
    (h : shorthand? method = some function) :
    '(' ∉ function.toList ∧ function ≠ "request" ∧ functionVerb? function =
      some (if method = "del" then "DELETE" else String.ofList (Text.upper method.toList)) := by
  unfold shorthand? at h
  split at h
  all_goals cases h
  all_goals exact ⟨by decide, by decide, by decide⟩

/-- A line that starts with a call is read by the function and the arguments. -/
theorem callVerb?_line {function : String} (h : '(' ∉ function.toList) (r : Line) :
    callVerb? (Line.render (code ("http." ++ function ++ "(") :: r)).toList =
      if function = "request" then firstLiteral? r.render.toList else functionVerb? function := by
  have hcall := callVerb?_append h r.render.toList
  rw [toList_render, List.flatMap_cons, ← toList_render]
  simpa [Piece.render, String.toList_append] using hcall

theorem callVerb?_request (v : String) (r : Line) :
    callVerb? (Line.render (code "http.request(" :: quoted v :: r)).toList = some v := by
  have hname : '(' ∉ "request".toList := by decide
  have hcall := callVerb?_line hname (quoted v :: r)
  rw [if_pos rfl, toList_render (quoted v :: r), List.flatMap_cons, Piece.render,
    firstLiteral?_quote] at hcall
  exact hcall

/-- The method is `del` in some letter case. -/
def IsDel (method : String) : Prop :=
  method.toList.map Char.toLower = Text.delLetters

instance (method : String) : Decidable (IsDel method) :=
  inferInstanceAs (Decidable (_ = _))

theorem lower_eq_iff_isDel (method : String) :
    String.ofList (Text.lower method.toList) = "del" ↔ IsDel method := by
  rw [IsDel, ← Text.lowerFrom_eq_iff (fun _ hd => hd) [], ← String.toList_inj, String.toList_ofList]
  rfl

/-- A request without headers whose method is `del` sends `DELETE`, and every other one its method
in upper case. -/
theorem sentVerb?_eq (e : Environment) (c : Plan.Call) :
    sentVerb? e c = some (if c.headers = [] ∧ IsDel c.method then "DELETE"
      else verb c.method.toList) := by
  rw [sentVerb?, requestPieces]
  split
  · next hheaders =>
    cases hfunction : shorthand? (String.ofList (Text.lower c.method.toList)) with
    | some function =>
      obtain ⟨hname, hrequest, hverb⟩ := functionVerb?_of_shorthand? hfunction
      rw [String.toList_ofList] at hverb
      rw [callVerb?_line hname, if_neg hrequest, hverb, verb]
      simp only [hheaders, lower_eq_iff_isDel, true_and]
    | none =>
      have hmethod : ¬ IsDel c.method := by
        rw [← lower_eq_iff_isDel]
        intro hlower
        rw [hlower] at hfunction
        cases hfunction
      rw [callVerb?_request, if_neg fun h => hmethod h.2]
  · next hheaders =>
    rw [if_neg fun h => hheaders h.1]
    exact callVerb?_request _ _

theorem verb_of_isDel {method : String} (h : IsDel method) : verb method.toList = "DEL" := by
  have hlower : Text.lower method.toList = Text.delLetters :=
    (Text.lowerFrom_eq_iff (fun _ hd => hd) [] _).mpr h
  rw [verb, hlower]
  rfl

/-- With headers and without, a request sends the same verb, unless its method is `del` in some
letter case: then it sends `DELETE` without headers, and with headers a verb `DEL`. -/
theorem verb_with_headers (e : Environment) (c : Plan.Call) (h : Plan.Pair) (hs : List Plan.Pair) :
    ∃ bare full, sentVerb? e { c with headers := [] } = some bare ∧
      sentVerb? e { c with headers := h :: hs } = some full ∧
      (bare = full ↔ ¬ IsDel c.method) ∧
      (IsDel c.method → bare = "DELETE" ∧ full = "DEL") ∧
      (¬ IsDel c.method → bare = verb c.method.toList) := by
  refine ⟨_, _, sentVerb?_eq e { c with headers := [] },
    sentVerb?_eq e { c with headers := h :: hs }, ?_⟩
  have hfull : ¬ (h :: hs = [] ∧ IsDel c.method) := fun hnone => List.cons_ne_nil _ _ hnone.1
  by_cases hmethod : IsDel c.method
  · rw [if_pos ⟨rfl, hmethod⟩, if_neg hfull, verb_of_isDel hmethod]
    exact ⟨iff_of_false (by decide) (not_not_intro hmethod), fun _ => ⟨rfl, rfl⟩,
      fun hno => absurd hmethod hno⟩
  · rw [if_neg fun hboth => hmethod hboth.2, if_neg hfull]
    exact ⟨iff_of_true rfl hmethod, fun hdel => absurd hdel hmethod, fun _ => rfl⟩

theorem verb_with_headers_del :
    sentVerb? (.new "") ⟨"", "del", "/", [], []⟩ ≠
      sentVerb? (.new "") ⟨"", "del", "/", [], [⟨"Accept", "*/*"⟩]⟩ := by
  obtain ⟨bare, full, hbare, hfull, hiff, -⟩ :=
    verb_with_headers (.new "") ⟨"", "del", "/", [], []⟩ ⟨"Accept", "*/*"⟩ []
  rw [hbare, hfull]
  exact fun h => hiff.mp (Option.some.inj h) (by decide)

end Script
end LoadTest

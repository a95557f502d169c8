import LoadTest.Json.Printer
import LoadTest.Json.Reader
import Mathlib.Data.List.Basic
import Mathlib.Data.List.TakeWhile

/-!
Quoted texts and numbers as they are written, read again.

A quoted text ends at the first quote that is not escaped.  A number ends where no digit, point or
exponent follows, so what is read of it does not depend on what comes after.
-/

namespace LoadTest
namespace Json

/-! ## Quoted texts -/

theorem hexUnit?_control : ∀ n < 0x20,
    hexUnit? '0' '0' (lowerHexDigit (n / 16)) (lowerHexDigit (n % 16)) = some n := by
  decide

theorem units?_letter {d c : Char} (hd : d ≠ 'u') (hc : escaped? d = some c) (r : List Char) :
    units? (['\\', d] ++ r) = (units? r).map (pushUnit (.char c)) := by
  show units? ('\\' :: d :: r) = _
  rw [units?, hc]
  · cases units? r <;> rfl
  · intro _ _ _ _ _ h _
    exact hd h

theorem units?_control {c : Char} (hc : c.toNat < 0x20) (r : List Char) :
    units? (escapeControl c ++ r) = (units? r).map (pushUnit (.unit c.toNat)) := by
  rw [escapeControl]
  simp only [List.cons_append, List.nil_append]
  rw [units?, hexUnit?_control c.toNat hc]
  cases units? r <;> rfl

theorem units?_plain {c : Char} (hquote : c ≠ '"') (hback : c ≠ '\\') (hc : ¬ c.toNat < 0x20)
    (r : List Char) : units? ([c] ++ r) = (units? r).map (pushUnit (.char c)) := by
  rw [List.singleton_append, units?, if_neg (by simp [hback, hc])]
  · cases units? r <;> rfl
  · exact hquote
  · intro _ _ _ _ _ h _
    exact hback h
  · intro _ _ h _
    exact hback h

/-- A character is read as itself, or as its number when that is how it was written. -/
theorem units?_escapeChar (c : Char) (r : List Char) :
    units? (escapeChar c ++ r) = (units? r).map (pushUnit (.char c)) ∨
      c.toNat < 0x20 ∧ units? (escapeChar c ++ r) = (units? r).map (pushUnit (.unit c.toNat)) := by
  have hletter : ∀ {n : Nat}, c.toNat = n → c = Char.ofNat n := by
    intro n h
    rw [← h, Char.ofNat_toNat]
  rw [escapeChar]
  split_ifs with hquote hback h8 h9 hA hC hD hcontrol
  · subst hquote
    exact Or.inl (units?_letter (by decide) rfl r)
  · subst hback
    exact Or.inl (units?_letter (by decide) rfl r)
  · exact Or.inl (hletter h8 ▸ units?_letter (by decide) rfl r)
  · exact Or.inl (hletter h9 ▸ units?_letter (by decide) rfl r)
  · exact Or.inl (hletter hA ▸ units?_letter (by decide) rfl r)
  · exact Or.inl (hletter hC ▸ units?_letter (by decide) rfl r)
  · exact Or.inl (hletter hD ▸ units?_letter (by decide) rfl r)
  · exact Or.inr ⟨hcontrol, units?_control hcontrol r⟩
  · exact Or.inl (units?_plain hquote hback hcontrol r)

theorem joinUnits?_control {c : Char} (hc : c.toNat < 0x20) (us : List CodeUnit) :
    joinUnits? (.unit c.toNat :: us) = (joinUnits? us).map (c :: ·) := by
  have hhigh : isHighSurrogate c.toNat = false := by
    rw [isHighSurrogate, Bool.and_eq_false_iff, decide_eq_false_iff_not]
    omega
  have hlow : isLowSurrogate c.toNat = false := by
    rw [isLowSurrogate, Bool.and_eq_false_iff, decide_eq_false_iff_not]
    omega
  cases us with
  | nil => simp [joinUnits?, hhigh, hlow]
  | cons u us =>
    cases u with
    | char d =>
      show (if isHighSurrogate c.toNat || isLowSurrogate c.toNat then none
        else do return Char.ofNat c.toNat :: (← joinUnits? (.char d :: us))) = _
      rw [if_neg (by simp [hhigh, hlow]), Char.ofNat_toNat]
      cases joinUnits? (.char d :: us) <;> rfl
    | unit m =>
      rw [joinUnits?, if_neg (by simp [hhigh]), if_neg (by simp [hlow]), Char.ofNat_toNat]
      cases joinUnits? (.unit m :: us) <;> rfl

/-- A quoted text ends where it was ended and says what it said. -/
theorem exists_units (s r : List Char) :
    ∃ us, units? (escape s ++ '"' :: r) = some (us, r) ∧ joinUnits? us = some s := by
  induction s with
  | nil => exact ⟨[], by rw [escape_nil, List.nil_append, units?], rfl⟩
  | cons c s ih =>
    obtain ⟨us, hunits, hjoin⟩ := ih
    rw [escape_cons, List.append_assoc]
    rcases units?_escapeChar c (escape s ++ '"' :: r) with h | ⟨hc, h⟩
    · refine ⟨.char c :: us, by rw [h, hunits]; rfl, ?_⟩
      rw [joinUnits?, hjoin]
      rfl
    · refine ⟨.unit c.toNat :: us, by rw [h, hunits]; rfl, ?_⟩
      rw [joinUnits?_control hc, hjoin]
      rfl

theorem string?_escape (s : String) (r : List Char) :
    string? (escape s.toList ++ '"' :: r) = some (s, r) := by
  obtain ⟨us, hunits, hjoin⟩ := exists_units s.toList r
  rw [string?, hunits]
  show (do return (String.ofList (← joinUnits? us), r)) = _
  rw [hjoin]
  exact congrArg some (Prod.ext (String.ofList_toList) rfl)

/-! ## Numbers -/

/-- Text that does not go on with a number. -/
def Stops (s : List Char) : Prop :=
  ∀ c r, s = c :: r → c.isDigit = false ∧ c ≠ '.' ∧ c ≠ 'e' ∧ c ≠ 'E'

theorem stops_nil : Stops [] := by
  intro c r h
  cases h

theorem stops_comma (r : List Char) : Stops (',' :: r) := by
  intro c s h
  cases h
  decide

theorem stops_bracket (r : List Char) : Stops (']' :: r) := by
  intro c s h
  cases h
  decide

theorem stops_brace (r : List Char) : Stops ('}' :: r) := by
  intro c s h
  cases h
  decide

theorem Stops.append_ne {rest s : List Char} (hrest : Stops rest) {c : Char}
    (hc : c = '.' ∨ c = 'e' ∨ c = 'E') (hs : ∀ r, s ≠ c :: r) : ∀ r, s ++ rest ≠ c :: r := by
  intro r heq
  cases s with
  | nil =>
    obtain ⟨-, hpoint, he, hE⟩ := hrest c r heq
    rcases hc with h | h | h
    · exact hpoint h
    · exact he h
    · exact hE h
  | cons d s =>
    cases heq
    exact hs s rfl

theorem spanDigits_append {rest : List Char} (hrest : Stops rest) (s : List Char) :
    spanDigits (s ++ rest) = ((spanDigits s).1, (spanDigits s).2 ++ rest) := by
  induction s with
  | nil =>
    cases rest with
    | nil => rfl
    | cons c r => simp [spanDigits, (hrest c r rfl).1]
  | cons c s ih =>
    rw [spanDigits, Prod.mk.injEq] at ih
    by_cases hc : c.isDigit = true
    · simp [spanDigits, hc, ih.1, ih.2]
    · simp [spanDigits, hc]

theorem wholeDigits?_eq_some_iff {s digits r : List Char} :
    wholeDigits? s = some (digits, r) ↔
      spanDigits s = (digits, r) ∧ digits ≠ [] ∧ ∀ c t, digits ≠ '0' :: c :: t := by
  rw [wholeDigits?]
  split
  · rename_i heq
    rw [heq]
    constructor
    · intro h
      cases h
    · intro h
      cases h.1
      exact absurd rfl h.2.1
  · rename_i heq
    rw [heq]
    constructor
    · intro h
      cases h
    · intro h
      cases h.1
      exact absurd rfl (h.2.2 _ _)
  · rename_i hnil hzero heq
    rw [heq]
    constructor
    · intro h
      cases h
      exact ⟨rfl, hnil, hzero⟩
    · intro h
      cases h.1
      rfl

theorem wholeDigits?_append {rest s digits r : List Char} (hrest : Stops rest)
    (h : wholeDigits? s = some (digits, r)) : wholeDigits? (s ++ rest) = some (digits, r ++ rest) := by
  rw [wholeDigits?_eq_some_iff] at h ⊢
  refine ⟨?_, h.2⟩
  rw [spanDigits_append hrest, h.1]

/-- The exponent of the given digits. -/
def exponentOf? (negative : Bool) (p : List Char × List Char) : Option (Int × List Char) :=
  if p.1 = [] then none
  else some (if negative then -Int.ofNat (decimalValue p.1) else Int.ofNat (decimalValue p.1), p.2)

theorem exponent?_append {rest s r : List Char} {e : Int} (hrest : Stops rest)
    (h : exponent? s = some (e, r)) : exponent? (s ++ rest) = some (e, r ++ rest) := by
  have hdigits : ∀ (negative : Bool) (s : List Char),
      exponentOf? negative (spanDigits s) = some (e, r) →
        exponentOf? negative (spanDigits (s ++ rest)) = some (e, r ++ rest) := by
    intro negative s h
    rw [spanDigits_append hrest]
    rw [exponentOf?] at h ⊢
    by_cases hnil : (spanDigits s).1 = []
    · rw [if_pos hnil] at h
      cases h
    · rw [if_neg hnil, Option.some.injEq, Prod.mk.injEq] at h
      rw [if_neg hnil, h.1, h.2]
  cases s with
  | nil => cases h
  | cons c s =>
    by_cases hminus : c = '-'
    · subst hminus
      exact hdigits true s h
    · by_cases hplus : c = '+'
      · subst hplus
        exact hdigits false s h
      · have heq : ∀ t, exponent? (c :: t) = exponentOf? false (spanDigits (c :: t)) := by
          intro t
          rw [exponent?]
          · rfl
          · intro r h
            cases h
            exact hminus rfl
          · intro r h
            cases h
            exact hplus rfl
        rw [heq] at h
        rw [List.cons_append, heq]
        exact hdigits false (c :: s) h

theorem afterPoint?_append {rest s r digits part : List Char} {negative : Bool} {j : Json}
    (hrest : Stops rest) (h : afterPoint? negative digits part s = some (j, r)) :
    afterPoint? negative digits part (s ++ rest) = some (j, r ++ rest) := by
  have hmark : ∀ s, ((exponent? s).bind fun x => (fraction? negative digits part x.1).bind
      fun y => some (y, x.2)) = some (j, r) →
        ((exponent? (s ++ rest)).bind fun x => (fraction? negative digits part x.1).bind
          fun y => some (y, x.2)) = some (j, r ++ rest) := by
    intro s h
    obtain ⟨⟨e, r'⟩, he, h⟩ := Option.bind_eq_some_iff.mp h
    obtain ⟨y, hy, h⟩ := Option.bind_eq_some_iff.mp h
    cases h
    rw [exponent?_append hrest he]
    show (fraction? negative digits part e).bind _ = _
    rw [hy]
    rfl
  have hnone : ∀ s, (∀ r, s ≠ 'e' :: r) → (∀ r, s ≠ 'E' :: r) →
      afterPoint? negative digits part s = (fraction? negative digits part 0).map (·, s) := by
    intro s he hE
    rw [afterPoint?]
    · exact fun r h => he r h
    · exact fun r h => hE r h
  by_cases he : ∃ t, s = 'e' :: t
  · obtain ⟨t, rfl⟩ := he
    exact hmark t h
  · by_cases hE : ∃ t, s = 'E' :: t
    · obtain ⟨t, rfl⟩ := hE
      exact hmark t h
    · rw [not_exists] at he hE
      rw [hnone s he hE] at h
      obtain ⟨y, hy, h⟩ := Option.map_eq_some_iff.mp h
      cases h
      rw [hnone _ (hrest.append_ne (by decide) he) (hrest.append_ne (by decide) hE), hy]
      rfl

/-- The number whose whole part has the given digits. -/
def afterWhole? (negative : Bool) (digits s : List Char) : Option (Json × List Char) :=
  match s with
  | '.' :: r =>
    let (part, rest) := spanDigits r
    if part = [] then none else afterPoint? negative digits part rest
  | 'e' :: _ | 'E' :: _ => afterPoint? negative digits [] s
  | _ => (whole negative digits).map (·, s)

theorem number?_minus (s : List Char) :
    number? ('-' :: s) = (wholeDigits? s).bind fun x => afterWhole? true x.1 x.2 := by
  rfl

theorem number?_digits {s : List Char} (h : ∀ r, s ≠ '-' :: r) :
    number? s = (wholeDigits? s).bind fun x => afterWhole? false x.1 x.2 := by
  rw [number?]
  · rfl
  · exact h

theorem afterWhole?_append {rest s r digits : List Char} {negative : Bool} {j : Json}
    (hrest : Stops rest) (h : afterWhole? negative digits s = some (j, r)) :
    afterWhole? negative digits (s ++ rest) = some (j, r ++ rest) := by
  have hplain : ∀ s, (∀ r, s ≠ '.' :: r) → (∀ r, s ≠ 'e' :: r) → (∀ r, s ≠ 'E' :: r) →
      afterWhole? negative digits s = (whole negative digits).map (·, s) := by
    intro s hpoint he hE
    rw [afterWhole?]
    · exact hpoint
    · exact he
    · exact hE
  by_cases hpoint : ∃ t, s = '.' :: t
  · obtain ⟨t, rfl⟩ := hpoint
    rw [List.cons_append, afterWhole?, spanDigits_append hrest]
    rw [afterWhole?] at h
    show (if (spanDigits t).1 = [] then none else _) = _
    by_cases hpart : (spanDigits t).1 = []
    · cases (if_pos hpart).symm.trans h
    · rw [if_neg hpart]
      exact afterPoint?_append hrest ((if_neg hpart).symm.trans h)
  · by_cases he : ∃ t, s = 'e' :: t
    · obtain ⟨t, rfl⟩ := he
      have hmark : afterPoint? negative digits [] ('e' :: t) = some (j, r) := h
      exact afterPoint?_append hrest hmark
    · by_cases hE : ∃ t, s = 'E' :: t
      · obtain ⟨t, rfl⟩ := hE
        have hmark : afterPoint? negative digits [] ('E' :: t) = some (j, r) := h
        exact afterPoint?_append hrest hmark
      · rw [not_exists] at hpoint he hE
        rw [hplain s hpoint he hE] at h
        obtain ⟨y, hy, h⟩ := Option.map_eq_some_iff.mp h
        cases h
        rw [hplain _ (hrest.append_ne (by decide) hpoint) (hrest.append_ne (by decide) he)
          (hrest.append_ne (by decide) hE), hy]
        rfl

/-- A number that is read to its end is read in the same way when a text follows that does not go
on with it. -/
theorem number?_append {rest s r : List Char} {j : Json} (hrest : Stops rest)
    (h : number? s = some (j, r)) : number? (s ++ rest) = some (j, r ++ rest) := by
  have hbind : ∀ {negative : Bool} {s : List Char},
      ((wholeDigits? s).bind fun x => afterWhole? negative x.1 x.2) = some (j, r) →
        ((wholeDigits? (s ++ rest)).bind fun x => afterWhole? negative x.1 x.2) =
          some (j, r ++ rest) := by
    intro negative s h
    obtain ⟨x, hx, h⟩ := Option.bind_eq_some_iff.mp h
    rw [wholeDigits?_append hrest hx]
    exact afterWhole?_append hrest h
  cases s with
  | nil => cases h
  | cons c s =>
    by_cases hminus : c = '-'
    · subst hminus
      rw [number?_minus] at h
      rw [List.cons_append, number?_minus]
      exact hbind h
    · have hne : ∀ t r, c :: t ≠ '-' :: r := fun t r h => hminus (List.cons.inj h).1
      rw [number?_digits (hne s)] at h
      rw [List.cons_append, number?_digits (hne _)]
      exact hbind h

/-- What a number begins with. -/
theorem exists_of_number? {s r : List Char} {j : Json} (h : number? s = some (j, r)) :
    ∃ c t, s = c :: t ∧ (c = '-' ∨ c.isDigit = true) := by
  cases s with
  | nil => cases h
  | cons c t =>
    refine ⟨c, t, rfl, ?_⟩
    by_cases hminus : c = '-'
    · exact Or.inl hminus
    · rw [number?_digits fun r h => hminus (List.cons.inj h).1] at h
      obtain ⟨⟨digits, q⟩, hx, -⟩ := Option.bind_eq_some_iff.mp h
      rw [wholeDigits?_eq_some_iff] at hx
      by_contra hc
      rw [not_or] at hc
      apply hx.2.1
      have hnil : (spanDigits (c :: t)).1 = [] := by simp [spanDigits, hc.2]
      rw [hx.1] at hnil
      exact hnil

theorem head?_toDigits {n : Nat} (hn : 0 < n) : (Nat.toDigits 10 n).head? ≠ some '0' := by
  have hsmall : ∀ m < 10, 0 < m → [Nat.digitChar m].head? ≠ some '0' := by decide
  induction n using Nat.strongRecOn with
  | ind n ih =>
    by_cases hlt : n < 10
    · rw [Nat.toDigits_of_lt_base hlt]
      exact hsmall n hlt hn
    · rw [Nat.toDigits_of_base_le (by decide) (Nat.not_lt.mp hlt),
        List.head?_append_of_ne_nil _ Nat.toDigits_ne_nil]
      exact ih (n / 10) (by omega) (by omega)

/-- The digits of a whole number have no zero before another digit. -/
theorem wholeDigits?_toDigits (n : Nat) {rest : List Char} (hrest : Stops rest) :
    wholeDigits? (Nat.toDigits 10 n ++ rest) = some (Nat.toDigits 10 n, rest) := by
  have hspan : spanDigits (Nat.toDigits 10 n) = (Nat.toDigits 10 n, []) := by
    have hdigits : ∀ c ∈ Nat.toDigits 10 n, c.isDigit = true :=
      fun c hc => Nat.isDigit_of_mem_toDigits (by decide) (by decide) hc
    rw [spanDigits, List.takeWhile_eq_self_iff.mpr hdigits, List.dropWhile_eq_nil_iff.mpr hdigits]
  refine wholeDigits?_append hrest (wholeDigits?_eq_some_iff.mpr ⟨hspan, Nat.toDigits_ne_nil, ?_⟩)
  intro c t heq
  by_cases hn : 0 < n
  · exact head?_toDigits hn (by rw [heq]; rfl)
  · rw [Nat.eq_zero_of_not_pos hn] at heq
    cases heq

theorem decimalValue_toDigits (n : Nat) : decimalValue (Nat.toDigits 10 n) = n := by
  have h := Nat.ofDigitChars_ten_toDigits (n := n)
  rwa [Nat.ofDigitChars_eq_foldl] at h

theorem afterWhole?_stops {negative : Bool} {digits rest : List Char} (hrest : Stops rest) :
    afterWhole? negative digits rest = (whole negative digits).map (·, rest) := by
  rw [afterWhole?]
  · exact fun r h => (hrest _ r h).2.1 rfl
  · exact fun r h => (hrest _ r h).2.2.1 rfl
  · exact fun r h => (hrest _ r h).2.2.2 rfl

theorem toList_repr (n : Nat) : n.repr.toList = Nat.toDigits 10 n := by
  rw [Nat.repr_eq_ofList_toDigits, String.toList_ofList]

/-- A whole number of 64 bits is read back. -/
theorem number?_int {n : Int} (hn : isWord n = true) {rest : List Char} (hrest : Stops rest) :
    number? ((toString n).toList ++ rest) = some (int n, rest) := by
  have hread : ∀ (negative : Bool) (m : Nat), whole negative (Nat.toDigits 10 m) = some (int n) →
      ((wholeDigits? (Nat.toDigits 10 m ++ rest)).bind fun x => afterWhole? negative x.1 x.2) =
        some (int n, rest) := by
    intro negative m h
    rw [wholeDigits?_toDigits m hrest]
    show afterWhole? negative (Nat.toDigits 10 m) rest = _
    rw [afterWhole?_stops hrest, h]
    rfl
  have hhalf : Int.ofNat (Nat.pow 2 63) = 2 ^ 63 := rfl
  rw [isWord, Bool.and_eq_true, decide_eq_true_eq, decide_eq_true_eq, hhalf] at hn
  cases n with
  | ofNat n =>
    have htext : (toString (Int.ofNat n)).toList = Nat.toDigits 10 n := toList_repr n
    have hminus : ∀ r, Nat.toDigits 10 n ++ rest ≠ '-' :: r := by
      intro r h
      rw [List.append_eq_cons_iff] at h
      rcases h with ⟨hnil, -⟩ | ⟨t, ht, -⟩
      · exact Nat.toDigits_ne_nil hnil
      · have hdigit : '-'.isDigit = true :=
          Nat.isDigit_of_mem_toDigits (by decide) (by decide) (ht ▸ List.mem_cons_self)
        cases hdigit
    rw [htext, number?_digits hminus]
    refine hread false n ?_
    rw [whole, decimalValue_toDigits]
    exact if_pos (Int.ofNat_lt.mp hn.2)
  | negSucc n =>
    have htext : (toString (Int.negSucc n)).toList = '-' :: Nat.toDigits 10 (n + 1) := by
      show ("-" ++ Nat.repr (n + 1)).toList = _
      rw [String.toList_append, toList_repr]
      rfl
    rw [htext, List.cons_append, number?_minus]
    refine hread true (n + 1) ?_
    have hsize : n + 1 ≤ Nat.pow 2 63 := by
      show n + 1 ≤ 2 ^ 63
      rw [Int.negSucc_eq] at hn
      omega
    rw [whole, decimalValue_toDigits, if_pos rfl]
    exact if_pos ⟨Nat.succ_pos n, hsize⟩

/-- The text of a number is read as that number, to its end. -/
def ReadsBack (x : Float) : Prop :=
  number? (floatText x).toList = some (float x, [])

end Json
end LoadTest

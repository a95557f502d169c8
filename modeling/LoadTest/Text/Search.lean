/-!
First occurrences of a pattern in a text, and all of them replaced from left to right.

`cut?` splits a text around the first occurrence (`append_of_cut?`); `replace` puts a value in
the place of each occurrence that starts after the previous one ends.
-/

namespace LoadTest
namespace Text

/-- The text before and after the first occurrence of `pat`. -/
def cut? (pat : List Char) : List Char → Option (List Char × List Char)
  | [] => if pat = [] then some ([], []) else none
  | c :: s =>
    match pat.isPrefixOf? (c :: s) with
    | some rest => some ([], rest)
    | none => (cut? pat s).map fun (a, b) => (c :: a, b)

/-- `pat` occurs in `s`. -/
def occurs (pat s : List Char) : Bool :=
  (cut? pat s).isSome

/-- Every occurrence of `pat` that starts after the previous one ends becomes `value`. -/
def replace (pat value : List Char) : List Char → List Char
  | [] => []
  | c :: s =>
    if pat.isPrefixOf (c :: s) then value ++ replace pat value (s.drop (pat.length - 1))
    else c :: replace pat value s
termination_by s => s.length

theorem append_of_isPrefixOf? {pat s rest : List Char} (h : pat.isPrefixOf? s = some rest) :
    s = pat ++ rest := by
  induction pat generalizing s with
  | nil =>
    have h : some s = some rest := h
    simpa using h
  | cons p pat ih =>
    cases s with
    | nil =>
      have h : none = some rest := h
      simp at h
    | cons c s =>
      have h : (if p == c then pat.isPrefixOf? s else none) = some rest := h
      split at h
      · next hp => simp [eq_of_beq hp, ih h]
      · simp at h

/-- Nothing is lost in a cut. -/
theorem append_of_cut? {pat s before after : List Char} (h : cut? pat s = some (before, after)) :
    s = before ++ pat ++ after := by
  induction s generalizing before with
  | nil =>
    simp only [cut?] at h
    split at h <;> simp_all
  | cons c s ih =>
    simp only [cut?] at h
    split at h
    · next hp =>
      obtain ⟨rfl, rfl⟩ : [] = before ∧ _ = after := by simpa using h
      simpa using append_of_isPrefixOf? hp
    · cases hs : cut? pat s with
      | none => simp [hs] at h
      | some ab =>
        obtain ⟨a, b⟩ := ab
        obtain ⟨rfl, rfl⟩ : c :: a = before ∧ b = after := by simpa [hs] using h
        simp [ih hs]

theorem length_of_cut? {pat s before after : List Char} (h : cut? pat s = some (before, after)) :
    after.length + pat.length ≤ s.length := by
  have := congrArg List.length (append_of_cut? h)
  simp at this
  omega

@[simp] theorem replace_nil (pat value : List Char) : replace pat value [] = [] := by
  simp [replace]

end Text
end LoadTest

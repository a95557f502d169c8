/-!
Blank characters, the Unicode property White_Space, and texts without them at their ends.
-/

namespace LoadTest
namespace Text

/-- Code points with the property White_Space, first and last of each range. -/
def blankRanges : List (Nat × Nat) := [
  (0x9, 0xD), (0x20, 0x20), (0x85, 0x85), (0xA0, 0xA0), (0x1680, 0x1680), (0x2000, 0x200A),
  (0x2028, 0x2029), (0x202F, 0x202F), (0x205F, 0x205F), (0x3000, 0x3000)]

/-- The code point `n` lies in one of `ranges`. -/
def inRanges (ranges : List (Nat × Nat)) (n : Nat) : Bool :=
  ranges.any fun r => r.1 ≤ n && n ≤ r.2

def isBlank (c : Char) : Bool :=
  inRanges blankRanges c.toNat

theorem isBlank_of_isWhitespace {c : Char} (h : c.isWhitespace = true) : isBlank c = true := by
  simp only [Char.isWhitespace, Bool.or_eq_true, decide_eq_true_eq] at h
  rcases h with ((h | h) | h) | h <;> subst h <;> decide

/-- `s` without the blanks it starts with. -/
def trimStart (s : List Char) : List Char :=
  s.dropWhile isBlank

/-- `s` without the blanks it ends with. -/
def trimEnd (s : List Char) : List Char :=
  (trimStart s.reverse).reverse

/-- `s` without the blanks at both ends. -/
def trim (s : List Char) : List Char :=
  trimEnd (trimStart s)

@[simp] theorem trimStart_nil : trimStart [] = [] := rfl

@[simp] theorem trimEnd_nil : trimEnd [] = [] := rfl

@[simp] theorem trim_nil : trim [] = [] := rfl

theorem trimStart_cons (c : Char) (s : List Char) :
    trimStart (c :: s) = if isBlank c then trimStart s else c :: s := by
  by_cases h : isBlank c <;> simp [trimStart, h]

/-- The first character that is left is no blank. -/
theorem not_isBlank_of_trimStart {s : List Char} {c : Char} {r : List Char}
    (h : trimStart s = c :: r) : isBlank c = false := by
  induction s with
  | nil => simp at h
  | cons d s ih =>
    rw [trimStart_cons] at h
    split at h
    · exact ih h
    · next hd =>
      obtain ⟨rfl, -⟩ := List.cons.inj h
      simpa using hd

theorem trimStart_trimStart (s : List Char) : trimStart (trimStart s) = trimStart s := by
  cases h : trimStart s with
  | nil => rfl
  | cons c r => rw [trimStart_cons, not_isBlank_of_trimStart h]; rfl

theorem trimEnd_trimEnd (s : List Char) : trimEnd (trimEnd s) = trimEnd s := by
  simp [trimEnd, trimStart_trimStart]

theorem trimEnd_append (s : List Char) {t : List Char} (h : trimEnd t ≠ []) :
    trimEnd (s ++ t) = s ++ trimEnd t := by
  have hne : (trimStart t.reverse).isEmpty = false := by simpa [trimEnd] using h
  rw [trimEnd, List.reverse_append, trimStart, List.dropWhile_append, ← trimStart, hne]
  simp [trimEnd]

/-- Trimming the end leaves the first character alone if that is no blank. -/
theorem trimEnd_cons {c : Char} (h : isBlank c = false) (s : List Char) :
    trimEnd (c :: s) = c :: trimEnd s := by
  by_cases hs : trimEnd s = []
  · have hall : (trimStart s.reverse).isEmpty = true := by simpa [trimEnd] using hs
    rw [hs, trimEnd, List.reverse_cons, trimStart, List.dropWhile_append, ← trimStart, hall]
    simp [h]
  · exact trimEnd_append [c] hs

theorem trimStart_trim (s : List Char) : trimStart (trim s) = trim s := by
  cases h : trimStart s with
  | nil => rw [trim, h]; rfl
  | cons c r =>
    have hc := not_isBlank_of_trimStart h
    rw [trim, h, trimEnd_cons hc, trimStart_cons, hc]
    rfl

@[simp] theorem trim_trim (s : List Char) : trim (trim s) = trim s := by
  rw [trim, trimStart_trim, trim, trimEnd_trimEnd]

theorem mem_of_mem_trim {s : List Char} {c : Char} (h : c ∈ trim s) : c ∈ s := by
  have hstart : c ∈ trimStart s :=
    List.mem_reverse.mp ((List.dropWhile_suffix _).subset (List.mem_reverse.mp h))
  exact (List.dropWhile_suffix _).subset hstart

end Text
end LoadTest

import LoadTest.Proofs.Layout.Laying
import Mathlib.Logic.Function.Basic

/-!
A layout does not change what has been laid out.

The lines that are read again have other numbers, since blank lines are gone, and the indents are
counted from the lines that the open brackets are on.  They come out the same because brackets on
different lines stay on different lines (`Renumbers`).
-/

namespace LoadTest
namespace Layout

/-! ## Other line numbers -/

def Opener.renumber (φ : Nat → Nat) (o : Opener) : Opener :=
  { o with line := φ o.line }

theorem turn_renumber (φ : Nat → Nat) {n : Nat} {openers openers' : Openers} {c : Char}
    (h : turn n openers c = .ok openers') :
    turn (φ n) (openers.map (Opener.renumber φ)) c = .ok (openers'.map (Opener.renumber φ)) := by
  rw [turn_eq_ok_iff] at h ⊢
  rcases h with ⟨hopen, rfl⟩ | ⟨hopen, o, rfl, hfits⟩
  · exact .inl ⟨hopen, rfl⟩
  · exact .inr ⟨hopen, o.renumber φ, rfl, hfits⟩

/-- Scanning does not depend on which number a line has. -/
theorem scan_renumber (φ : Nat → Nat) {n : Nat} {l l' : Lexical} {openers openers' : Openers}
    {text : List Char} (h : scan n l openers text = .ok (l', openers')) :
    scan (φ n) l (openers.map (Opener.renumber φ)) text =
      .ok (l', openers'.map (Opener.renumber φ)) := by
  rw [scan_eq_ok_iff] at h ⊢
  refine ⟨?_, h.2⟩
  obtain ⟨hturns, -⟩ := h
  generalize l.brackets text = bs at hturns ⊢
  induction bs generalizing openers with
  | nil =>
    obtain rfl := Except.ok.inj hturns
    rfl
  | cons c bs ih =>
    obtain ⟨middle, hturn, hbs⟩ := bind_eq_ok_iff.mp hturns
    exact bind_eq_ok_iff.mpr ⟨_, turn_renumber φ hturn, ih hbs⟩

theorem depth_renumber {φ : Nat → Nat} {openers : Openers}
    (h : ∀ o ∈ openers, ∀ o' ∈ openers, φ o.line = φ o'.line → o.line = o'.line) :
    depth (openers.map (Opener.renumber φ)) = depth openers := by
  fun_induction depth openers with
  | case1 => rfl
  | case2 => rfl
  | case3 a b r ih =>
    have hrest := ih fun o ho o' ho' =>
      h o (List.mem_cons_of_mem a ho) o' (List.mem_cons_of_mem a ho')
    have hline : φ a.line = φ b.line ↔ a.line = b.line :=
      ⟨h a (by simp) b (by simp), congrArg φ⟩
    rw [List.map_cons] at hrest
    rw [List.map_cons, List.map_cons, depth, hrest]
    simp only [Opener.renumber, hline]

/-- The brackets are on lines before the line `n`, these get numbers below `m`, and different lines
get different numbers. -/
structure Renumbers (φ : Nat → Nat) (n m : Nat) (openers : Openers) : Prop where
  earlier : ∀ o ∈ openers, o.line < n
  below : ∀ o ∈ openers, φ o.line < m
  injective : ∀ o ∈ openers, ∀ o' ∈ openers, φ o.line = φ o'.line → o.line = o'.line

namespace Renumbers

variable {φ : Nat → Nat} {n m : Nat} {openers : Openers}

theorem blank (h : Renumbers φ n m openers) : Renumbers φ (n + 1) m openers where
  earlier o ho := Nat.lt_succ_of_lt (h.earlier o ho)
  below := h.below
  injective := h.injective

theorem depth_drop (h : Renumbers φ n m openers) (k : Nat) :
    depth ((openers.map (Opener.renumber φ)).drop k) = depth (openers.drop k) := by
  rw [← List.map_drop]
  exact depth_renumber fun o ho o' ho' =>
    h.injective o (List.mem_of_mem_drop ho) o' (List.mem_of_mem_drop ho')

/-- The line `n` gets the number `k`. -/
theorem map_update (h : Renumbers φ n m openers) (k : Nat) :
    openers.map (Opener.renumber (Function.update φ n k)) = openers.map (Opener.renumber φ) := by
  refine List.map_congr_left fun o ho => ?_
  rw [Opener.renumber, Opener.renumber, Function.update_of_ne (Nat.ne_of_lt (h.earlier o ho))]

theorem scan {l l' : Lexical} {openers' : Openers} {text : List Char}
    (h : Renumbers φ n m openers) (hscan : scan n l openers text = .ok (l', openers')) (k : Nat) :
    Layout.scan k l (openers.map (Opener.renumber φ)) text =
      .ok (l', openers'.map (Opener.renumber (Function.update φ n k))) := by
  have hrenumber := scan_renumber (Function.update φ n k) hscan
  rwa [Function.update_self, h.map_update] at hrenumber

theorem after {l l' : Lexical} {openers' : Openers} {text : List Char}
    (h : Renumbers φ n m openers) (hscan : Layout.scan n l openers text = .ok (l', openers'))
    {k : Nat} (hk : m ≤ k) :
    Renumbers (Function.update φ n k) (n + 1) (k + 1) openers' := by
  have hturns := (scan_eq_ok_iff.mp hscan).1
  have hline : ∀ o ∈ openers', (o ∈ openers ∧ o.line ≠ n ∧
      Function.update φ n k o.line = φ o.line ∧ φ o.line < k) ∨
        o.line = n ∧ Function.update φ n k o.line = k := by
    intro o ho
    by_cases hn : o.line = n
    · exact .inr ⟨hn, by rw [hn, Function.update_self]⟩
    · have hmem := (mem_of_turns hturns ho).resolve_right hn
      exact .inl ⟨hmem, hn, Function.update_of_ne hn _ _, (h.below o hmem).trans_le hk⟩
  refine ⟨fun o ho => ?_, fun o ho => ?_, fun o ho o' ho' heq => ?_⟩
  · rcases hline o ho with ⟨hmem, -⟩ | ⟨hn, -⟩
    · exact Nat.lt_succ_of_lt (h.earlier o hmem)
    · exact Nat.lt_succ_of_le hn.le
  · rcases hline o ho with ⟨-, -, hφ, hlt⟩ | ⟨-, hφ⟩
    · omega
    · omega
  · rcases hline o ho with ⟨hmem, -, hφ, hlt⟩ | ⟨hn, hφ⟩ <;>
      rcases hline o' ho' with ⟨hmem', -, hφ', hlt'⟩ | ⟨hn', hφ'⟩
    · exact h.injective o hmem o' hmem' (hφ ▸ hφ' ▸ heq)
    · omega
    · omega
    · exact hn.trans hn'.symm

end Renumbers

/-! ## Lines that have been laid out -/

variable {width : Nat}

/-- Behind `k` blank lines. -/
def Spot.skip (s : Spot) (k : Nat) : Spot :=
  { s with number := s.number + k, blanks := s.blanks + k }

theorem Laid.skip {s : Spot} {k : Nat} {lines out : List (List Char)}
    (h : Laid width (s.skip k) lines out) : Laid width s (List.replicate k [] ++ lines) out := by
  induction k generalizing s with
  | zero => exact h
  | succ k ih =>
    refine .blank Text.trim_nil (ih ?_)
    have hskip : s.blank.skip k = s.skip (k + 1) := by
      simp [Spot.skip, Spot.blank, Nat.add_assoc, Nat.add_comm 1]
    rwa [hskip]

/-- The same spot before the line `m` of what has been laid out, where the lines have the numbers
that `φ` says. -/
def Spot.again (s : Spot) (φ : Nat → Nat) (m : Nat) : Spot :=
  ⟨m, s.lexical, s.openers.map (Opener.renumber φ), s.last, 0⟩

/-- As many blank lines stay as have stayed before. -/
theorem Spot.spacing_again (s : Spot) (φ : Nat → Nat) (m : Nat) (text : List Char) :
    ((s.again φ m).skip (s.spacing text)).spacing text = s.spacing text := by
  simp only [spacing, kept, pending, closers, again, skip]
  by_cases hl : s.lexical = .blockComment
  · simp only [hl, if_true]
    split_ifs <;> simp
  · simp only [hl, if_false]
    split_ifs <;> simp

theorem Spot.line_again (s : Spot) {φ : Nat → Nat} {m : Nat}
    (h : Renumbers φ s.number m s.openers) (k : Nat) (text : List Char) :
    ((s.again φ m).skip k).line width text = s.line width text := by
  rw [line, line, show ((s.again φ m).skip k).closers text = s.closers text from rfl]
  exact congrArg (indented width · text) (h.depth_drop _)

/-- What has been laid out is laid out as it is. -/
theorem Laid.again {s : Spot} {lines out : List (List Char)} (h : Laid width s lines out)
    {φ : Nat → Nat} {m : Nat} (hφ : Renumbers φ s.number m s.openers) :
    Laid width (s.again φ m) out out := by
  induction h generalizing φ m with
  | nil hopeners => exact .nil (by rw [Spot.again, hopeners, List.map_nil])
  | blank _ _ ih => exact ih hφ.blank
  | @line s raw lines out l openers hraw hreads hlaid ih =>
    let text := Text.trim raw
    -- The line comes behind the blank lines that have stayed, so its number is `m + k`.
    let k := s.spacing text
    have htrim : Text.trim (s.line width text) = text := by rw [s.trim_line, Text.trim_trim]
    have hreads' : ((s.again φ m).skip k).Reads text l
        (openers.map (Opener.renumber (Function.update φ s.number (m + k)))) := by
      refine ⟨?_, hφ.scan hreads.scan (m + k), hreads.ended⟩
      exact hreads.closers.trans_eq (List.length_map _).symm
    have hafter : ((s.again φ m).skip k).after width text l
        (openers.map (Opener.renumber (Function.update φ s.number (m + k)))) =
          (s.after width text l openers).again (Function.update φ s.number (m + k)) (m + k + 1) := by
      rw [Spot.after, s.line_again hφ]
      rfl
    have hrest := ih (hφ.after hreads.scan (Nat.le_add_right m k))
    rw [← hafter] at hrest
    have hline := Laid.line (htrim.symm ▸ hraw) (htrim.symm ▸ hreads') (htrim.symm ▸ hrest)
    rw [htrim, s.spacing_again, s.line_again hφ] at hline
    exact hline.skip

end Layout

/-- Laying out a script once more changes nothing. -/
theorem layout_layout {width : Nat} {code out : String} (h : layout width code = .ok out) :
    layout width out = .ok out := by
  obtain ⟨hlaid, hlines⟩ := layout_lines h
  have hstart : Layout.Renumbers id 1 1 [] := ⟨nofun, nofun, nofun⟩
  refine layout_eq_ok_iff.mpr ⟨_, hlaid.again hstart, ?_⟩
  rw [hlines, String.ofList_toList]

/-- A comment with brackets and blank lines in it, and brackets that share a line. -/
theorem layout_layout_comment :
    let code := "\nf([ // (\r\n\n  a: [1],\n\n\n/* x\n\n\n[\n\n* ] */ g(() => (\n\n" ++
      "h();\n\n) ) ]);\n\n"
    let out := "f([ // (\n  a: [1],\n\n  /* x\n\n\n  [\n  * ] */ g(() => (\n    h();\n) ) ]);\n"
    layout 2 code = .ok out ∧ layout 2 out = .ok out := by
  intro code out
  have h : layout 2 code = .ok out := by decide +kernel
  exact ⟨h, layout_layout h⟩

end LoadTest

import LoadTest.Text.Percent
import Mathlib.Data.Char
import Mathlib.Data.List.Lex
import Mathlib.Tactic.Common

/-!
The bytes of a text.

A text is read back from its bytes (`ofBytes?_utf8`), and texts are ordered as their bytes are
(`utf8_lt_utf8_iff`): of two characters the smaller one starts with a byte or, behind the bytes
that both start with, goes on with a byte that is smaller.
-/

namespace LoadTest
namespace Text

/-- The text that the bytes are in UTF-8, if they are one. -/
def ofBytes? (bytes : List UInt8) : Option String :=
  String.fromUTF8? bytes.toByteArray

theorem ofBytes?_utf8 (s : String) : ofBytes? (utf8 s.toList) = some s := by
  have hbytes : (utf8 s.toList).toByteArray = s.toByteArray := by
    rw [← s.ofList_toList, String.toByteArray_ofList, String.ofList_toList]
    rfl
  rw [ofBytes?, hbytes, String.fromUTF8?]
  exact dif_pos s.isValidUTF8

theorem utf8_injective : Function.Injective utf8 := by
  intro s t h
  have hread := ofBytes?_utf8 (String.ofList s)
  rw [String.toList_ofList, h, ← String.toList_ofList (l := t), ofBytes?_utf8] at hread
  exact (String.ofList_injective (Option.some.inj hread)).symm

/-! ## Order -/

theorem utf8_cons (c : Char) (s : List Char) :
    utf8 (c :: s) = String.utf8EncodeChar c ++ utf8 s :=
  List.flatMap_cons

/-- Bytes are compared as the numbers that they are made of. -/
theorem ofNat_cons_lt_iff {m n : Nat} (hm : m < 256) (hn : n < 256) (x y : List UInt8) :
    UInt8.ofNat m :: x < UInt8.ofNat n :: y ↔ m < n ∨ m = n ∧ x < y := by
  rw [List.cons_lt_cons_iff, UInt8.lt_iff_toNat_lt, ← UInt8.toNat_inj,
    UInt8.toNat_ofNat_of_lt' hm, UInt8.toNat_ofNat_of_lt' hn]

/-- The bytes of the smaller character are smaller, whatever follows. -/
theorem utf8EncodeChar_append_lt {c d : Char} (h : c < d) (x y : List UInt8) :
    String.utf8EncodeChar c ++ x < String.utf8EncodeChar d ++ y := by
  have hlt : c.val.toNat < d.val.toNat := h
  have hbound : d.val.toNat < 0x110000 := by
    have hvalid := d.valid
    simp only [UInt32.isValidChar, Nat.isValidChar] at hvalid
    omega
  -- Each byte behind the first holds one digit to the base 64.
  have htwo : ∀ k, k / 4096 = k / 64 / 64 := fun k => by
    rw [Nat.div_div_eq_div_mul]
  have hthree : ∀ k, k / 262144 = k / 64 / 64 / 64 := fun k => by
    rw [Nat.div_div_eq_div_mul, Nat.div_div_eq_div_mul]
  simp only [String.utf8EncodeChar, htwo, hthree]
  generalize c.val.toNat = m at hlt ⊢
  generalize d.val.toNat = n at hlt hbound ⊢
  split_ifs <;>
    simp (disch := omega) only [List.cons_append, List.nil_append, ofNat_cons_lt_iff] <;> omega

theorem utf8_lt {s t : List Char} (h : s < t) : utf8 s < utf8 t := by
  induction s generalizing t with
  | nil =>
    cases t with
    | nil => exact absurd h (List.not_lt_nil _)
    | cons d t =>
      obtain ⟨b, r, hb⟩ := List.exists_cons_of_ne_nil (String.utf8EncodeChar_ne_nil (c := d))
      rw [utf8_cons, hb]
      exact List.nil_lt_cons b (r ++ utf8 t)
  | cons c s ih =>
    cases t with
    | nil => exact absurd h (List.not_lt_nil _)
    | cons d t =>
      rw [utf8_cons, utf8_cons]
      rcases List.cons_lt_cons_iff.mp h with hcd | ⟨rfl, hst⟩
      · exact utf8EncodeChar_append_lt hcd _ _
      · exact List.append_left_lt (ih hst)

/-- The order of texts is that of their bytes. -/
theorem utf8_lt_utf8_iff {s t : List Char} : utf8 s < utf8 t ↔ s < t := by
  constructor
  · intro h
    rcases lt_trichotomy s t with hst | rfl | hts
    · exact hst
    · exact absurd h (List.lt_irrefl _)
    · exact absurd (utf8_lt hts) (List.lt_asymm h)
  · exact utf8_lt

end Text
end LoadTest

import LoadTest.Json.Basic
import Mathlib

/-!
Whole numbers of 64 bits as floating-point numbers.

Rounding moves an exponent up by no more than the bits that the mantissa has to lose, and the
exponent of an infinity is far above that of any such number.
-/

namespace LoadTest
namespace Decimal

open Float.Model (UnpackedFloat Format)
open Float.Model.UnpackedFloat

/-- Zero, or a number with a mantissa of at most so many bits and an exponent of at most `e`. -/
inductive Within (bits : Nat) (e : Int) : UnpackedFloat → Prop
  | zero (s : Sign) : Within bits e (.zero s)
  | finite {s : Sign} {m : Nat} {k : Int} {hm : 0 < m} (hbits : m < 2 ^ bits) (he : k ≤ e) :
      Within bits e (.finite s m k hm)

/-! ## Packing -/

theorem isFinite_eq (m : Float.Model) :
    isFinite ⟨m⟩ = decide ((@unpackExponent .binary64 m.toBits.toBitVec).toNat ≠ 2047) := by
  have hfield : (@unpackExponent .binary64 m.toBits.toBitVec).toNat =
      m.toBits.toNat / hiddenBit % 2048 := by
    rw [unpackExponent, BitVec.toNat_cast, BitVec.extractLsb_toNat, Nat.shiftRight_eq_div_pow]
    rfl
  rw [hfield]
  unfold isFinite Binary.ofFloat
  show (if m.toBits.toNat / hiddenBit % 2048 = 2047 then _ else _ : Binary).isFinite = _
  by_cases htop : m.toBits.toNat / hiddenBit % 2048 = 2047
  · rw [if_pos htop]
    split <;> simp [htop, Binary.isFinite]
  · rw [if_neg htop]
    split <;> simp [htop, Binary.isFinite]

/-- What is stored of a number within bounds. -/
theorem pack_of_within {bits : Nat} {e : Int} {x : UnpackedFloat} (h : Within bits e x)
    (he : e ≤ 900) : ∃ sign exponent mantissa,
      UnpackedFloat.pack .binary64 x = packComponents .binary64 sign exponent mantissa ∧
        exponent.toNat ≠ 2047 ∧ (exponent.toNat : Int) ≤ max (e + 1075) 0 := by
  cases h with
  | zero s => exact ⟨s, 0, 0, rfl, by decide, Int.le_max_right _ _⟩
  | @finite s m k hm hbits hk =>
    have hbias : (k + Format.binary64.exponentBias +
        Format.binary64.mantissaBitsWithoutImplicit).toNat = (k + 1075).toNat := by
      show (k + (1023 : Nat) + (52 : Nat)).toNat = _
      omega
    have hlow : ¬ 2 ^ 11 ≤ (k + 1075).toNat + 1 := by omega
    rw [UnpackedFloat.pack]
    simp only [hbias]
    rw [if_neg hlow]
    split
    · refine ⟨s, BitVec.ofNat 11 (k + 1075).toNat, _, rfl, ?_⟩
      rw [BitVec.toNat_ofNat, Nat.mod_eq_of_lt (by omega)]
      omega
    · exact ⟨s, 0, _, rfl, by decide, Int.le_max_right _ _⟩

theorem isFinite_pack {bits : Nat} {e : Int} {x : UnpackedFloat} (h : Within bits e x)
    (he : e ≤ 900) : isFinite ⟨.pack x⟩ = true := by
  obtain ⟨sign, exponent, mantissa, hpack, htop, -⟩ := pack_of_within h he
  rw [isFinite_eq]
  show decide ((unpackExponent (UnpackedFloat.pack .binary64 x)).toNat ≠ 2047) = true
  rw [hpack, unpackExponent_packComponents]
  exact decide_eq_true htop

theorem within_unpack_pack {bits : Nat} {e : Int} {x : UnpackedFloat} (h : Within bits e x)
    (hlow : 0 ≤ e) (he : e ≤ 900) : Within 53 e (Float.Model.unpack (.pack x)) := by
  obtain ⟨sign, exponent, mantissa, hpack, htop, hexponent⟩ := pack_of_within h he
  show Within 53 e (UnpackedFloat.unpack .binary64 (UnpackedFloat.pack .binary64 x))
  rw [hpack, UnpackedFloat.unpack]
  simp only [unpackExponent_packComponents, unpackMantissa_packComponents]
  have hmantissa : mantissa.toNat < 2 ^ 52 := mantissa.isLt
  have hne : exponent ≠ -1#11 := by
    intro heq
    exact htop (by rw [heq]; rfl)
  have hscale : ((Format.binary64.exponentBias : Int) +
      (Format.binary64.mantissaBitsWithoutImplicit : Int)) = 1075 := rfl
  rw [if_neg hne, hscale]
  by_cases hzero : exponent = 0#11
  · have hnone : exponent.toNat = 0 := by rw [hzero]; rfl
    rw [if_pos hzero]
    split
    · exact .zero _
    · refine .finite (Nat.lt_of_lt_of_le hmantissa (by decide)) ?_
      rw [hnone]
      omega
  · rw [if_neg hzero]
    refine .finite ?_ (by omega)
    rw [BitVec.toNat_append, ← Nat.shiftLeft_add_eq_or_of_lt hmantissa, Nat.shiftLeft_eq]
    show 1 * 2 ^ 52 + mantissa.toNat < 2 ^ 53
    omega

/-! ## Rounding -/

theorem mantissa_shiftRight_le (a : ExtendedMantissa) (n : Nat) :
    (a >>> n).mantissa ≤ a.mantissa := by
  show (Nat.repeat ExtendedMantissa.shiftRightOne n a).mantissa ≤ a.mantissa
  induction n with
  | zero => exact Nat.le_refl _
  | succ n ih =>
    rw [Nat.repeat]
    exact Nat.le_trans (Nat.div_le_self _ 2) ih

theorem roundedMantissa_le (a : ExtendedMantissa) : a.roundedMantissa ≤ a.mantissa + 1 := by
  rw [ExtendedMantissa.roundedMantissa]
  generalize a.accuracy = accuracy
  have hparity : a.mantissa % 2 ≤ 1 := by omega
  unfold Accuracy.roundToNearestEven
  split <;> omega

/-- Shifting an exact mantissa does not make it longer. -/
theorem shiftToTargetExponent_le {bits : Nat} {m : Nat} (hm : m < 2 ^ bits) (k : Int) :
    (shiftToTargetExponent .binary64 m k .exact).1.mantissa ≤ m ∧
      (shiftToTargetExponent .binary64 m k .exact).2 ≤ max k (max (bits + k) (-1074)) := by
  have hlog : m.log2 ≤ bits := by
    by_cases hzero : m = 0
    · rw [hzero, Nat.log2_zero]
      exact Nat.zero_le bits
    · exact Nat.le_of_lt ((Nat.log2_lt hzero).mpr hm)
  refine ⟨mantissa_shiftRight_le _ _, ?_⟩
  show k + ((max ((m.log2 : Int) + 1 + k - (53 : Nat)) (-1074) - k).toNat : Int) ≤ _
  omega

theorem within_roundWithAccuracy {bits : Nat} {m : Nat} (hm : m < 2 ^ bits) {k e : Int}
    (hk : k ≤ e) (he : 0 ≤ e) (s : Sign) :
    Within (bits + 1) (2 * bits + 1 + e) (roundWithAccuracy .binary64 s m k .exact) := by
  obtain ⟨hfirst, hexponent⟩ := shiftToTargetExponent_le hm k
  have hrounded := roundedMantissa_le (shiftToTargetExponent .binary64 m k .exact).1
  unfold roundWithAccuracy
  generalize shiftToTargetExponent .binary64 m k .exact = first at *
  have hlonger : first.1.roundedMantissa < 2 ^ (bits + 1) := by
    have hpow : 2 ^ (bits + 1) = 2 ^ bits + 2 ^ bits := by omega
    have hpos : 0 < 2 ^ bits := Nat.two_pow_pos bits
    omega
  obtain ⟨hsecond, hexponent'⟩ := shiftToTargetExponent_le hlonger first.2
  simp only
  split
  · exact .zero s
  · exact .finite (by omega) (by push_cast at hexponent'; omega)

/-! ## Whole numbers -/

theorem Within.mono {bits bits' : Nat} {e e' : Int} {x : UnpackedFloat} (h : Within bits e x)
    (hbits : bits ≤ bits') (he : e ≤ e') : Within bits' e' x := by
  cases h with
  | zero s => exact .zero s
  | finite hm hk =>
    exact .finite (Nat.lt_of_lt_of_le hm (Nat.pow_le_pow_right (by omega) hbits)) (Int.le_trans hk he)

theorem Within.neg {bits : Nat} {e : Int} {x : UnpackedFloat} (h : Within bits e x) :
    Within bits e x.neg := by
  cases h with
  | zero s => exact .zero _
  | finite hm hk => exact .finite hm hk

theorem within_mul {x y : UnpackedFloat} {bits bits' : Nat} {e e' : Int} (hx : Within bits e x)
    (hy : Within bits' e' y) (he : 0 ≤ e + e') :
    Within (bits + bits' + 1) (2 * ((bits + bits' : Nat) : Int) + 1 + (e + e'))
      (mul .binary64 x y) := by
  cases hx with
  | zero s => cases hy <;> exact .zero _
  | finite hm hk =>
    cases hy with
    | zero s => exact .zero _
    | finite hm' hk' =>
      have hproduct := Nat.mul_lt_mul_of_lt_of_lt hm hm'
      rw [← Nat.pow_add] at hproduct
      exact within_roundWithAccuracy hproduct (Int.add_le_add hk hk') he _

/-- A whole number of a few bits, at its own scale or at a finer one. -/
theorem within_ofUInt64 {n : UInt64} (h : n.toNat < 2 ^ 53) :
    Within 108 215 (UnpackedFloat.ofUInt64 .binary64 n) := by
  show Within 108 215 (UnpackedFloat.normalize .binary64 n.toNat 0 .positive)
  unfold UnpackedFloat.normalize
  split
  · rename_i hlt
    rw [Int.compare_eq_lt] at hlt
    omega
  · exact .zero _
  · rw [Int.toNat_natCast]
    unfold UnpackedFloat.round decreaseExponent
    have hshift : (0 - max ((n.toNat.log2 : Int) + 1 + 0 - (53 : Nat)) (-1074)).toNat ≤ 54 := by
      omega
    have hmantissa : n.toNat <<< (0 - Format.binary64.targetExponent
        (Float.Model.totalExponent n.toNat 0)).toNat < 2 ^ 107 := by
      rw [Nat.shiftLeft_eq, show 2 ^ 107 = 2 ^ 53 * 2 ^ 54 from rfl]
      exact Nat.mul_lt_mul_of_lt_of_le h (Nat.pow_le_pow_right (by decide) hshift) (by decide)
    exact within_roundWithAccuracy hmantissa (by omega) (Int.le_refl 0) .positive

/-- The floats of the whole numbers of 64 bits. -/
theorem within_ofNat {n : Nat} (h : n < 2 ^ 64) :
    ∃ x, Float.ofNat n = ⟨.pack x⟩ ∧ Within 200 500 x := by
  show ∃ x, Float.ofScientific n false 0 = ⟨.pack x⟩ ∧ Within 200 500 x
  rw [Float.ofScientific]
  by_cases hsmall : n < 2 ^ 53
  · have hn : n.toUInt64.toNat = n := by
      rw [Nat.toUInt64, UInt64.toNat_ofNat']
      omega
    have hleft := within_unpack_pack (within_ofUInt64 (n := n.toUInt64) (by rw [hn]; exact hsmall))
      (by decide) (by decide)
    have hright : Within 53 (-52) (Float.Model.unpack
        (Float.toModel (Float.exactlyRepresentablePowersOfTen[0]))) :=
      .finite (by decide) (by decide)
    refine ⟨_, dif_pos ⟨hsmall, by decide⟩, (within_mul hleft hright (by decide)).mono ?_ ?_⟩
    · decide
    · decide
  · refine ⟨_, dif_neg (fun h => hsmall h.1), ?_⟩
    show Within 200 500 (UnpackedFloat.ofScientific .binary64 n 0)
    have hpos : n ≠ 0 := by omega
    have hexp : ¬ ((0 : Int) > 2 ^ Format.binary64.exponentBits) := by decide
    have hlow : ¬ ((0 : Int) < -(2 ^ Format.binary64.exponentBits + (n.log2 : Int))) := by
      show ¬ ((0 : Int) < -(2 ^ 11 + (n.log2 : Int)))
      omega
    rw [UnpackedFloat.ofScientific, dif_neg hpos, if_neg hexp, if_neg hlow, if_pos (Int.le_refl 0)]
    have hleft : ∀ hm, Within 117 0
        (.finite .positive (n <<< Format.binary64.mantissaBits) (-Format.binary64.mantissaBits) hm) := by
      intro hm
      refine .finite ?_ (by decide)
      rw [Nat.shiftLeft_eq]
      show n * 2 ^ 53 < 2 ^ 117
      omega
    have hright : ∀ hm, Within 1 0 (.finite .positive (10 ^ (0 : Int).toNat) 0 hm) :=
      fun _ => .finite (by decide) (by decide)
    have hmul := fun hm hm' => within_mul (hleft hm) (hright hm') (Int.le_refl 0)
    exact (hmul _ _).mono (by decide) (by decide)

theorem isFinite_ofInt {n : Int} (h : Json.isWord n = true) : isFinite (Float.ofInt n) = true := by
  rw [Json.isWord, Bool.and_eq_true, decide_eq_true_eq, decide_eq_true_eq] at h
  have hsize : Int.ofNat UInt64.size = 2 ^ 64 := rfl
  have hhalf : Int.ofNat (Nat.pow 2 63) = 2 ^ 63 := rfl
  rw [hsize, hhalf] at h
  cases n with
  | ofNat n =>
    obtain ⟨x, hx, hwithin⟩ := within_ofNat (n := n) (by have hn := h.2; rw [Int.ofNat_eq_natCast] at hn; omega)
    show isFinite (Float.ofNat n) = true
    rw [hx]
    exact isFinite_pack hwithin (by decide)
  | negSucc n =>
    obtain ⟨x, hx, hwithin⟩ := within_ofNat (n := n.succ) (by have hn := h.1; rw [Int.negSucc_eq] at hn; omega)
    show isFinite (Float.ofNat n.succ).neg = true
    rw [hx]
    exact isFinite_pack (within_unpack_pack hwithin (by decide) (by decide)).neg (by decide)

end Decimal
end LoadTest

import Mathlib

/-! Words as binary64 numbers: no word is so large that it becomes infinite. -/
namespace Chronometry.Binary64
open Float.Model Float.Model.UnpackedFloat

/-- A number that is finite, of at most the given exponent. -/
def AtMost (bound : Int) : UnpackedFloat → Prop
  | .zero _ => True
  | .finite _ _ exponent _ => exponent ≤ bound
  | _ => False

theorem AtMost.mono {bound bound' : Int} {f : UnpackedFloat} (h : AtMost bound f)
    (hle : bound ≤ bound') : AtMost bound' f := by
  cases f with
  | infinity sign => exact h
  | notANumber => exact h
  | zero sign => trivial
  | finite sign mantissa exponent hpos => exact Int.le_trans h hle

/-- Only the largest exponent field stands for numbers that are not finite. -/
theorem isFinite_unpack {b : BitVec Format.binary64.numBits} (h : unpackExponent b ≠ -1#_) :
    (UnpackedFloat.unpack Format.binary64 b).isFinite = true := by
  unfold UnpackedFloat.unpack
  simp only [if_neg h]
  split
  · split <;> rfl
  · rfl

/-- A finite number stays finite in 64 bits if its exponent is small enough. -/
theorem isFinite_pack {f : UnpackedFloat} (h : AtMost 971 f) :
    (Float.Model.pack f).isFinite = true := by
  apply isFinite_unpack
  change unpackExponent (UnpackedFloat.pack Format.binary64 f) ≠ _
  cases f with
  | infinity sign => exact h.elim
  | notANumber => exact h.elim
  | zero sign =>
    rw [UnpackedFloat.pack, packedZero, unpackExponent_packComponents]
    decide
  | finite sign mantissa exponent hpos =>
    have hbound : exponent ≤ 971 := h
    have hbias : Format.binary64.exponentBias = 1023 := by decide
    have hfield : (exponent + Format.binary64.exponentBias +
        Format.binary64.mantissaBitsWithoutImplicit).toNat < 2047 := by
      rw [hbias]
      dsimp only
      omega
    unfold UnpackedFloat.pack
    dsimp only at hfield ⊢
    rw [if_neg (by omega)]
    split
    · rw [unpackExponent_packComponents]
      intro hall
      have hnat := congrArg BitVec.toNat hall
      rw [BitVec.toNat_ofNat, Nat.mod_eq_of_lt (by omega)] at hnat
      have hmax : (-1#11).toNat = 2047 := by decide
      omega
    · rw [unpackExponent_packComponents]
      decide

section Rounding

theorem mantissa_shiftRight_le (em : ExtendedMantissa) (n : Nat) :
    (em >>> n).mantissa ≤ em.mantissa := by
  change (Nat.repeat ExtendedMantissa.shiftRightOne n em).mantissa ≤ em.mantissa
  induction n with
  | zero => exact Nat.le_refl _
  | succ n ih =>
    have hhalf : (Nat.repeat ExtendedMantissa.shiftRightOne (n + 1) em).mantissa =
        (Nat.repeat ExtendedMantissa.shiftRightOne n em).mantissa / 2 := rfl
    omega

theorem roundedMantissa_le (em : ExtendedMantissa) : em.roundedMantissa ≤ em.mantissa + 1 := by
  obtain ⟨mantissa, roundBit, stickyBit⟩ := em
  cases roundBit <;> cases stickyBit <;>
    simp only [ExtendedMantissa.roundedMantissa, ExtendedMantissa.accuracy,
      Accuracy.roundToNearestEven] <;> omega

theorem mantissa_ofMantissaAndAccuracy (mantissa : Nat) (accuracy : Accuracy) :
    (ExtendedMantissa.ofMantissaAndAccuracy mantissa accuracy).mantissa = mantissa := by
  unfold ExtendedMantissa.ofMantissaAndAccuracy
  split <;> rfl

variable {k mantissa : Nat} {exponent : Int}

theorem log2_le (h : mantissa ≤ 2 ^ k) : mantissa.log2 ≤ k := by
  by_cases hzero : mantissa = 0
  · rw [hzero]
    exact Nat.zero_le k
  · have hlt : mantissa < 2 ^ (k + 1) := Nat.lt_of_le_of_lt h (Nat.pow_lt_pow_succ (by decide))
    have := (Nat.log2_lt hzero).2 hlt
    omega

/-- Shifting a number of at most `k` bits to its place makes its exponent larger by `k` at most. -/
theorem shiftToTargetExponent_le (h : mantissa ≤ 2 ^ k) (hexponent : -1074 ≤ exponent)
    (accuracy : Accuracy) :
    let shifted := shiftToTargetExponent Format.binary64 mantissa exponent accuracy
    shifted.1.mantissa ≤ mantissa ∧ -1074 ≤ shifted.2 ∧ shifted.2 ≤ exponent + k := by
  intro shifted
  have hlog := log2_le h
  have hexact : shifted.2 = exponent +
      (max (mantissa.log2 + 1 + exponent - 53) (-1074) - exponent).toNat := rfl
  have hmantissa : shifted.1.mantissa ≤ mantissa := by
    have hshift := mantissa_shiftRight_le (ExtendedMantissa.ofMantissaAndAccuracy mantissa accuracy)
      (Format.binary64.targetExponent (totalExponent mantissa exponent) - exponent).toNat
    rwa [mantissa_ofMantissaAndAccuracy] at hshift
  refine ⟨hmantissa, ?_, ?_⟩ <;> omega

theorem atMost_roundWithAccuracy (h : mantissa < 2 ^ k) (hexponent : -1074 ≤ exponent)
    (sign : Sign) (accuracy : Accuracy) :
    AtMost (exponent + 2 * k) (roundWithAccuracy Format.binary64 sign mantissa exponent accuracy) := by
  obtain ⟨hmantissa, hlow, hhigh⟩ := shiftToTargetExponent_le (Nat.le_of_lt h) hexponent accuracy
  unfold roundWithAccuracy
  generalize shiftToTargetExponent Format.binary64 mantissa exponent accuracy = first at *
  have hrounded : first.1.roundedMantissa ≤ 2 ^ k := by
    have := roundedMantissa_le first.1
    omega
  obtain ⟨-, -, hfinal⟩ := shiftToTargetExponent_le hrounded hlow .exact
  dsimp only
  split
  · trivial
  · change _ ≤ _
    omega

theorem atMost_round (h : mantissa < 2 ^ 64) (sign : Sign) :
    AtMost 971 (UnpackedFloat.round Format.binary64 sign mantissa 0) := by
  let zeros : Nat := (0 - max ((mantissa.log2 : Int) + 1 + 0 - 53) (-1074)).toNat
  have hzeros : zeros ≤ 52 := by omega
  have hshifted : mantissa <<< zeros < 2 ^ 116 := by
    rw [Nat.shiftLeft_eq]
    calc
      mantissa * 2 ^ zeros
      _ ≤ mantissa * 2 ^ 52 := Nat.mul_le_mul_left _ (Nat.pow_le_pow_right (by decide) hzeros)
      _ < 2 ^ 64 * 2 ^ 52 := Nat.mul_lt_mul_of_pos_right h (by decide)
      _ = 2 ^ 116 := by decide
  have hround : AtMost (0 - zeros + 2 * (116 : Nat))
      (UnpackedFloat.round Format.binary64 sign mantissa 0) :=
    atMost_roundWithAccuracy hshifted (by omega) sign .exact
  exact hround.mono (by omega)

end Rounding

theorem isFinite_toFloat (w : UInt64) : w.toFloat.isFinite = true := by
  have hword : w.toNat < 2 ^ 64 := w.toNat_lt
  change (Float.Model.pack (UnpackedFloat.normalize Format.binary64 w.toNat 0 .positive)).isFinite = true
  apply isFinite_pack
  unfold UnpackedFloat.normalize
  split
  · exact atMost_round (by omega) .negative
  · trivial
  · exact atMost_round (by omega) .positive

end Chronometry.Binary64

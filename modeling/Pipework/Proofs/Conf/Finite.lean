import Mathlib
import Pipework.Decimal.Reading

/-! # Whole numbers as doubles

A whole number of up to 64 bits is far below the greatest double, so rounding it to a double gives
a finite one. The bounds here are coarse: they follow the exponent through rounding and packing and
leave it well below the one that stands for an infinity.
-/

namespace Pipework

open Float.Model Float.Model.UnpackedFloat

/-- The number is finite; its mantissa and its exponent keep to bounds. -/
inductive Moderate (bits : Nat) (bound : Int) : UnpackedFloat → Prop where
  | zero {sign : Sign} : Moderate bits bound (.zero sign)
  | finite {sign : Sign} {mantissa : Nat} {exponent : Int} {hpos : 0 < mantissa}
      (hmantissa : mantissa.log2 ≤ bits) (hexponent : exponent ≤ bound) :
      Moderate bits bound (.finite sign mantissa exponent hpos)

namespace Moderate

variable {bits : Nat} {bound : Int} {number : UnpackedFloat}

theorem mono {moreBits : Nat} {higher : Int} (h : Moderate bits bound number)
    (hbits : bits ≤ moreBits) (hbound : bound ≤ higher) : Moderate moreBits higher number := by
  cases h with
  | zero => exact .zero
  | finite hmantissa hexponent =>
      exact .finite (hmantissa.trans hbits) (hexponent.trans hbound)

theorem isFinite (h : Moderate bits bound number) : number.isFinite = true := by
  cases h <;> rfl

theorem neg (h : Moderate bits bound number) : Moderate bits bound number.neg := by
  cases h with
  | zero => exact .zero
  | finite hmantissa hexponent => exact .finite hmantissa hexponent

end Moderate

theorem mantissa_shiftRight (extended : ExtendedMantissa) (places : Nat) :
    (extended >>> places).mantissa = extended.mantissa / 2 ^ places := by
  induction places with
  | zero => exact (Nat.div_one _).symm
  | succ places ih =>
      have hstep : (extended >>> (places + 1)).mantissa = (extended >>> places).mantissa / 2 := rfl
      rw [hstep, ih, Nat.div_div_eq_div_mul, ← Nat.pow_succ]

theorem roundedMantissa_le (extended : ExtendedMantissa) :
    extended.roundedMantissa ≤ extended.mantissa + 1 := by
  obtain ⟨mantissa, roundBit, stickyBit⟩ := extended
  cases roundBit <;> cases stickyBit <;>
    simp [ExtendedMantissa.roundedMantissa, ExtendedMantissa.accuracy,
      Accuracy.roundToNearestEven]
  omega

theorem log2_le_of_le {first second : Nat} (h : first ≤ second) : first.log2 ≤ second.log2 := by
  rw [Nat.log2_eq_log_two, Nat.log2_eq_log_two]
  exact Nat.log_mono_right h

theorem log2_succ_le (number : Nat) : (number + 1).log2 ≤ number.log2 + 1 := by
  have hlt : number < 2 ^ (number.log2 + 1) := Nat.lt_log2_self
  have hle : number + 1 ≤ 2 ^ (number.log2 + 1) := hlt
  exact (log2_le_of_le hle).trans_eq (Nat.log2_two_pow)

/-- Shifting to the target exponent takes no more places than the mantissa has. -/
theorem shiftToTargetExponent_le (mantissa : Nat) (exponent : Int) :
    (shiftToTargetExponent .binary64 mantissa exponent .exact).1.mantissa ≤ mantissa ∧
      (shiftToTargetExponent .binary64 mantissa exponent .exact).2 ≤
        max exponent (-1074) + mantissa.log2 + 1 := by
  simp only [shiftToTargetExponent, shiftToExponent, mantissa_shiftRight,
    ExtendedMantissa.ofMantissaAndAccuracy, Format.targetExponent, totalExponent,
    Format.mantissaBits, Format.minExponent]
  refine ⟨Nat.div_le_self _ _, ?_⟩
  norm_num
  omega

/-- Rounding adds little to the exponent. -/
theorem moderate_roundWithAccuracy (sign : Sign) (mantissa : Nat) (exponent : Int) :
    Moderate (mantissa.log2 + 1) (max exponent (-1074) + 2 * mantissa.log2 + 3)
      (roundWithAccuracy .binary64 sign mantissa exponent .exact) := by
  obtain ⟨hfirst, hfirstExponent⟩ := shiftToTargetExponent_le mantissa exponent
  generalize hstart : shiftToTargetExponent .binary64 mantissa exponent .exact = start at *
  obtain ⟨extended, middle⟩ := start
  have hrounded : extended.roundedMantissa.log2 ≤ mantissa.log2 + 1 := by
    have hle : extended.roundedMantissa ≤ mantissa + 1 :=
      (roundedMantissa_le extended).trans (Nat.succ_le_succ hfirst)
    exact (log2_le_of_le hle).trans (log2_succ_le mantissa)
  obtain ⟨hsecond, hsecondExponent⟩ := shiftToTargetExponent_le extended.roundedMantissa middle
  simp only [roundWithAccuracy, hstart]
  split
  · exact .zero
  · refine .finite ((log2_le_of_le hsecond).trans hrounded) ?_
    simp only at hfirstExponent
    omega

theorem log2_toNat_le {width : Nat} (bits : BitVec width) (h : bits.toNat ≠ 0) :
    bits.toNat.log2 ≤ width - 1 := by
  have hlt : bits.toNat.log2 < width := (Nat.log2_lt h).mpr bits.isLt
  omega

/-- What is read out of bits whose exponent is not the greatest is finite. -/
theorem moderate_unpack {bits : BitVec Format.binary64.numBits} {biased : Nat}
    (h : (unpackExponent bits).toNat ≤ biased) (hbiased : biased < 2047) :
    Moderate 52 (biased - 1074) (UnpackedFloat.unpack .binary64 bits) := by
  have hgreatest : (-(BitVec.ofNat Format.binary64.exponentBits 1)).toNat = 2047 := by decide
  have hnot : unpackExponent bits ≠ -(BitVec.ofNat _ 1) := by
    intro heq
    rw [heq] at h
    omega
  have hbias : Format.binary64.exponentBias = 1023 := by decide
  simp only [UnpackedFloat.unpack, if_neg hnot]
  split
  · split
    · exact .zero
    next hsome =>
      have hmantissa : (unpackMantissa bits).toNat ≠ 0 := fun hzero =>
        hsome (BitVec.eq_of_toNat_eq hzero)
      exact .finite ((log2_toNat_le _ hmantissa).trans (by decide)) (by omega)
  · refine .finite (log2_toNat_le (BitVec.ofNat 1 1 ++ unpackMantissa bits) ?_) (by omega)
    rw [BitVec.toNat_append]
    exact Nat.ne_of_gt (Nat.lt_of_lt_of_le (by decide) Nat.left_le_or)

/-- Packing and reading back moves the exponent by at most one. -/
theorem moderate_unpack_pack {bits : Nat} {bound : Int} {number : UnpackedFloat}
    (h : Moderate bits bound number) (hbound : bound ≤ 900) :
    Moderate 52 (max bound (-1074) + 1)
      (UnpackedFloat.unpack .binary64 (UnpackedFloat.pack .binary64 number)) := by
  have hexponent : (unpackExponent (UnpackedFloat.pack .binary64 number)).toNat ≤
      (bound + 1075).toNat := by
    cases h with
    | zero =>
        rw [UnpackedFloat.pack, packedZero, unpackExponent_packComponents]
        exact Nat.zero_le _
    | @finite sign mantissa exponent hpos hmantissa hexponent =>
        have hbias : Format.binary64.exponentBias = 1023 := by decide
        have hwidth : Format.binary64.mantissaBitsWithoutImplicit = 52 := rfl
        have hle : (exponent + Format.binary64.exponentBias +
            Format.binary64.mantissaBitsWithoutImplicit).toNat ≤ (bound + 1075).toNat := by
          omega
        simp only [UnpackedFloat.pack]
        split
        next hoverflow => omega
        split
        · rw [unpackExponent_packComponents, BitVec.toNat_ofNat]
          exact (Nat.mod_le _ _).trans hle
        · rw [unpackExponent_packComponents]
          exact Nat.zero_le _
  exact (moderate_unpack hexponent (by omega)).mono le_rfl (by omega)

/-- Rounding a product of moderate numbers. -/
theorem moderate_mul {bits others : Nat} {bound other : Int} {first second : UnpackedFloat}
    (hfirst : Moderate bits bound first) (hsecond : Moderate others other second) :
    Moderate (bits + others + 2) (max (bound + other) (-1074) + 2 * (bits + others + 1) + 3)
      (UnpackedFloat.mul .binary64 first second) := by
  cases hfirst with
  | zero => cases hsecond <;> exact .zero
  | @finite _ mantissa _ hpos hmantissa hexponent =>
      cases hsecond with
      | zero => exact .zero
      | @finite _ otherMantissa _ hotherPos hotherMantissa hotherExponent =>
          have hlt : mantissa < 2 ^ (bits + 1) := (Nat.log2_lt hpos.ne').mp (by omega)
          have hotherLt : otherMantissa < 2 ^ (others + 1) :=
            (Nat.log2_lt hotherPos.ne').mp (by omega)
          have hproduct : mantissa * otherMantissa < 2 ^ (bits + others + 1).succ :=
            calc mantissa * otherMantissa < 2 ^ (bits + 1) * 2 ^ (others + 1) :=
                  Nat.mul_lt_mul'' hlt hotherLt
              _ = 2 ^ (bits + others + 1).succ := by
                  rw [← Nat.pow_add]
                  congr 1
                  omega
          have hlog : (mantissa * otherMantissa).log2 ≤ bits + others + 1 :=
            Nat.le_of_lt_succ ((Nat.log2_lt (Nat.mul_pos hpos hotherPos).ne').mpr hproduct)
          exact (moderate_roundWithAccuracy _ _ _).mono (by omega) (by omega)

/-- A whole number of up to 64 bits, rounded. -/
theorem moderate_ofNat {number : Nat} (h : number < 2 ^ 64) :
    Moderate 130 300 (UnpackedFloat.ofNat .binary64 number) := by
  rw [UnpackedFloat.ofNat, UnpackedFloat.ofInt, UnpackedFloat.normalize]
  split
  next hlt => exact absurd (Int.compare_eq_lt.mp hlt) (Int.not_lt.mpr (Int.natCast_nonneg _))
  · exact .zero
  next hgt =>
    have hpos : number ≠ 0 := by
      have := Int.compare_eq_gt.mp hgt
      omega
    simp only [UnpackedFloat.round, Int.toNat_natCast, decreaseExponent]
    generalize hplaces : (0 - Format.binary64.targetExponent (totalExponent number 0)).toNat = places
    have hfew : places ≤ 52 := by
      rw [← hplaces, Format.targetExponent, totalExponent, Format.mantissaBits,
        Format.minExponent]
      norm_num
      omega
    have hshifted : number <<< places < 2 ^ 116 := by
      rw [Nat.shiftLeft_eq]
      calc number * 2 ^ places < 2 ^ 64 * 2 ^ 52 :=
            Nat.mul_lt_mul_of_lt_of_le h (Nat.pow_le_pow_right (by decide) hfew) (by decide)
        _ = 2 ^ 116 := by decide
    have hlog : (number <<< places).log2 < 116 :=
      (Nat.log2_lt (by simp [Nat.shiftLeft_eq, hpos])).mpr hshifted
    exact (moderate_roundWithAccuracy _ _ _).mono (by omega) (by omega)

theorem unpack_pack (number : UnpackedFloat) : (Float.Model.pack number).unpack =
    UnpackedFloat.unpack .binary64 (UnpackedFloat.pack .binary64 number) := rfl

/-- A whole number of up to 64 bits, scaled by no power of ten. -/
theorem moderate_ofScientific {number : Nat} (h : number < 2 ^ 64) :
    Moderate 130 500 (UnpackedFloat.ofScientific .binary64 number 0) := by
  have hwidth : Format.binary64.mantissaBits = 53 := rfl
  unfold UnpackedFloat.ofScientific
  split
  · exact .zero
  next hpos =>
    have hlog : (number <<< Format.binary64.mantissaBits).log2 ≤ 117 := by
      refine Nat.le_of_lt_succ ((Nat.log2_lt (by simp [Nat.shiftLeft_eq, hpos])).mpr ?_)
      rw [Nat.shiftLeft_eq, hwidth]
      omega
    rw [if_neg (by decide), if_neg (by simp), if_pos le_rfl]
    have hexponent : -(Format.binary64.mantissaBits : Int) ≤ 0 := by omega
    have hone : (10 ^ (0 : Int).toNat).log2 ≤ 0 := by decide
    exact (moderate_mul (.finite hlog hexponent) (.finite hone (le_refl (0 : Int)))).mono (by decide)
      (by decide)

/-- A whole number of up to 64 bits as a double. -/
theorem moderate_float_ofNat {number : Nat} (h : number < 2 ^ 64) :
    Moderate 52 800 (Float.ofNat number).toModel.unpack := by
  change Moderate 52 800 (Float.ofScientific number false 0).toModel.unpack
  rw [Float.ofScientific]
  split
  next hsmall =>
    have hnumber : number.toUInt64.toNat = number := Nat.mod_eq_of_lt h
    have hfirst : Moderate 52 301 number.toUInt64.toFloat.toModel.unpack := by
      change Moderate 52 301 (Float.Model.pack (UnpackedFloat.ofNat .binary64
        number.toUInt64.toNat)).unpack
      rw [hnumber, unpack_pack]
      exact (moderate_unpack_pack (moderate_ofNat h) (by decide)).mono le_rfl (by decide)
    have hone : Moderate 52 0 (Float.ofBits 0x3FF0000000000000).toModel.unpack := by
      have hbits : (@unpackExponent .binary64 (BitVec.ofNat 64 0x3FF0000000000000)).toNat ≤ 1023 := by
        decide
      exact (moderate_unpack_pack (moderate_unpack hbits (by decide)) (by decide)).mono le_rfl
        (by decide)
    have hproduct := moderate_unpack_pack (moderate_mul hfirst hone) (by decide)
    exact hproduct.mono le_rfl (by decide)
  · exact (moderate_unpack_pack (moderate_ofScientific h) (by decide)).mono le_rfl (by decide)

/-- A whole number that fits in 64 bits, with a sign or without, is finite as a double. -/
theorem isFinite_ofInt {number : Int} (hleast : Value.minInt64 ≤ number)
    (hgreatest : number ≤ Decimal.maxSignificand) : (Float.ofInt number).isFinite = true := by
  cases number with
  | ofNat number =>
      have hlt : number < 2 ^ 64 := by
        simp only [Decimal.maxSignificand, Int.ofNat_eq_natCast] at hgreatest
        omega
      exact (moderate_float_ofNat hlt).isFinite
  | negSucc number =>
      have hlt : number + 1 < 2 ^ 64 := by
        simp only [Value.minInt64] at hleast
        omega
      exact ((moderate_unpack_pack (moderate_float_ofNat hlt).neg (by decide))).isFinite

end Pipework

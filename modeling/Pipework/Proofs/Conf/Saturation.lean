import Mathlib
import Pipework.Conf.Conversion
import Pipework.Proofs.Conf.Finite

/-! # Great numbers as doubles

The first bit of a number stays at its place, or moves up, when the number is rounded to a double,
packed and read back; in a product the places add up. So a whole number that does not fit in 64
bits becomes a double whose whole part does not fit either, and which is clamped in the end.
-/

namespace Pipework

open Float.Model Float.Model.UnpackedFloat FieldType

/-- The number has the sign and is infinite, or its mantissa is full and its first bit stands for
the power of two or a greater one. -/
inductive Weighs (sign : Sign) (power : Int) : UnpackedFloat → Prop where
  | infinity : Weighs sign power (.infinity sign)
  | finite {mantissa : Nat} {exponent : Int} {hpos : 0 < mantissa}
      (hfull : mantissa.log2 = 52) (hpower : power ≤ 52 + exponent) :
      Weighs sign power (.finite sign mantissa exponent hpos)

namespace Weighs

variable {sign : Sign} {power : Int} {number : UnpackedFloat}

theorem mono {less : Int} (h : Weighs sign power number) (hless : less ≤ power) :
    Weighs sign less number := by
  cases h with
  | infinity => exact .infinity
  | finite hfull hpower => exact .finite hfull (hless.trans hpower)

theorem neg (h : Weighs sign power number) : Weighs (-sign) power number.neg := by
  cases h with
  | infinity => exact .infinity
  | finite hfull hpower => exact .finite hfull hpower

end Weighs

theorem le_roundedMantissa (extended : ExtendedMantissa) :
    extended.mantissa ≤ extended.roundedMantissa := by
  obtain ⟨mantissa, roundBit, stickyBit⟩ := extended
  cases roundBit <;> cases stickyBit <;>
    simp [ExtendedMantissa.roundedMantissa, ExtendedMantissa.accuracy,
      Accuracy.roundToNearestEven]

theorem ne_zero_of_log2 {number : Nat} (h : 52 ≤ number.log2) : number ≠ 0 := by
  rintro rfl
  exact absurd h (by decide)

theorem log2_div_two_pow {number bits places : Nat} (hne : number ≠ 0)
    (h : number.log2 = bits + places) : (number / 2 ^ places).log2 = bits := by
  have hlow : 2 ^ bits ≤ number / 2 ^ places := by
    rw [Nat.le_div_iff_mul_le (Nat.two_pow_pos _), ← Nat.pow_add, ← h]
    exact Nat.log2_self_le hne
  have hhigh : number / 2 ^ places < 2 ^ (bits + 1) := by
    rw [Nat.div_lt_iff_lt_mul (Nat.two_pow_pos _), ← Nat.pow_add]
    exact (Nat.log2_lt hne).mp (by omega)
  exact (Nat.log2_eq_iff (Nat.ne_of_gt (Nat.lt_of_lt_of_le (Nat.two_pow_pos _) hlow))).mpr
    ⟨hlow, hhigh⟩

/-- Shifting fills the mantissa and leaves the first bit at its place. -/
theorem shiftToTargetExponent_full {mantissa : Nat} {exponent : Int}
    (hfull : 52 ≤ mantissa.log2) (hnormal : -1022 ≤ mantissa.log2 + exponent) :
    (shiftToTargetExponent .binary64 mantissa exponent .exact).1.mantissa.log2 = 52 ∧
      52 + (shiftToTargetExponent .binary64 mantissa exponent .exact).2 =
        mantissa.log2 + exponent := by
  have hplaces : (Format.binary64.targetExponent (totalExponent mantissa exponent) -
      exponent).toNat = mantissa.log2 - 52 := by
    simp only [Format.targetExponent, totalExponent, Format.mantissaBits, Format.minExponent]
    norm_num
    omega
  simp only [shiftToTargetExponent, shiftToExponent, mantissa_shiftRight, hplaces,
    ExtendedMantissa.ofMantissaAndAccuracy]
  exact ⟨log2_div_two_pow (ne_zero_of_log2 hfull) (by omega), by omega⟩

theorem weighs_roundWithAccuracy (sign : Sign) {power : Int} {mantissa : Nat} {exponent : Int}
    (hfull : 52 ≤ mantissa.log2) (hnormal : -1022 ≤ power)
    (hpower : power ≤ mantissa.log2 + exponent) :
    Weighs sign power (roundWithAccuracy .binary64 sign mantissa exponent .exact) := by
  obtain ⟨hshifted, hplace⟩ := shiftToTargetExponent_full hfull (hnormal.trans hpower)
  generalize hstart : shiftToTargetExponent .binary64 mantissa exponent .exact = start at *
  obtain ⟨extended, middle⟩ := start
  simp only at hshifted hplace
  -- Rounding up may carry into one more bit, which the second shift takes off again.
  have hrounded : 52 ≤ extended.roundedMantissa.log2 :=
    hshifted.symm.trans_le (log2_le_of_le (le_roundedMantissa extended))
  have hmiddle : -1022 ≤ extended.roundedMantissa.log2 + middle := by omega
  obtain ⟨hagain, hlast⟩ := shiftToTargetExponent_full hrounded hmiddle
  simp only [roundWithAccuracy, hstart]
  rw [dif_neg (ne_zero_of_log2 hagain.ge)]
  exact .finite hagain (by omega)

theorem unpackSign_packComponents {spec : Format} {sign : Sign} {exponent mantissa} :
    unpackSign (packComponents spec sign exponent mantissa) = sign.toBitVec := by
  ext i hi
  obtain rfl : i = 0 := by omega
  simp [unpackSign, packComponents, BitVec.getLsbD_append, BitVec.getElem_append]

theorem ofBitVec_toBitVec (sign : Sign) : Sign.ofBitVec sign.toBitVec = sign := by
  cases sign <;> rfl

theorem unpack_packedInfinity (sign : Sign) :
    UnpackedFloat.unpack .binary64 (packedInfinity .binary64 sign) = .infinity sign := by
  cases sign <;> rfl

theorem log2_append_one (bits : BitVec 52) : (1#1 ++ bits).toNat.log2 = 52 := by
  have hlow : 2 ^ 52 ≤ (1#1 ++ bits).toNat := by
    rw [BitVec.toNat_append]
    exact Nat.left_le_or
  exact (Nat.log2_eq_iff (Nat.ne_of_gt (Nat.lt_of_lt_of_le (Nat.two_pow_pos _) hlow))).mpr
    ⟨hlow, (1#1 ++ bits).isLt⟩

/-- What is read out of bits whose exponent is neither the least nor the greatest. -/
theorem weighs_unpack (bits : BitVec Format.binary64.numBits)
    (hleast : (unpackExponent bits).toNat ≠ 0) (hgreatest : (unpackExponent bits).toNat ≠ 2047) :
    Weighs (.ofBitVec (unpackSign bits)) ((unpackExponent bits).toNat - 1023)
      (UnpackedFloat.unpack .binary64 bits) := by
  have hones : unpackExponent bits ≠ -(BitVec.ofNat _ 1) := by
    intro heq
    rw [heq] at hgreatest
    exact hgreatest (by decide)
  have hzero : unpackExponent bits ≠ BitVec.ofNat _ 0 := by
    intro heq
    rw [heq] at hleast
    exact hleast (by decide)
  have hbias : Format.binary64.exponentBias = 1023 := by decide
  simp only [UnpackedFloat.unpack, if_neg hones, if_neg hzero]
  exact .finite (log2_append_one _) (by omega)

/-- Packing and reading back loses no weight. -/
theorem weighs_unpack_pack {sign : Sign} {power : Int} {number : UnpackedFloat}
    (h : Weighs sign power number) (hnormal : -1022 ≤ power) :
    Weighs sign power
      (UnpackedFloat.unpack .binary64 (UnpackedFloat.pack .binary64 number)) := by
  cases h with
  | infinity =>
      rw [UnpackedFloat.pack, unpack_packedInfinity]
      exact .infinity
  | @finite mantissa exponent hpos hfull hpower =>
      simp only [UnpackedFloat.pack]
      split
      · rw [unpack_packedInfinity]
        exact .infinity
      next hbelow =>
        have hbias : Format.binary64.exponentBias = 1023 := by decide
        have hwidth : Format.binary64.mantissaBitsWithoutImplicit = 52 := rfl
        have hcount : 2 ^ Format.binary64.exponentBits = 2048 := by decide
        rw [if_pos (by rw [hfull]; rfl)]
        generalize hbiased : (exponent + Format.binary64.exponentBias +
          Format.binary64.mantissaBitsWithoutImplicit).toNat = biased at hbelow ⊢
        rw [hcount] at hbelow
        have hread : (BitVec.ofNat Format.binary64.exponentBits biased).toNat = biased :=
          Nat.mod_eq_of_lt (by omega)
        generalize hbits : packComponents .binary64 sign (BitVec.ofNat _ biased)
          (BitVec.ofNat _ mantissa) = bits
        have hexponent : (unpackExponent bits).toNat = biased := by
          rw [← hbits, unpackExponent_packComponents, hread]
        have hsign : Sign.ofBitVec (unpackSign bits) = sign := by
          rw [← hbits, unpackSign_packComponents, ofBitVec_toBitVec]
        have hweighs := weighs_unpack bits (by omega) (by omega)
        rw [hsign, hexponent] at hweighs
        exact hweighs.mono (by omega)

theorem le_log2_mul {first second : Nat} (hfirst : first ≠ 0) (hsecond : second ≠ 0) :
    first.log2 + second.log2 ≤ (first * second).log2 := by
  rw [Nat.le_log2 (Nat.mul_ne_zero hfirst hsecond), Nat.pow_add]
  exact Nat.mul_le_mul (Nat.log2_self_le hfirst) (Nat.log2_self_le hsecond)

/-- The weights of the factors add up. -/
theorem weighs_mul {sign other : Sign} {power more : Int} {first second : UnpackedFloat}
    (hfirst : Weighs sign power first) (hsecond : Weighs other more second)
    (hnormal : -1022 ≤ power + more) :
    Weighs (sign * other) (power + more) (UnpackedFloat.mul .binary64 first second) := by
  cases hfirst with
  | infinity => cases hsecond <;> exact .infinity
  | @finite mantissa exponent hpos hfull hpower =>
      cases hsecond with
      | infinity => exact .infinity
      | @finite otherMantissa otherExponent hotherPos hotherFull hotherPower =>
          have hlog := le_log2_mul hpos.ne' hotherPos.ne'
          exact weighs_roundWithAccuracy _ (by omega) hnormal (by omega)

theorem log2_shiftLeft {number : Nat} (h : number ≠ 0) (places : Nat) :
    number.log2 + places ≤ (number <<< places).log2 := by
  have hlog := le_log2_mul h (Nat.two_pow_pos places).ne'
  rwa [Nat.log2_two_pow, ← Nat.shiftLeft_eq] at hlog

/-- A whole number, rounded. -/
theorem weighs_ofNat {number : Nat} (h : number ≠ 0) :
    Weighs .positive number.log2 (UnpackedFloat.ofNat .binary64 number) := by
  rw [UnpackedFloat.ofNat, UnpackedFloat.ofInt, UnpackedFloat.normalize]
  rw [Int.compare_eq_gt.mpr (by omega)]
  have hplaces : (0 - Format.binary64.targetExponent (totalExponent number 0)).toNat =
      52 - number.log2 := by
    simp only [Format.targetExponent, totalExponent, Format.mantissaBits, Format.minExponent]
    norm_num
    omega
  have hlog := log2_shiftLeft h (52 - number.log2)
  simp only [UnpackedFloat.round, Int.toNat_natCast, decreaseExponent, hplaces]
  exact weighs_roundWithAccuracy _ (by omega) (by omega) (by omega)

/-- A whole number scaled by a power of ten weighs as much as the two. -/
theorem weighs_ofScientific {number : Nat} (h : number ≠ 0) (places : Nat) :
    Weighs .positive (number.log2 + (10 ^ places).log2)
      (UnpackedFloat.ofScientific .binary64 number places) := by
  have hwidth : Format.binary64.mantissaBits = 53 := rfl
  have hshifted := log2_shiftLeft h Format.binary64.mantissaBits
  have hnonzero : number <<< Format.binary64.mantissaBits ≠ 0 := by
    simp [Nat.shiftLeft_eq, h]
  have hlog := le_log2_mul hnonzero (Nat.pow_pos (n := places) (by decide : 0 < 10)).ne'
  rw [UnpackedFloat.ofScientific, dif_neg h]
  split
  · exact .infinity
  rw [if_neg (by omega), if_pos (Int.natCast_nonneg _)]
  exact weighs_roundWithAccuracy _ (by simp only [Int.toNat_natCast]; omega) (by omega)
    (by simp only [Int.toNat_natCast]; omega)

/-- The powers of ten that are kept as doubles. -/
theorem weighs_power (places : Nat) (h : places < Float.exactlyRepresentablePowersOfTen.size) :
    Weighs .positive (10 ^ places).log2
      Float.exactlyRepresentablePowersOfTen[places].toModel.unpack := by
  have hbits : ∀ places (h : places < Float.exactlyRepresentablePowersOfTen.size),
      let bits : BitVec Format.binary64.numBits :=
        Float.exactlyRepresentablePowersOfTen[places].toModel.toBits.toBitVec
      (unpackExponent bits).toNat = (10 ^ places).log2 + 1023 ∧ (10 ^ places).log2 < 100 ∧
        Sign.ofBitVec (unpackSign bits) = .positive := by
    refine fun places h => ⟨?_, ?_, ?_⟩
    · revert places
      decide
    · revert places
      decide
    · rw [Sign.ofBitVec, if_pos]
      revert places
      decide
  obtain ⟨hexponent, hbound, hsign⟩ := hbits places h
  have hweighs := weighs_unpack _ (hexponent.trans_ne (by omega)) (hexponent.trans_ne (by omega))
  rw [hsign, hexponent] at hweighs
  exact hweighs.mono (by omega)

/-! ## Whole parts -/

theorem toInt_ofIntClamp (whole : Int) : (Int64.ofIntClamp whole).toInt = clampInt64 whole := by
  have hleast : Int64.minValue.toInt = Value.minInt64 := rfl
  have hgreatest : Int64.maxValue.toInt = Value.maxInt64 := rfl
  have hle : Value.minInt64 ≤ Value.maxInt64 := by decide
  unfold Int64.ofIntClamp clampInt64
  split
  · split
    · rw [Int64.toInt_ofIntLE]
      omega
    · omega
  · omega

theorem clampInt64_apply (sign : Sign) {first second : Nat} (hfirst : 2 ^ 63 ≤ first)
    (hsecond : 2 ^ 63 ≤ second) :
    clampInt64 (sign.apply first) = clampInt64 (sign.apply second) := by
  cases sign <;> simp only [clampInt64, Value.minInt64, Value.maxInt64, Sign.apply] <;> omega

/-- The whole part of a number of weight 63 does not fit in 64 bits. -/
theorem toInt_of_weighs {sign : Sign} {number : UnpackedFloat} (h : Weighs sign 63 number)
    {whole : Nat} (hwhole : 2 ^ 63 ≤ whole) :
    number.toInt64.toInt = clampInt64 (sign.apply whole) := by
  rw [← clampInt64_apply sign le_rfl hwhole]
  cases h with
  | infinity => cases sign <;> rfl
  | @finite mantissa exponent hpos hfull hpower =>
      have hround : roundToInt sign mantissa exponent =
          sign.apply (mantissa <<< exponent.toNat : Nat) := by
        have hshifts : (exponent - 0).toNat = exponent.toNat ∧
            (0 - (exponent - exponent.toNat)).toNat = 0 := by omega
        simp only [roundToInt, decreaseExponent, shiftToExponent, hshifts]
        rfl
      have hgreat : 2 ^ 63 ≤ mantissa <<< exponent.toNat := by
        have hlog := log2_shiftLeft hpos.ne' exponent.toNat
        rw [← Nat.le_log2 (by simp [Nat.shiftLeft_eq, hpos.ne'])]
        omega
      rw [UnpackedFloat.toInt64, toInt_ofIntClamp, UnpackedFloat.toInt, hround]
      exact clampInt64_apply sign hgreat le_rfl

/-! ## Doubles -/

section Doubles

variable {sign other : Sign} {power more : Int} {first second : Float}

theorem Weighs.float_neg (h : Weighs sign power first.toModel.unpack) (hnormal : -1022 ≤ power) :
    Weighs (-sign) power (-first).toModel.unpack :=
  weighs_unpack_pack h.neg hnormal

theorem Weighs.float_mul (hfirst : Weighs sign power first.toModel.unpack)
    (hsecond : Weighs other more second.toModel.unpack) (hnormal : -1022 ≤ power + more) :
    Weighs (sign * other) (power + more) (first * second).toModel.unpack :=
  weighs_unpack_pack (weighs_mul hfirst hsecond hnormal) hnormal

theorem weighs_float_ofScientific {number : Nat} (h : number ≠ 0) (places : Nat) :
    Weighs .positive (number.log2 + (10 ^ places).log2)
      (Float.ofScientific number false places).toModel.unpack := by
  rw [Float.ofScientific]
  split
  next hsmall =>
    have hnumber : number.toUInt64.toNat = number := Nat.mod_eq_of_lt (by omega)
    have hfirst : Weighs .positive number.log2 number.toUInt64.toFloat.toModel.unpack := by
      change Weighs _ _ (Float.Model.pack (UnpackedFloat.ofNat .binary64
        number.toUInt64.toNat)).unpack
      rw [hnumber, unpack_pack]
      exact weighs_unpack_pack (weighs_ofNat h) (by omega)
    exact hfirst.float_mul (weighs_power places _) (by omega)
  · exact weighs_unpack_pack (weighs_ofScientific h places) (by omega)

end Doubles

end Pipework

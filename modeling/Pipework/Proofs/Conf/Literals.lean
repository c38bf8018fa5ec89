import Mathlib
import Pipework.Proofs.Conf.Saturation
import Pipework.Proofs.Decimal.Spelling
import Pipework.Proofs.Text.LowerCase

/-! # Long integers

An integer that does not fit in 64 bits is read as a double, in the free spelling by rounding it and
in the strict one by scaling its first digits. Either way the double keeps the sign, and its weight
is at least 63.
-/

namespace Pipework.Decimal

open Float.Model Float.Model.UnpackedFloat

/-! ## The free spelling -/

theorem scan?_row {digits : List Char} (hrow : IsRow digits) :
    Literal.scan? digits = some ⟨digits, none, none⟩ := by
  simp only [Literal.scan?, List.takeWhile_eq_self_iff.mpr hrow.all_isDigit,
    List.dropWhile_eq_nil_iff.mpr hrow.all_isDigit]
  rfl

theorem readMagnitude?_row {digits : List Char} (hrow : IsRow digits) :
    readMagnitude? digits = some (toFloat ⟨Nat.ofDigitChars 10 digits 0, 0⟩) := by
  have hletter : ∀ (c : Char) (rest : List Char), c.isDigit = false →
      digits.map Char.toLower ≠ c :: rest := by
    intro c rest hc heq
    obtain ⟨head, tail, rfl⟩ := List.exists_cons_of_ne_nil hrow.1
    have hcode := hrow.code List.mem_cons_self
    have hsame : c = head :=
      (List.cons.inj heq).1.symm.trans (Text.toLower_eq_self (by omega))
    rw [hsame, hrow.2 head List.mem_cons_self] at hc
    cases hc
  have hinf : ¬ (digits.map Char.toLower = "inf".toList ∨
      digits.map Char.toLower = "infinity".toList) := by
    rintro (heq | heq) <;> exact hletter 'i' _ (by decide) heq
  have hnan : digits.map Char.toLower ≠ "nan".toList := hletter 'n' _ (by decide)
  rw [readMagnitude?]
  simp only [if_neg hinf, if_neg hnan, scan?_row hrow, Option.bind_some, Option.getD_none,
    List.append_nil, if_neg hrow.1]
  rfl

/-- A whole number that is too great for 64 bits, as a double. -/
theorem weighs_toFloat {number : Nat} (h : 2 ^ 63 ≤ number) :
    Weighs .positive 63 (toFloat ⟨number, 0⟩).toModel.unpack := by
  have hne : number ≠ 0 := by omega
  have hlog : 63 ≤ number.log2 := (Nat.le_log2 hne).mpr h
  simp only [toFloat]
  rw [if_neg (by omega)]
  split
  -- With more than four hundred digits the number is not computed.
  · have hinfinite : (1.0 / 0.0 : Float).toModel.unpack = .infinity .positive := by rfl
    rw [hinfinite]
    exact .infinity
  · exact (weighs_float_ofScientific hne 0).mono (by omega)

/-- What the free spelling reads a number as that does not fit in 64 bits. -/
theorem exists_weighs_of_spells {text : List Char} {number : Int} (h : Spells text number)
    (hgreat : 2 ^ 63 ≤ number.natAbs) :
    ∃ held sign, readFloat? text = some held ∧ Weighs sign 63 held.toModel.unpack ∧
      number = sign.apply number.natAbs := by
  cases h with
  | @plain digits hrow =>
      obtain ⟨head, rest, hcons, hminus, hplus⟩ := hrow.exists_cons
      refine ⟨_, .positive, ?_, weighs_toFloat hgreat, rfl⟩
      rw [readFloat?.eq_3 _ (by simpa [hcons] using hminus) (by simpa [hcons] using hplus)]
      exact readMagnitude?_row hrow
  | @plus digits hrow =>
      exact ⟨_, .positive, readMagnitude?_row hrow, weighs_toFloat hgreat, rfl⟩
  | @minus digits hrow =>
      rw [Int.natAbs_neg] at hgreat ⊢
      refine ⟨_, .negative, ?_, (weighs_toFloat hgreat).float_neg (by decide), rfl⟩
      rw [readFloat?, readMagnitude?_row hrow]
      rfl

/-! ## The strict spelling -/

theorem le_ofDigitChars (digits : List Char) (start : Nat) :
    start ≤ Nat.ofDigitChars 10 digits start := by
  rw [Nat.ofDigitChars_eq_ofDigitChars_zero]
  exact (Nat.le_mul_of_pos_left start (Nat.pow_pos (by decide))).trans (Nat.le_add_right _ _)

/-- Digits that fit in the significand are all read. Of others so many are read that one more would
not have fitted. -/
theorem accumulate_spec {digits : List Char} (h : ∀ c ∈ digits, c.isDigit = true)
    (significand : Nat) :
    accumulate significand digits = (Nat.ofDigitChars 10 digits significand, 0) ∨
      maxSignificand < Nat.ofDigitChars 10 digits significand ∧
        0 < (accumulate significand digits).2 ∧
        maxSignificand < 10 * (accumulate significand digits).1 + 10 := by
  induction digits generalizing significand with
  | nil => exact .inl rfl
  | cons c rest ih =>
      have hdigit : digitValue c < 10 := by
        have hcode : c.toNat ≤ 57 := (Char.isDigit_iff_toNat.mp (h c List.mem_cons_self)).2
        change c.toNat - 48 < 10
        omega
      have hnext : Nat.ofDigitChars 10 (c :: rest) significand =
          Nat.ofDigitChars 10 rest (10 * significand + digitValue c) := Nat.ofDigitChars_cons
      rw [accumulate, hnext]
      split
      · exact ih (fun other hother => h other (List.mem_cons_of_mem c hother)) _
      next hover =>
        have hle := le_ofDigitChars rest (10 * significand + digitValue c)
        exact .inr ⟨by omega, Nat.succ_pos _, by dsimp only; omega⟩

theorem exists_scaled_of_toDouble? {negative : Bool} {digits : List Char} {held : Double}
    (h : Literal.toDouble? negative ⟨digits, none, none⟩ = some held) :
    ∃ scaled, scale? 20 (Float.ofNat (accumulate 0 digits).1) (accumulate 0 digits).2 = some scaled ∧
      held.toFloat = if negative then -scaled else scaled := by
  have hscale : (scale? 20 (Float.ofNat (accumulate 0 digits).1) (accumulate 0 digits).2).bind
      (fun number => Double.ofFloat? (if negative then -number else number)) = some held := by
    simpa [Literal.toDouble?, Literal.parts, accumulate] using h
  obtain ⟨scaled, hscaled, hheld⟩ := Option.bind_eq_some_iff.mp hscale
  obtain ⟨hfinite, heq⟩ := Option.dite_none_right_eq_some.mp hheld
  exact ⟨scaled, hscaled, by rw [← Option.some.inj heq]⟩

theorem ne_zero_of_weighs {sign : Sign} {power : Int} {number : Float}
    (h : Weighs sign power number.toModel.unpack) : (number == 0.0) = false := by
  have hzero : (0.0 : Float).toModel.unpack = .zero .positive := by rfl
  change number.toModel.unpack.beq (0.0 : Float).toModel.unpack = false
  rw [hzero]
  generalize number.toModel.unpack = unpacked at h
  cases h <;> cases sign <;> rfl

theorem weighs_float_ofNat {number : Nat} (h : number ≠ 0) :
    Weighs .positive number.log2 (Float.ofNat number).toModel.unpack :=
  (weighs_float_ofScientific h 0).mono (by omega)

theorem scale?_eq_some {fuel significand places : Nat} {out : Float} (hne : significand ≠ 0)
    (h : scale? (fuel + 1) (Float.ofNat significand) places = some out) :
    out = Float.ofNat significand * Float.ofScientific 1 false places := by
  have hzero := ne_zero_of_weighs (weighs_float_ofNat hne)
  rw [scale?] at h
  split at h
  · simp only [Int.natCast_nonneg, if_true, Int.natAbs_natCast] at h
    split at h
    · cases h
    · exact (Option.some.inj h).symm
  · rw [hzero, if_neg Bool.false_ne_true, if_pos (Int.natCast_nonneg _)] at h
    cases h

/-- The digits that are kept and the power of ten that stands for the others. -/
theorem le_log2_accumulate {digits : List Char} (hrow : IsRow digits)
    (hgreat : 2 ^ 63 ≤ Nat.ofDigitChars 10 digits 0) :
    (accumulate 0 digits).1 ≠ 0 ∧
      63 ≤ (accumulate 0 digits).1.log2 + (10 ^ (accumulate 0 digits).2).log2 := by
  rcases accumulate_spec hrow.2 0 with hall | ⟨-, hdropped, hmany⟩
  · rw [hall]
    have hne : Nat.ofDigitChars 10 digits 0 ≠ 0 := by omega
    exact ⟨hne, ((Nat.le_log2 hne).mpr hgreat).trans (Nat.le_add_right _ _)⟩
  -- A tenth of the bound has sixty bits behind the first, and a ten has three.
  · simp only [maxSignificand] at hmany
    have hne : (accumulate 0 digits).1 ≠ 0 := by omega
    have hbits : 60 ≤ (accumulate 0 digits).1.log2 := (Nat.le_log2 hne).mpr (by omega)
    have hten : 3 ≤ (10 ^ (accumulate 0 digits).2).log2 :=
      (Nat.le_log2 (Nat.pow_pos (by decide)).ne').mpr
        ((by decide : 2 ^ 3 ≤ 10 ^ 1).trans (Nat.pow_le_pow_right (by decide) hdropped))
    exact ⟨hne, Nat.add_le_add hbits hten⟩

/-- A literal of an integer that does not fit in 64 bits, as a double. -/
theorem weighs_of_toDouble? {negative : Bool} {digits : List Char} {held : Double}
    (hrow : IsRow digits) (hgreat : 2 ^ 63 ≤ Nat.ofDigitChars 10 digits 0)
    (h : Literal.toDouble? negative ⟨digits, none, none⟩ = some held) :
    Weighs (if negative then .negative else .positive) 63 held.toFloat.toModel.unpack := by
  obtain ⟨scaled, hscaled, hheld⟩ := exists_scaled_of_toDouble? h
  obtain ⟨hne, hlog⟩ := le_log2_accumulate hrow hgreat
  have hweighs : Weighs .positive 63 scaled.toModel.unpack := by
    rw [scale?_eq_some hne hscaled]
    have hone : Nat.log2 1 = 0 := by decide
    exact ((weighs_float_ofNat hne).float_mul
      (weighs_float_ofScientific Nat.one_ne_zero _) (by omega)).mono (by omega)
  rw [hheld]
  cases negative with
  | false => exact hweighs
  | true => exact hweighs.float_neg (by decide)

theorem readStrict?_row {digits : List Char} (hrow : IsRow digits) :
    readStrict? digits =
      if (⟨digits, none, none⟩ : Literal).isStrict then
        if Nat.ofDigitChars 10 digits 0 ≤ maxSignificand then
          some (.int (Nat.ofDigitChars 10 digits 0))
        else (Literal.toDouble? false ⟨digits, none, none⟩).map .float
      else none := by
  obtain ⟨head, rest, hcons, hminus, hplus⟩ := hrow.exists_cons
  have hhead : ¬ digits.head? = some '-' := by simpa [hcons] using hminus
  simp [readStrict?, hhead, scan?_row hrow, natOfDigits_eq]

theorem readStrict?_minus {digits : List Char} (hrow : IsRow digits) :
    readStrict? ('-' :: digits) =
      if (⟨digits, none, none⟩ : Literal).isStrict then
        if Nat.ofDigitChars 10 digits 0 ≠ 0 ∧ Nat.ofDigitChars 10 digits 0 ≤ 9223372036854775808 then
          some (.int (-Nat.ofDigitChars 10 digits 0))
        else (Literal.toDouble? true ⟨digits, none, none⟩).map .float
      else none := by
  simp [readStrict?, scan?_row hrow, natOfDigits_eq]

end Pipework.Decimal

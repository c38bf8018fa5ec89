import Mathlib
import Pipework.Proofs.Conf.Conversion
import Pipework.Proofs.Conf.Literals

/-! # Conversion to an integer

A value that stands for an integer, however it is written and however long it is, is converted to
that integer if it fits in 64 bits, and else to the nearest one that does. None is refused.
-/

namespace Pipework

open Decimal Float.Model Float.Model.UnpackedFloat

/-- The integer that a value stands for: a number as it is held, a trimmed text, or a literal, which
is held as a double if it is too long. -/
inductive Value.Denotes : Value → Int → Prop where
  | int (number : Int) : Denotes (.int number) number
  | text {text : String} {number : Int} (h : Spells (Text.trimChars text.toList) number) :
      Denotes (.text text) number
  | literal {literal : List Char} {value : Value} {number : Int}
      (hread : readStrict? literal = some value) (h : Spells literal number) :
      Denotes value number

namespace FieldType

theorem truncate_of_weighs {held : Float} {sign : Sign} {number : Int}
    (h : Weighs sign 63 held.toModel.unpack) (hgreat : 2 ^ 63 ≤ number.natAbs)
    (hsign : number = sign.apply number.natAbs) : truncate held = clampInt64 number := by
  rw [hsign]
  exact toInt_of_weighs h hgreat

theorem le_natAbs_of_not_fits {number : Int}
    (h : ¬ (Value.minInt64 ≤ number ∧ number ≤ Value.maxInt64)) : 2 ^ 63 ≤ number.natAbs := by
  simp only [Value.minInt64, Value.maxInt64] at h
  omega

theorem readInteger?_of_spells {text : String} {number : Int}
    (h : Spells (Text.trimChars text.toList) number) :
    readInteger? text = some (.int (clampInt64 number)) := by
  have hblank : ¬ Text.allBlank text = true := by
    intro hblank
    have hempty : Text.trimStart text.toList = [] :=
      List.dropWhile_eq_nil_iff.mpr (List.all_eq_true.mp hblank)
    exact h.ne_nil (by rw [Text.trimChars, hempty]; rfl)
  rw [readInteger?, if_neg hblank]
  dsimp only
  by_cases hfits : Value.minInt64 ≤ number ∧ number ≤ Value.maxInt64
  · rw [readInt64?_of_spells h, if_pos hfits, clampInt64_eq_iff.mpr hfits]
  · have hgreat := le_natAbs_of_not_fits hfits
    obtain ⟨held, sign, hheld, hweighs, hsign⟩ := exists_weighs_of_spells h hgreat
    rw [readInt64?_of_spells h, if_neg hfits, hheld, Option.map_some,
      truncate_of_weighs hweighs hgreat hsign]

theorem truncate_of_toDouble? {negative : Bool} {digits : List Char} {held : Double}
    (hrow : IsRow digits) (hgreat : 2 ^ 63 ≤ Nat.ofDigitChars 10 digits 0)
    (h : Literal.toDouble? negative ⟨digits, none, none⟩ = some held) :
    truncate held.toFloat = clampInt64
      ((if negative then .negative else .positive : Sign).apply (Nat.ofDigitChars 10 digits 0)) :=
  toInt_of_weighs (weighs_of_toDouble? hrow hgreat h) hgreat

/-- The negative zero. -/
theorem truncate_of_zero {digits : List Char} {held : Double} (hrow : IsRow digits)
    (hzero : Nat.ofDigitChars 10 digits 0 = 0)
    (h : Literal.toDouble? true ⟨digits, none, none⟩ = some held) :
    truncate held.toFloat = 0 := by
  have hread : accumulate 0 digits = (0, 0) := by
    rcases accumulate_spec hrow.2 0 with hall | ⟨hmany, -⟩
    · rw [hall, hzero]
    · rw [hzero] at hmany
      exact absurd hmany (Nat.not_lt_zero _)
  obtain ⟨scaled, hscaled, hheld⟩ := exists_scaled_of_toDouble? h
  rw [hread] at hscaled
  have hzeroScaled : scale? 20 (Float.ofNat 0) 0 = some (Float.ofNat 0) := by rfl
  rw [hheld, ← Option.some.inj (hzeroScaled.symm.trans hscaled)]
  rfl

/-- An integer that is read from a literal, or a double in the place of one that is too long. -/
theorem toInteger?_of_literal {literal : List Char} {value : Value} {number : Int}
    (hread : readStrict? literal = some value) (h : Spells literal number) :
    toInteger? value = some (.int (clampInt64 number)) := by
  cases h with
  | plus => cases hread
  | @plain digits hrow =>
      rw [readStrict?_row hrow] at hread
      obtain ⟨-, hread⟩ := Option.ite_none_right_eq_some.mp hread
      split at hread
      · cases hread
        rfl
      next hover =>
        obtain ⟨held, hheld, rfl⟩ := Option.map_eq_some_iff.mp hread
        simp only [maxSignificand] at hover
        exact congrArg (fun whole => some (Value.int whole))
          (truncate_of_toDouble? hrow (by omega) hheld)
  | @minus digits hrow =>
      rw [readStrict?_minus hrow] at hread
      obtain ⟨-, hread⟩ := Option.ite_none_right_eq_some.mp hread
      split at hread
      · cases hread
        rfl
      next hover =>
        obtain ⟨held, hheld, rfl⟩ := Option.map_eq_some_iff.mp hread
        refine congrArg (fun whole => some (Value.int whole)) ?_
        by_cases hzero : Nat.ofDigitChars 10 digits 0 = 0
        · rw [truncate_of_zero hrow hzero hheld, hzero]
          decide
        · exact truncate_of_toDouble? hrow (by omega) hheld

theorem read?_of_denotes {value : Value} {number : Int} (h : value.Denotes number) :
    integer.read? value = some (.int (clampInt64 number)) := by
  cases h with
  | int => rfl
  | text h => exact readInteger?_of_spells h
  | literal hread h => exact toInteger?_of_literal hread h

/-- A value that stands for an integer is converted to exactly that integer if it fits in 64 bits.
One that is too great becomes the greatest integer of 64 bits and one that is too small the least;
neither is refused. -/
theorem convert_integer (field : String) {value : Value} {number : Int}
    (h : value.Denotes number) :
    (Value.minInt64 ≤ number ∧ number ≤ Value.maxInt64 →
      integer.convert field value = .ok (.int number)) ∧
    (Value.maxInt64 < number → integer.convert field value = .ok (.int Value.maxInt64)) ∧
    (number < Value.minInt64 → integer.convert field value = .ok (.int Value.minInt64)) := by
  have hconvert : integer.convert field value = .ok (.int (clampInt64 number)) :=
    convert_eq_ok_iff.mpr (read?_of_denotes h)
  have hle : Value.minInt64 ≤ Value.maxInt64 := by decide
  refine ⟨fun hfits => ?_, fun hgreat => ?_, fun hsmall => ?_⟩
  · rw [hconvert, clampInt64_eq_iff.mpr hfits]
  · rw [hconvert, clampInt64, min_eq_left hgreat.le, max_eq_right hle]
  · rw [hconvert, clampInt64, min_eq_right (hsmall.le.trans hle), max_eq_left hsmall.le]

/-- A text with zeros in front, an integer that is one too great, a text that is one too small, and
a literal that is held as a double. -/
theorem convert_integer_of_limits :
    ((Value.text " +007 ").Denotes 7 ∧
      integer.convert "limit" (.text " +007 ") = .ok (.int 7)) ∧
    ((Value.int 9223372036854775808).Denotes 9223372036854775808 ∧
      integer.convert "limit" (.int 9223372036854775808) = .ok (.int Value.maxInt64)) ∧
    ((Value.text "-9223372036854775809").Denotes (-9223372036854775809) ∧
      integer.convert "limit" (.text "-9223372036854775809") = .ok (.int Value.minInt64)) ∧
    ∃ double, (Value.float double).Denotes 100000000000000000000 ∧
      integer.convert "limit" (.float double) = .ok (.int Value.maxInt64) := by
  have hzeros : (Value.text " +007 ").Denotes 7 := .text (readInt?_eq_some_iff.mp (by rfl))
  have hsmall : (Value.text "-9223372036854775809").Denotes (-9223372036854775809) :=
    .text (readInt?_eq_some_iff.mp (by rfl))
  obtain ⟨double, hdouble⟩ : ∃ double,
      (Value.float double).Denotes 100000000000000000000 := by
    obtain ⟨double, hread⟩ : ∃ double,
        readStrict? "100000000000000000000".toList = some (.float double) := ⟨_, rfl⟩
    exact ⟨double, .literal hread (readInt?_eq_some_iff.mp (by rfl))⟩
  exact ⟨⟨hzeros, (convert_integer "limit" hzeros).1 (by decide)⟩,
    ⟨.int _, (convert_integer "limit" (.int _)).2.1 (by decide)⟩,
    ⟨hsmall, (convert_integer "limit" hsmall).2.2 (by decide)⟩,
    double, hdouble, (convert_integer "limit" hdouble).2.1 (by decide)⟩

/-- An integer that does not fit is converted to another one. -/
theorem unfit_integer_accepted : ¬ ∀ (field : String) (value : Value) (number : Int),
    value.Denotes number →
      (Value.minInt64 ≤ number ∧ number ≤ Value.maxInt64 →
        integer.convert field value = .ok (.int number)) ∧
      (¬ (Value.minInt64 ≤ number ∧ number ≤ Value.maxInt64) →
        integer.convert field value = .error (.badField field (.unreadable value integer))) := by
  intro hclaim
  have hrefused := (hclaim "limit" (.int 9223372036854775808) _ (.int _)).2 (by decide)
  rw [convert_eq_ok_iff.mpr (read?_of_denotes (.int _))] at hrefused
  cases hrefused

end FieldType

end Pipework

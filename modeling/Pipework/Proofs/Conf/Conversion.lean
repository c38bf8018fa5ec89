import Mathlib
import Pipework.Conf.Conversion
import Pipework.Proofs.Conf.Finite
import Pipework.UserInput

/-! # Conversion to a kind

What a value is converted to is of the kind, and converting it once more leaves it as it is. There
is one exception: a text that spells a number that is not finite becomes null, which is no number
and cannot be converted to one.
-/

namespace Pipework

namespace Value

/-- An integer fits in 64 bits, with a sign or without. -/
def FitsWord : Value → Prop
  | .int number => minInt64 ≤ number ∧ number ≤ Decimal.maxSignificand
  | _ => True

/-- A text that spells an infinity, a number that rounds to one, or no number at all. -/
def NamesNoDouble (value : Value) : Prop :=
  ∃ text number, value = .text text ∧ Text.allBlank text = false ∧
    Decimal.readFloat? (Text.trimChars text.toList) = some number ∧ number.isFinite = false

theorem ofFloat_of_isFinite {number : Float} (h : number.isFinite = true) :
    ofFloat number = .float ⟨number, h⟩ := by
  rw [ofFloat, Double.ofFloat?, dif_pos h]

theorem ofFloat_of_not_isFinite {number : Float} (h : number.isFinite = false) :
    ofFloat number = .null := by
  rw [ofFloat, Double.ofFloat?, dif_neg (by simp [h])]

end Value

/-- The number that a strict spelling is read as fits. -/
theorem Decimal.fitsWord_of_readStrict? {text : List Char} {value : Value}
    (h : readStrict? text = some value) : value.FitsWord := by
  obtain ⟨literal, -, h⟩ := Option.bind_eq_some_iff.mp h
  split at h
  · dsimp only at h
    split at h
    next hsmall =>
      cases h
      have hbound := hsmall.2.2.2
      constructor <;> simp only [Value.minInt64, maxSignificand] <;> omega
    split at h
    next hsmall =>
      cases h
      have hbound := hsmall.2.2
      simp only [maxSignificand] at hbound
      constructor <;> simp only [Value.minInt64, maxSignificand] <;> omega
    next =>
      obtain ⟨double, -, rfl⟩ := Option.map_eq_some_iff.mp h
      trivial
  · cases h

namespace FieldType

theorem clampInt64_eq_iff {number : Int} :
    clampInt64 number = number ↔ Value.minInt64 ≤ number ∧ number ≤ Value.maxInt64 := by
  simp only [clampInt64, Value.minInt64, Value.maxInt64]
  omega

/-- A value of a kind. -/
def Holds : FieldType → Value → Prop
  | number, .float _ => True
  | integer, .int held => Value.minInt64 ≤ held ∧ held ≤ Value.maxInt64
  | text, .text _ => True
  | bool, .bool _ => True
  | _, _ => False

/-- A value of a kind is read as itself. -/
theorem Holds.read? {kind : FieldType} {value : Value} (h : kind.Holds value) :
    kind.read? value = some value := by
  cases kind <;> cases value <;> first | exact h.elim | rfl | skip
  case integer.int held =>
    have hclamp : clampInt64 held = held := clampInt64_eq_iff.mpr h
    exact congrArg (fun whole => some (Value.int whole)) hclamp

theorem holds_clampInt64 (whole : Int) : integer.Holds (.int (clampInt64 whole)) :=
  ⟨le_max_left _ _, max_le (by decide) (min_le_left _ _)⟩

theorem holds_truncate (held : Float) : integer.Holds (.int (truncate held)) :=
  ⟨held.toModel.toInt64.le_toInt, Int.le_of_lt_add_one held.toModel.toInt64.toInt_lt⟩

theorem holds_ofFloat {held : Float} (h : held.isFinite = true) :
    number.Holds (.ofFloat held) := by
  rw [Value.ofFloat_of_isFinite h]
  trivial

/-- What a text is read as is a number unless the text spells one that is not finite. -/
theorem holds_of_readNumber? {held : String} {value : Value} (h : readNumber? held = some value)
    (hfinite : ¬ (Value.text held).NamesNoDouble) : number.Holds value := by
  unfold readNumber? at h
  split at h
  · cases h
    trivial
  next hblank =>
    obtain ⟨double, hdouble, rfl⟩ := Option.map_eq_some_iff.mp h
    refine holds_ofFloat ?_
    by_contra hnot
    exact hfinite ⟨held, double, rfl, by simpa using hblank, hdouble, by simpa using hnot⟩

theorem holds_of_readInteger? {held : String} {value : Value}
    (h : readInteger? held = some value) : integer.Holds value := by
  unfold readInteger? at h
  split at h
  · cases h
    exact ⟨by decide, by decide⟩
  · dsimp only at h
    split at h
    next whole hwhole =>
      cases h
      have hfits : Value.minInt64 ≤ whole ∧ whole ≤ Value.maxInt64 := by
        simpa using (Option.filter_eq_some_iff.mp hwhole).2
      exact hfits
    next =>
      obtain ⟨double, -, rfl⟩ := Option.map_eq_some_iff.mp h
      exact holds_truncate double

theorem holds_of_readBool? {held : String} {value : Value} (h : readBool? held = some value) :
    bool.Holds value := by
  unfold readBool? at h
  dsimp only at h
  split at h
  · cases h
    trivial
  · split at h
    · cases h
      trivial
    · cases h

/-- What a value is read as is of the kind, unless a number is wanted and the value is a text that
spells one that is not finite. -/
theorem holds_of_read? {kind : FieldType} {value held : Value} (hvalue : value.FitsWord)
    (hfinite : ¬ (kind = number ∧ value.NamesNoDouble)) (h : kind.read? value = some held) :
    kind.Holds held := by
  cases kind with
  | text =>
      cases h
      trivial
  | number =>
      cases value with
      | int whole =>
          simp only [read?, toNumber?, Option.some.injEq] at h
          exact h ▸ holds_ofFloat (isFinite_ofInt hvalue.1 hvalue.2)
      | text spelled => exact holds_of_readNumber? h fun hnames => hfinite ⟨rfl, hnames⟩
      | float => cases h; trivial
      | bool => cases h; trivial
      | null => cases h
      | list => cases h
      | object => cases h
  | integer =>
      cases value with
      | int whole => cases h; exact holds_clampInt64 whole
      | float held => cases h; exact holds_truncate held.toFloat
      | text spelled => exact holds_of_readInteger? h
      | bool flag => cases flag <;> cases h <;> exact ⟨by decide, by decide⟩
      | null => cases h
      | list => cases h
      | object => cases h
  | bool =>
      cases value with
      | text spelled =>
          simp only [read?, toBool?] at h
          exact holds_of_readBool? h
      | int => cases h; trivial
      | float => cases h; trivial
      | bool => cases h; trivial
      | null => cases h; trivial
      | list => cases h
      | object => cases h

theorem convert_eq_ok_iff {kind : FieldType} {field : String} {value held : Value} :
    kind.convert field value = .ok held ↔ kind.read? value = some held := by
  unfold convert
  split <;> simp_all

theorem read?_of_namesNoDouble {value : Value} (h : value.NamesNoDouble) :
    number.read? value = some .null := by
  obtain ⟨held, double, rfl, hblank, hdouble, hfinite⟩ := h
  change readNumber? held = some .null
  rw [readNumber?, hblank, hdouble, if_neg Bool.false_ne_true, Option.map_some,
    Value.ofFloat_of_not_isFinite hfinite]

/-- A word for infinity. -/
theorem namesNoDouble_inf : (Value.text "inf").NamesNoDouble :=
  ⟨"inf", 1.0 / 0.0, rfl, by decide, by rfl, by decide⟩

/-- What is converted to a kind is of that kind, and converting it once more leaves it as it is. The
one exception are texts that spell a number that is not finite: as a number, and as the answer to a
number input, they become null, which is refused as a number. -/
theorem convert_sound (kind : FieldType) (field : String) {value : Value}
    (hvalue : value.FitsWord) :
    (¬ (kind = number ∧ value.NamesNoDouble) → ∀ held, kind.convert field value = .ok held →
      kind.Holds held ∧ kind.convert field held = .ok held) ∧
    (value.NamesNoDouble → number.convert field value = .ok .null ∧ ¬ number.Holds .null ∧
      number.convert field .null = .error (.badField field (.unreadable .null number)) ∧
      ∀ input : UserInput, input.record (UserInput.kindOf .numberInput) value =
        .ok (Dict.single UserInput.valueKey .null)) := by
  refine ⟨fun hfinite held h => ?_, fun hnames => ⟨?_, id, rfl, fun input => ?_⟩⟩
  · have hholds := holds_of_read? hvalue hfinite (convert_eq_ok_iff.mp h)
    exact ⟨hholds, convert_eq_ok_iff.mpr hholds.read?⟩
  · exact convert_eq_ok_iff.mpr (read?_of_namesNoDouble hnames)
  · have hnull : number.convert input.name value = .ok .null :=
      convert_eq_ok_iff.mpr (read?_of_namesNoDouble hnames)
    change (number.convert input.name value).map _ = _
    rw [hnull]
    rfl

/-- The greatest integer, and a word for infinity. -/
theorem convert_sound_of_extremes :
    (Value.int 18446744073709551615).FitsWord ∧ (Value.text "inf").FitsWord ∧
      (Value.text "inf").NamesNoDouble ∧
      integer.convert "limit" (.int 18446744073709551615) = .ok (.int Value.maxInt64) ∧
      integer.Holds (.int Value.maxInt64) ∧
      integer.convert "limit" (.int Value.maxInt64) = .ok (.int Value.maxInt64) ∧
      number.convert "limit" (.text "inf") = .ok .null := by
  have hread : Decimal.readStrict? "18446744073709551615".toList =
      some (.int 18446744073709551615) := rfl
  have hvalue := Decimal.fitsWord_of_readStrict? hread
  have hlimit : integer.convert "limit" (.int 18446744073709551615) =
      .ok (.int Value.maxInt64) := by cbv
  obtain ⟨hholds, hagain⟩ := (convert_sound integer "limit" hvalue).1
    (fun h => FieldType.noConfusion h.1) _ hlimit
  have hnull := ((@convert_sound number "limit" (.text "inf") trivial).2
    namesNoDouble_inf).1
  exact ⟨hvalue, trivial, namesNoDouble_inf, hlimit, hholds, hagain, hnull⟩

/-- As a number the text `inf` is converted, but not to a number. -/
theorem convert_unsound : ¬ ∀ (kind : FieldType) (field : String) (value held : Value),
    kind.convert field value = .ok held →
      kind.Holds held ∧ kind.convert field held = .ok held := by
  intro hsound
  have hnull : number.convert "limit" (.text "inf") = .ok .null :=
    convert_eq_ok_iff.mpr (read?_of_namesNoDouble namesNoDouble_inf)
  exact (hsound number "limit" (.text "inf") .null hnull).1

end FieldType

end Pipework

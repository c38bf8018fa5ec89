import Mathlib
import Pipework.Decimal.Reading

/-! # Spellings of whole numbers

A whole number is spelled by a row of digits that a sign may stand in front of. The readers accept
these spellings and no others; a spelling may have zeros in front and any length.
-/

namespace Pipework.Decimal

theorem isDigit_eq (c : Char) : isDigit c = c.isDigit := by
  have hzero : ('0' ≤ c) ↔ 48 ≤ c.toNat := Iff.rfl
  have hnine : (c ≤ '9') ↔ c.toNat ≤ 57 := Iff.rfl
  rw [Bool.eq_iff_iff, isDigit, Bool.and_eq_true, decide_eq_true_iff, decide_eq_true_iff, hzero,
    hnine, Char.isDigit_iff_toNat]
  rfl

theorem natOfDigits_eq (digits : List Char) :
    natOfDigits digits = Nat.ofDigitChars 10 digits 0 := rfl

/-- At least one digit, and nothing else. -/
def IsRow (digits : List Char) : Prop :=
  digits ≠ [] ∧ ∀ c ∈ digits, c.isDigit = true

theorem isRow_toDigits (number : Nat) : IsRow (Nat.toDigits 10 number) :=
  ⟨Nat.toDigits_ne_nil, fun _ => Nat.isDigit_of_mem_toDigits (by decide) (by decide)⟩

/-- A row of digits begins with no sign. -/
theorem IsRow.exists_cons {digits : List Char} (h : IsRow digits) :
    ∃ head rest, digits = head :: rest ∧ head ≠ '-' ∧ head ≠ '+' := by
  obtain ⟨hne, hdigits⟩ := h
  obtain ⟨head, rest, rfl⟩ := List.exists_cons_of_ne_nil hne
  have hhead := hdigits head List.mem_cons_self
  refine ⟨head, rest, rfl, ?_, ?_⟩ <;> (rintro rfl; exact absurd hhead (by decide))

/-- The whole number that a text spells in decimal digits, with or without a sign. -/
inductive Spells : List Char → Int → Prop where
  | plain {digits : List Char} (hrow : IsRow digits) : Spells digits (Nat.ofDigitChars 10 digits 0)
  | plus {digits : List Char} (hrow : IsRow digits) :
      Spells ('+' :: digits) (Nat.ofDigitChars 10 digits 0)
  | minus {digits : List Char} (hrow : IsRow digits) :
      Spells ('-' :: digits) (-Nat.ofDigitChars 10 digits 0)

theorem Spells.ne_nil {text : List Char} {number : Int} (h : Spells text number) : text ≠ [] := by
  cases h with
  | plain hrow => exact hrow.1
  | plus => exact List.cons_ne_nil _ _
  | minus => exact List.cons_ne_nil _ _

theorem IsRow.code {digits : List Char} (h : IsRow digits) {c : Char} (hc : c ∈ digits) :
    48 ≤ c.toNat ∧ c.toNat ≤ 57 :=
  Char.isDigit_iff_toNat.mp (h.2 c hc)

theorem IsRow.all_isDigit {digits : List Char} (h : IsRow digits) :
    ∀ c ∈ digits, isDigit c = true := fun c hc => (isDigit_eq c).trans (h.2 c hc)

/-- Digits stand for a number with no more places than there are digits. -/
theorem ofDigitChars_lt {digits : List Char} (h : ∀ c ∈ digits, c.isDigit = true) :
    Nat.ofDigitChars 10 digits 0 < 10 ^ digits.length := by
  induction digits with
  | nil => decide
  | cons c rest ih =>
      have hrest := ih fun other hother => h other (List.mem_cons_of_mem c hother)
      have hdigit : c.toNat ≤ 57 := (Char.isDigit_iff_toNat.mp (h c List.mem_cons_self)).2
      have hvalue : c.toNat - '0'.toNat < 10 := by
        change c.toNat - 48 < 10
        omega
      rw [Nat.ofDigitChars_cons, Nat.ofDigitChars_eq_ofDigitChars_zero, List.length_cons]
      calc 10 ^ rest.length * (10 * 0 + (c.toNat - '0'.toNat)) + Nat.ofDigitChars 10 rest 0
          < 10 ^ rest.length * (10 * 0 + (c.toNat - '0'.toNat) + 1) := by
            rw [Nat.mul_add _ _ 1, Nat.mul_one]
            exact Nat.add_lt_add_left hrest _
        _ ≤ 10 ^ rest.length * 10 := Nat.mul_le_mul_left _ (by omega)
        _ = 10 ^ (rest.length + 1) := (Nat.pow_succ ..).symm

/-- The signs stand closely before the digits among the characters. -/
theorem Spells.code {text : List Char} {number : Int} (h : Spells text number) {c : Char}
    (hc : c ∈ text) : 43 ≤ c.toNat ∧ c.toNat ≤ 57 := by
  cases h with
  | plain hrow =>
      have hdigit := hrow.code hc
      omega
  | plus hrow =>
      rcases List.mem_cons.mp hc with rfl | hmem
      · decide
      · have hdigit := hrow.code hmem
        omega
  | minus hrow =>
      rcases List.mem_cons.mp hc with rfl | hmem
      · decide
      · have hdigit := hrow.code hmem
        omega

theorem readNat?_eq_some_iff {text : List Char} {number : Nat} :
    readNat? text = some number ↔ IsRow text ∧ Nat.ofDigitChars 10 text 0 = number := by
  simp only [readNat?, IsRow, List.all_eq_true, isDigit_eq, natOfDigits_eq,
    Option.ite_none_right_eq_some, Option.some.injEq]

theorem exists_row_of_cast {text : List Char} {number : Int}
    (h : (readNat? text >>= fun magnitude => pure (magnitude : Int)) = some number) :
    IsRow text ∧ (Nat.ofDigitChars 10 text 0 : Int) = number := by
  obtain ⟨magnitude, hread, hcast⟩ := Option.bind_eq_some_iff.mp h
  obtain ⟨hrow, rfl⟩ := readNat?_eq_some_iff.mp hread
  exact ⟨hrow, Option.some.inj hcast⟩

theorem readInt?_eq_some_iff {text : List Char} {number : Int} :
    readInt? text = some number ↔ Spells text number := by
  constructor
  · intro h
    unfold readInt? at h
    split at h <;> obtain ⟨whole, hwhole, rfl⟩ := Option.map_eq_some_iff.mp h <;>
      obtain ⟨hrow, rfl⟩ := exists_row_of_cast hwhole
    · exact .minus hrow
    · exact .plus hrow
    · exact .plain hrow
  · rintro (hrow | hrow | hrow)
    · obtain ⟨head, rest, rfl, hminus, hplus⟩ := hrow.exists_cons
      rw [readInt?.eq_3 _ (by simpa using hminus) (by simpa using hplus),
        readNat?_eq_some_iff.mpr ⟨hrow, rfl⟩]
      rfl
    · rw [readInt?, readNat?_eq_some_iff.mpr ⟨hrow, rfl⟩]
      rfl
    · rw [readInt?, readNat?_eq_some_iff.mpr ⟨hrow, rfl⟩]
      rfl

theorem readInt64?_eq_some_iff {text : List Char} {number : Int} :
    readInt64? text = some number ↔
      Spells text number ∧ Value.minInt64 ≤ number ∧ number ≤ Value.maxInt64 := by
  rw [readInt64?, Option.filter_eq_some_iff, readInt?_eq_some_iff, decide_eq_true_iff]

theorem readInt64?_of_spells {text : List Char} {number : Int} (h : Spells text number) :
    readInt64? text =
      if Value.minInt64 ≤ number ∧ number ≤ Value.maxInt64 then some number else none := by
  rw [readInt64?, readInt?_eq_some_iff.mpr h, Option.filter_some]
  simp only [decide_eq_true_iff]

/-- The plain spelling of a number: a minus if it is negative, and no zeros in front. -/
theorem spells_toString (number : Int) : Spells (toString number).toList number := by
  cases number with
  | ofNat magnitude =>
      have htext : (toString (Int.ofNat magnitude)).toList = Nat.toDigits 10 magnitude :=
        Nat.toList_repr
      have hspells := Spells.plain (isRow_toDigits magnitude)
      rwa [Nat.ofDigitChars_ten_toDigits, ← htext] at hspells
  | negSucc magnitude =>
      have htext : (toString (Int.negSucc magnitude)).toList =
          '-' :: Nat.toDigits 10 (magnitude + 1) := by
        change ("-" ++ (magnitude + 1).repr).toList = _
        rw [String.toList_append, Nat.toList_repr]
        rfl
      have hspells := Spells.minus (isRow_toDigits (magnitude + 1))
      rwa [Nat.ofDigitChars_ten_toDigits, ← htext] at hspells

end Pipework.Decimal

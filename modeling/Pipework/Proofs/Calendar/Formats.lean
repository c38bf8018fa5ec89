import Mathlib
import Pipework.Calendar.Format
import Pipework.Proofs.Calendar.Days
import Pipework.Proofs.Decimal.Spelling
import Pipework.Proofs.Text.LowerCase

/-! # Reading by a format

What a format reads from the start of a text, field by field, and which of the formats a text is
read through: the first one that reads it, if the text is not relative to the present day.
-/

namespace Pipework

namespace Text

theorem cutOnce?_append {mark : Char} {first : List Char} (h : mark ∉ first) (rest : List Char) :
    cutOnce? mark (first ++ mark :: rest) = some (first, rest) := by
  have hfirst : ∀ c ∈ first, (c != mark) = true := fun c hc =>
    bne_iff_ne.mpr fun heq => h (heq ▸ hc)
  have hdrop : (mark :: rest).dropWhile (fun c => c != mark) = mark :: rest :=
    List.dropWhile_cons_of_neg (by simp)
  have htake : (mark :: rest).takeWhile (fun c => c != mark) = [] :=
    List.takeWhile_cons_of_neg (by simp)
  rw [cutOnce?, List.dropWhile_append_of_pos hfirst, List.takeWhile_append_of_pos hfirst, hdrop,
    htake, List.append_nil]

end Text

namespace Calendar

open Decimal

/-! ## The formats -/

/-- Month, day and a year in full between dashes. -/
def dashedYear : List Item := threeFields .month .day .year '-'

/-- Month, day and a short year between slashes. -/
def slashedShort : List Item := threeFields .month .day .shortYear '/'

/-- Month, day and a year in full between slashes. -/
def slashedYear : List Item := threeFields .month .day .year '/'

/-- Month, day and a short year between dashes. -/
def dashedShort : List Item := threeFields .month .day .shortYear '-'

/-- A day and a time from the year down. -/
def stamp : List Item :=
  threeFields .year .month .day '-' ++ [.literal 't'] ++ threeFields .hour .minute .second ':'
    ++ [.literal 'z']

theorem formats_eq :
    formats = [dashedYear, slashedShort, slashedYear, dashedShort, stamp] := rfl

/-- A text as it is read: without blanks at its ends, in lower case. -/
def plain (text : String) : String := Text.toLower (Text.trim text)

/-- The text is not relative, the format gives the moment, and no earlier format reads the text. -/
structure ReadThrough (format : List Item) (text : String) (now moment : DateTime) : Prop where
  absolute : relativeTo? (plain text) now = none
  foremost : ∃ earlier later, formats = earlier ++ format :: later ∧
    ∀ other ∈ earlier, readFormat? other (plain text).toList = none
  reading : readFormat? format (plain text).toList = some moment

/-- A text that is not relative is accepted through one of the formats, and only so. -/
theorem parseDate_eq_ok_iff {text : String} {now moment : DateTime}
    (habsolute : relativeTo? (plain text) now = none) :
    parseDate text now = .ok moment ↔ ∃ format, ReadThrough format text now moment := by
  have hparse : parseDate text now = .ok moment ↔ fixed? (plain text).toList = some moment := by
    unfold plain at habsolute
    simp only [parseDate, habsolute, plain]
    split <;> simp_all
  rw [hparse, fixed?, List.findSome?_eq_some_iff]
  constructor
  · rintro ⟨earlier, format, later, hformats, hreading, hearlier⟩
    exact ⟨format, habsolute, ⟨earlier, later, hformats, hearlier⟩, hreading⟩
  · rintro ⟨format, -, ⟨earlier, later, hformats, hearlier⟩, hreading⟩
    exact ⟨earlier, format, later, hformats, hreading, hearlier⟩

/-- What a text is read as through a format is the date of the text. -/
theorem ReadThrough.parseDate {format : List Item} {text : String} {now moment : DateTime}
    (h : ReadThrough format text now moment) : parseDate text now = .ok moment :=
  (parseDate_eq_ok_iff h.absolute).mpr ⟨format, h⟩

/-- The words for days have no punctuation, and a count has a space behind it. -/
theorem relativeTo?_eq_none {text : String} {mark : Char} (hmark : mark ∈ text.toList)
    (hletter : mark.isAlpha = false) (hspace : ' ' ∉ text.toList) (now : DateTime) :
    relativeTo? text now = none := by
  have hword : ∀ word : String, (∀ c ∈ word.toList, c.isAlpha = true) → text ≠ word := by
    rintro word hletters rfl
    exact Bool.false_ne_true (hletter.symm.trans (hletters mark hmark))
  have huncut : Text.cutOnce? ' ' text.toList = none := by
    have hdrop : text.toList.dropWhile (fun c => c != ' ') = [] :=
      List.dropWhile_eq_nil_iff.mpr fun c hc => bne_iff_ne.mpr fun heq => hspace (heq ▸ hc)
    rw [Text.cutOnce?, hdrop]
  rw [relativeTo?, if_neg (hword "today" (by simp)), if_neg (hword "tomorrow" (by simp)),
    if_neg (hword "yesterday" (by simp)), if_neg (hword "now" (by simp)), huncut]
  rfl

/-- A text with a space in it that is not relative begins with a count of 64 bits. -/
theorem exists_count_of_relativeTo? {text : String} {now : DateTime}
    (h : relativeTo? text now = none) (hspace : ' ' ∈ text.toList) :
    ∃ count unit number, text.toList = count ++ ' ' :: unit ∧ Spells count number := by
  obtain ⟨count, unit, htext, hfree⟩ := List.eq_append_cons_of_mem hspace
  have hcut : Text.cutOnce? ' ' text.toList = some (count, unit) := by
    rw [htext, Text.cutOnce?_append hfree]
  cases hread : readInt64? count with
  | none =>
      simp only [relativeTo?, hcut, Option.bind_some, hread] at h
      split_ifs at h
  | some number => exact ⟨count, unit, number, htext, (readInt64?_eq_some_iff.mp hread).1⟩

/-! ## Numbers -/

/-- A row of digits is read to its end if it is as wide as the field, or no digit follows it. -/
theorem readDigits?_append {width : Nat} {digits rest : List Char} (hrow : IsRow digits)
    (hwidth : digits.length ≤ width)
    (hrest : digits.length = width ∨ ∀ c ∈ rest.head?, c.isDigit = false) :
    readDigits? width (digits ++ rest) = some (Nat.ofDigitChars 10 digits 0, rest) := by
  have htaken : ((digits ++ rest).takeWhile isDigit).take width = digits := by
    rw [List.takeWhile_append_of_pos hrow.all_isDigit]
    rcases hrest with rfl | hstop
    · exact List.take_left
    · cases rest with
      | nil => rw [List.takeWhile_nil, List.append_nil, List.take_of_length_le hwidth]
      | cons c rest =>
          have hnot : ¬ isDigit c = true := by
            rw [isDigit_eq, hstop c rfl]
            exact Bool.false_ne_true
          rw [List.takeWhile_cons_of_neg hnot, List.append_nil, List.take_of_length_le hwidth]
  rw [readDigits?]
  simp only [htaken, if_neg hrow.1, natOfDigits_eq, List.drop_left]

theorem readDigits?_of_not_digit {width : Nat} {c : Char} {rest : List Char}
    (h : c.isDigit = false) : readDigits? width (c :: rest) = none := by
  have hnot : ¬ isDigit c = true := by
    rw [isDigit_eq, h]
    exact Bool.false_ne_true
  rw [readDigits?]
  simp only [List.takeWhile_cons_of_neg hnot, List.take_nil, if_true]

theorem trimStart_row {digits : List Char} (hrow : IsRow digits) (rest : List Char) :
    Text.trimStart (digits ++ rest) = digits ++ rest := by
  refine Text.trimStart_eq_self fun c hc => ?_
  rw [List.head?_append_of_ne_nil _ hrow.1] at hc
  have hcode := hrow.code (List.mem_of_mem_head? hc)
  exact Text.isBlank_of_visible (by omega) (by omega)

/-- A field of two digits. -/
theorem readNumber?_row {field : Field} (hfield : field ≠ .year) {digits rest : List Char}
    (hrow : IsRow digits) (hwidth : digits.length = 2) :
    readNumber? field (digits ++ rest) =
      some (((Nat.ofDigitChars 10 digits 0 : Nat) : Int), rest) := by
  simp only [readNumber?, trimStart_row hrow, if_neg hfield,
    readDigits?_append hrow hwidth.le (.inl hwidth), Option.map_some]

/-- A year without a sign takes up to four digits. -/
theorem readYear?_unsigned {text : List Char} (hminus : text.head? ≠ some '-')
    (hplus : text.head? ≠ some '+') :
    readYear? text = (readDigits? 4 text).map fun read => ((read.1 : Int), read.2) :=
  readYear?.eq_3 text (fun _ heq => hminus (heq ▸ rfl)) fun _ heq => hplus (heq ▸ rfl)

/-! ## What is taken from a text -/

/-- What a field of digits takes. -/
theorem exists_row_of_readDigits? {width number : Nat} {text rest : List Char}
    (h : readDigits? width text = some (number, rest)) :
    ∃ digits, IsRow digits ∧ digits.length ≤ width ∧ text = digits ++ rest ∧
      Nat.ofDigitChars 10 digits 0 = number := by
  rw [readDigits?] at h
  split at h
  · cases h
  next hne =>
    obtain ⟨hnumber, hrest⟩ := Prod.mk.inj (Option.some.inj h)
    refine ⟨_, ⟨hne, fun c hc => ?_⟩, List.length_take_le _ _, ?_, hnumber⟩
    · rw [← isDigit_eq]
      exact List.mem_takeWhile_imp (List.mem_of_mem_take hc)
    · have hprefix : (text.takeWhile isDigit).take width <+: text :=
        (List.take_prefix _ _).trans (List.takeWhile_prefix _)
      rw [← hrest]
      exact (List.prefix_iff_eq_append.mp hprefix).symm

/-- What a field takes that is no year: blanks, and one or two digits. -/
theorem exists_row_of_readNumber? {field : Field} (hfield : field ≠ .year) {number : Int}
    {text rest : List Char} (h : readNumber? field text = some (number, rest)) :
    ∃ blanks digits, (∀ c ∈ blanks, Text.isBlank c = true) ∧ IsRow digits ∧ digits.length ≤ 2 ∧
      text = blanks ++ (digits ++ rest) ∧ (Nat.ofDigitChars 10 digits 0 : Int) = number := by
  simp only [readNumber?, if_neg hfield] at h
  obtain ⟨⟨read, left⟩, hread, heq⟩ := Option.map_eq_some_iff.mp h
  obtain ⟨rfl, rfl⟩ := Prod.mk.inj heq
  obtain ⟨digits, hrow, hwidth, htext, rfl⟩ := exists_row_of_readDigits? hread
  refine ⟨text.takeWhile Text.isBlank, digits, fun c hc => List.mem_takeWhile_imp hc, hrow, hwidth,
    ?_, rfl⟩
  rw [← htext]
  exact List.takeWhile_append_dropWhile.symm

/-- What a year takes: blanks, and a spelled number. -/
theorem exists_spells_of_readNumber? {number : Int} {text rest : List Char}
    (h : readNumber? .year text = some (number, rest)) :
    ∃ blanks body, (∀ c ∈ blanks, Text.isBlank c = true) ∧ Spells body number ∧
      text = blanks ++ (body ++ rest) := by
  simp only [readNumber?, if_true] at h
  suffices hbody : ∃ body, Spells body number ∧ Text.trimStart text = body ++ rest by
    obtain ⟨body, hspells, hbody⟩ := hbody
    refine ⟨text.takeWhile Text.isBlank, body, fun c hc => List.mem_takeWhile_imp hc, hspells, ?_⟩
    rw [← hbody]
    exact List.takeWhile_append_dropWhile.symm
  unfold readYear? at h
  split at h <;> obtain ⟨⟨read, left⟩, hread, heq⟩ := Option.map_eq_some_iff.mp h <;>
    obtain ⟨rfl, rfl⟩ := Prod.mk.inj heq <;>
    obtain ⟨digits, hrow, -, htext, rfl⟩ := exists_row_of_readDigits? hread
  next hsign => exact ⟨_, .minus hrow, by rw [hsign, htext]; rfl⟩
  next hsign => exact ⟨_, .plus hrow, by rw [hsign, htext]; rfl⟩
  next => exact ⟨_, .plain hrow, htext⟩

/-! ## Moments -/

theorem toDateTime?_eq_some_iff {reading : Reading} {moment : DateTime} :
    reading.toDateTime? = some moment ↔
      moment.date.year = reading.year ∧ moment.date.month = reading.month ∧
        moment.date.day = reading.day ∧ moment.hour = reading.hour ∧
        moment.minute = reading.minute ∧ moment.second = reading.second := by
  constructor
  · intro h
    obtain ⟨date, hdate, htime⟩ := Option.bind_eq_some_iff.mp h
    obtain ⟨hyear, hmonth, hday⟩ := Date.ofParts?_eq_some_iff.mp hdate
    unfold DateTime.ofParts? at htime
    split at htime <;> cases htime
    exact ⟨hyear, hmonth, hday, rfl, rfl, rfl⟩
  · rintro ⟨hyear, hmonth, hday, hhour, hminute, hsecond⟩
    refine Option.bind_eq_some_iff.mpr
      ⟨moment.date, Date.ofParts?_eq_some_iff.mpr ⟨hyear, hmonth, hday⟩, ?_⟩
    rw [← hhour, ← hminute, ← hsecond]
    exact dif_pos ⟨moment.hour_lt, moment.minute_lt, moment.second_le⟩

/-! ## Items -/

section Items

variable {reading out : Reading} {items : List Item} {text : List Char}

theorem readItems?_cons_number (field : Field) :
    readItems? reading (.number field :: items) text =
      (readNumber? field text).bind fun read => readItems? (reading.set field read.1) items read.2 := by
  rw [readItems?]
  cases readNumber? field text <;> rfl

theorem readItems?_cons_literal (c head : Char) (rest : List Char) :
    readItems? reading (.literal c :: items) (head :: rest) =
      if c = head then readItems? reading items rest else none := rfl

theorem readItems?_number {field : Field} {rest : List Char} {number : Int}
    (h : readNumber? field text = some (number, rest)) :
    readItems? reading (.number field :: items) text =
      readItems? (reading.set field number) items rest := by
  rw [readItems?_cons_number, h, Option.bind_some]

theorem readItems?_number_none {field : Field} (h : readNumber? field text = none) :
    readItems? reading (.number field :: items) text = none := by
  rw [readItems?_cons_number, h, Option.bind_none]

theorem readItems?_literal (c : Char) (rest : List Char) :
    readItems? reading (.literal c :: items) (c :: rest) = readItems? reading items rest := by
  rw [readItems?_cons_literal, if_pos rfl]

theorem readItems?_literal_ne {c head : Char} (h : c ≠ head) (rest : List Char) :
    readItems? reading (.literal c :: items) (head :: rest) = none := by
  rw [readItems?_cons_literal, if_neg h]

theorem readItems?_number_eq_some {field : Field}
    (h : readItems? reading (.number field :: items) text = some out) :
    ∃ number rest, readNumber? field text = some (number, rest) ∧
      readItems? (reading.set field number) items rest = some out := by
  rw [readItems?_cons_number] at h
  obtain ⟨⟨number, rest⟩, hread, hrest⟩ := Option.bind_eq_some_iff.mp h
  exact ⟨number, rest, hread, hrest⟩

theorem readItems?_literal_eq_some {c : Char}
    (h : readItems? reading (.literal c :: items) text = some out) :
    ∃ rest, text = c :: rest ∧ readItems? reading items rest = some out := by
  cases text with
  | nil => cases h
  | cons head rest =>
      rw [readItems?_cons_literal] at h
      obtain ⟨rfl, hrest⟩ := Option.ite_none_right_eq_some.mp h
      exact ⟨rest, rfl, hrest⟩

theorem readItems?_nil_eq_some (h : readItems? reading [] text = some out) :
    text = [] ∧ reading = out := by
  cases text with
  | nil => exact ⟨rfl, Option.some.inj h⟩
  | cons head rest => cases h

/-- Three numbers with a character between them, read to the end of a text. -/
theorem readItems?_threeFields {first middle last : Field} {mark : Char} :
    readItems? reading (threeFields first middle last mark) text = some out ↔
      ∃ one two three afterOne afterTwo,
        readNumber? first text = some (one, mark :: afterOne) ∧
        readNumber? middle afterOne = some (two, mark :: afterTwo) ∧
        readNumber? last afterTwo = some (three, []) ∧
        ((reading.set first one).set middle two).set last three = out := by
  constructor
  · intro h
    obtain ⟨one, _, hone, hfirst⟩ := readItems?_number_eq_some h
    obtain ⟨afterOne, rfl, hmiddle⟩ := readItems?_literal_eq_some hfirst
    obtain ⟨two, _, htwo, hsecond⟩ := readItems?_number_eq_some hmiddle
    obtain ⟨afterTwo, rfl, hlast⟩ := readItems?_literal_eq_some hsecond
    obtain ⟨three, _, hthree, hend⟩ := readItems?_number_eq_some hlast
    obtain ⟨rfl, hout⟩ := readItems?_nil_eq_some hend
    exact ⟨one, two, three, afterOne, afterTwo, hone, htwo, hthree, hout⟩
  · rintro ⟨one, two, three, afterOne, afterTwo, hone, htwo, hthree, rfl⟩
    rw [threeFields, readItems?_number hone, readItems?_literal, readItems?_number htwo,
      readItems?_literal, readItems?_number hthree]
    rfl

end Items

end Calendar

end Pipework

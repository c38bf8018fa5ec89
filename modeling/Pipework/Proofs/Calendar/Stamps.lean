import Mathlib
import Pipework.Proofs.Calendar.Days
import Pipework.Proofs.Calendar.Formats

/-! # Written moments

The text of a moment, with the mark of its zone behind it, is read as the moment again, whatever
the present is. It begins with a year in at least four digits or with a sign, so no format that
begins with a month reads it.
-/

namespace Pipework

namespace Calendar

open Decimal

/-! ## Written numbers -/

theorem isRow_padded (width number : Nat) : IsRow (padded width number) := by
  obtain ⟨hne, hdigits⟩ := isRow_toDigits number
  refine ⟨List.append_ne_nil_of_right_ne_nil _ hne, fun c hc => ?_⟩
  rcases List.mem_append.mp hc with hzero | hdigit
  · rw [List.eq_of_mem_replicate hzero]
    rfl
  · exact hdigits c hdigit

theorem ofDigitChars_padded (width number : Nat) :
    Nat.ofDigitChars 10 (padded width number) 0 = number := by
  rw [padded, Nat.ofDigitChars_append, Nat.ofDigitChars_replicate_zero, Nat.mul_zero,
    Nat.ofDigitChars_ten_toDigits]

theorem length_padded {width number : Nat} (hwidth : 0 < width) (h : number < 10 ^ width) :
    (padded width number).length = width := by
  have hlength := (Nat.length_toDigits_le_iff (by decide) hwidth).mpr h
  rw [padded, List.length_append, List.length_replicate]
  omega

/-- A number of two digits is read as it was written. -/
theorem readNumber?_padded {field : Field} (hfield : field ≠ .year) {number : Nat}
    (h : number < 100) (rest : List Char) :
    readNumber? field (padded 2 number ++ rest) = some ((number : Int), rest) := by
  rw [readNumber?_row hfield (isRow_padded 2 number) (length_padded (by decide) h),
    ofDigitChars_padded]

theorem trimStart_sign {sign : Char} (h : sign = '-' ∨ sign = '+') (rest : List Char) :
    Text.trimStart (sign :: rest) = sign :: rest := by
  refine Text.trimStart_eq_self fun c hc => ?_
  obtain rfl := Option.some.inj hc
  rcases h with rfl | rfl <;> decide

/-- A year is read as it was written, if no digit follows. -/
theorem readNumber?_yearText (year : Int) {mark : Char} (hmark : mark.isDigit = false)
    (rest : List Char) :
    readNumber? .year (yearText year ++ mark :: rest) = some (year, mark :: rest) := by
  have hrow := isRow_padded 4 year.natAbs
  have hstop : ∀ c ∈ (mark :: rest).head?, c.isDigit = false := fun c hc =>
    Option.some.inj hc ▸ hmark
  have hread : ∀ width, (padded 4 year.natAbs).length ≤ width →
      readDigits? width (padded 4 year.natAbs ++ mark :: rest) =
        some (year.natAbs, mark :: rest) := fun width hwidth => by
    rw [readDigits?_append hrow hwidth (.inr hstop), ofDigitChars_padded]
  have hlong : (padded 4 year.natAbs).length ≤ (padded 4 year.natAbs ++ mark :: rest).length := by
    rw [List.length_append]
    exact Nat.le_add_right _ _
  unfold yearText
  split
  next hneg =>
    simp only [readNumber?, List.cons_append, trimStart_sign (.inl rfl), if_true, readYear?,
      hread _ hlong, Option.map_some]
    rw [show -(year.natAbs : Int) = year by omega]
  split
  next hlate =>
    simp only [readNumber?, List.cons_append, trimStart_sign (.inr rfl), if_true, readYear?,
      hread _ hlong, Option.map_some]
    rw [show (year.natAbs : Int) = year by omega]
  next hneg hlate =>
    have hlength : (padded 4 year.natAbs).length = 4 := length_padded (by decide) (by omega)
    obtain ⟨head, tail, hcons, hminus, hplus⟩ := hrow.exists_cons
    simp only [readNumber?, trimStart_row hrow, if_true]
    rw [readYear?_unsigned (by simpa [hcons] using hminus) (by simpa [hcons] using hplus),
      hread 4 hlength.le, Option.map_some, show (year.natAbs : Int) = year by omega]

/-- A year is no month: its third character is no separator. -/
theorem readItems?_yearText (reading : Reading) (items : List Item) (year : Int) {mark : Char}
    (hmark : mark.isDigit = false) (rest : List Char) :
    readItems? reading (.number .month :: .literal mark :: items) (yearText year ++ rest) = none := by
  have hsign : ∀ sign : Char, sign = '-' ∨ sign = '+' → ∀ rest,
      readNumber? .month (sign :: rest) = none := by
    intro sign hsign rest
    simp only [readNumber?, trimStart_sign hsign]
    rw [if_neg (by decide), readDigits?_of_not_digit (by rcases hsign with rfl | rfl <;> rfl),
      Option.map_none]
  unfold yearText
  split
  · exact readItems?_number_none (hsign '-' (.inl rfl) _)
  split
  · exact readItems?_number_none (hsign '+' (.inr rfl) _)
  next hneg hlate =>
    -- A month takes the first two of the four digits, and a digit stands where the mark should.
    have hlength : (padded 4 year.natAbs).length = 4 := length_padded (by decide) (by omega)
    obtain ⟨-, hdigits⟩ := isRow_padded 4 year.natAbs
    generalize padded 4 year.natAbs = digits at hlength hdigits
    obtain ⟨first, second, third, fourth, rfl⟩ := List.length_eq_four.mp hlength
    have hrow : IsRow [first, second] :=
      ⟨List.cons_ne_nil _ _, fun c hc => hdigits c (List.mem_append_left [third, fourth] hc)⟩
    have hthird : third.isDigit = true := hdigits third (by simp)
    have hmonth : readNumber? .month ([first, second] ++ third :: fourth :: rest) = _ :=
      readNumber?_row (by decide) hrow rfl
    refine (readItems?_number hmonth).trans (readItems?_literal_ne ?_ _)
    rintro rfl
    exact Bool.false_ne_true (hmark.symm.trans hthird)

/-! ## The text of a moment -/

/-- The text of a moment, with a mark between the day and the time and one behind the time. -/
def stampText (between behind : Char) (moment : DateTime) : List Char :=
  yearText moment.date.year ++ '-' :: (padded 2 moment.date.month ++ '-' ::
    (padded 2 moment.date.day ++ between :: (padded 2 moment.hour ++ ':' ::
      (padded 2 moment.minute ++ ':' :: (padded 2 moment.second ++ [behind])))))

theorem toList_isoText (moment : DateTime) :
    (moment.isoText ++ "Z").toList = stampText 'T' 'Z' moment := by
  simp [DateTime.isoText, stampText]

theorem code_yearText {year : Int} {c : Char} (hc : c ∈ yearText year) :
    43 ≤ c.toNat ∧ c.toNat ≤ 57 := by
  have hdigit : c ∈ padded 4 year.natAbs → 43 ≤ c.toNat ∧ c.toNat ≤ 57 := fun hmem => by
    have hcode := (isRow_padded _ _).code hmem
    omega
  unfold yearText at hc
  split at hc
  · rcases List.mem_cons.mp hc with rfl | hmem
    · decide
    · exact hdigit hmem
  split at hc
  · rcases List.mem_cons.mp hc with rfl | hmem
    · decide
    · exact hdigit hmem
  · exact hdigit hc

theorem code_stampText {between behind : Char} {moment : DateTime} {c : Char}
    (hc : c ∈ stampText between behind moment) :
    (43 ≤ c.toNat ∧ c.toNat ≤ 58) ∨ c = between ∨ c = behind := by
  have hnumber : ∀ {width number : Nat}, c ∈ padded width number → 43 ≤ c.toNat ∧ c.toNat ≤ 58 :=
    fun hmem => by
      have hcode := (isRow_padded _ _).code hmem
      omega
  simp only [stampText, List.mem_append, List.mem_cons, List.not_mem_nil, or_false] at hc
  rcases hc with hyear | rfl | hmonth | rfl | hday | rfl | hhour | rfl | hminute | rfl | hsecond | rfl
  · have hcode := code_yearText hyear
    omega
  · exact .inl (by decide)
  · exact .inl (hnumber hmonth)
  · exact .inl (by decide)
  · exact .inl (hnumber hday)
  · exact .inr (.inl rfl)
  · exact .inl (hnumber hhour)
  · exact .inl (by decide)
  · exact .inl (hnumber hminute)
  · exact .inl (by decide)
  · exact .inl (hnumber hsecond)
  · exact .inr (.inr rfl)

theorem map_toLower_padded (width number : Nat) :
    (padded width number).map Char.toLower = padded width number :=
  (List.map_congr_left fun _ hc => Text.toLower_eq_self (by have := (isRow_padded _ _).code hc; omega)).trans
    (List.map_id _)

theorem map_toLower_yearText (year : Int) : (yearText year).map Char.toLower = yearText year :=
  (List.map_congr_left fun _ hc => Text.toLower_eq_self (by have := code_yearText hc; omega)).trans
    (List.map_id _)

/-- Only the marks of the time and the zone have a case. -/
theorem toList_plain_isoText (moment : DateTime) :
    (plain (moment.isoText ++ "Z")).toList = stampText 't' 'z' moment := by
  have hcode : ∀ c ∈ (moment.isoText ++ "Z").toList, 43 ≤ c.toNat ∧ c.toNat ≤ 90 := by
    intro c hc
    rw [toList_isoText] at hc
    rcases code_stampText hc with hcode | rfl | rfl
    · omega
    · decide
    · decide
  have hvisible : ∀ c ∈ (moment.isoText ++ "Z").toList, Text.isBlank c = false := fun c hc =>
    Text.isBlank_of_visible (by have := hcode c hc; omega) (by have := hcode c hc; omega)
  have htrimmed : Text.IsTrimmed (moment.isoText ++ "Z").toList :=
    ⟨fun c hc => hvisible c (List.mem_of_mem_head? hc),
      fun c hc => hvisible c (List.mem_of_getLast? hc)⟩
  rw [plain, Text.trim_eq_self htrimmed,
    Text.toLower_ascii fun c hc => by have := hcode c hc; omega, String.toList_ofList,
    toList_isoText]
  simp only [stampText, List.map_append, List.map_cons, List.map_nil, map_toLower_padded,
    map_toLower_yearText]
  rfl

/-- The numbers of a moment, as they are read. -/
def readingOf (moment : DateTime) : Reading :=
  { year := moment.date.year, month := moment.date.month, day := moment.date.day,
    hour := moment.hour, minute := moment.minute, second := moment.second }

theorem readItems?_stampText (moment : DateTime) :
    readItems? {} stamp (stampText 't' 'z' moment) = some (readingOf moment) := by
  obtain ⟨-, hmonth⟩ := moment.date.month_bounds
  have hday := moment.date.day_le
  have hhour := moment.hour_lt
  have hminute := moment.minute_lt
  have hsecond := moment.second_le
  simp only [stamp, threeFields, stampText, List.cons_append, List.nil_append]
  rw [readItems?_number (readNumber?_yearText _ (by decide) _), readItems?_literal,
    readItems?_number (readNumber?_padded (by decide) (by omega) _), readItems?_literal,
    readItems?_number (readNumber?_padded (by decide) (by omega) _), readItems?_literal,
    readItems?_number (readNumber?_padded (by decide) (by omega) _), readItems?_literal,
    readItems?_number (readNumber?_padded (by decide) (by omega) _), readItems?_literal,
    readItems?_number (readNumber?_padded (by decide) (by omega) _), readItems?_literal]
  rfl

/-- No format but the last one reads a text that begins with a year. -/
theorem readFormat?_stampText (moment : DateTime) :
    ∀ format ∈ [dashedYear, slashedShort, slashedYear, dashedShort],
      readFormat? format (stampText 't' 'z' moment) = none := by
  have hnone : ∀ (last : Field) (mark : Char), mark.isDigit = false →
      readFormat? (threeFields .month .day last mark) (stampText 't' 'z' moment) = none := by
    intro last mark hmark
    rw [readFormat?, threeFields, stampText, readItems?_yearText _ _ _ hmark]
    rfl
  simp only [List.forall_mem_cons, dashedYear, slashedShort, slashedYear, dashedShort]
  exact ⟨hnone _ _ (by decide), hnone _ _ (by decide), hnone _ _ (by decide),
    hnone _ _ (by decide), by simp⟩

/-- A written moment is read through the last format. -/
theorem readThrough_stamp (moment now : DateTime) :
    ReadThrough stamp (moment.isoText ++ "Z") now moment where
  absolute := by
    have hdash : '-' ∈ (plain (moment.isoText ++ "Z")).toList := by
      rw [toList_plain_isoText, stampText]
      exact List.mem_append_right _ List.mem_cons_self
    refine relativeTo?_eq_none hdash (by decide) (fun hspace => ?_) now
    rw [toList_plain_isoText] at hspace
    exact absurd (code_stampText hspace) (by decide)
  foremost :=
    ⟨_, [], formats_eq, by rw [toList_plain_isoText]; exact readFormat?_stampText moment⟩
  reading := by
    rw [toList_plain_isoText, readFormat?, readItems?_stampText]
    exact toDateTime?_eq_some_iff.mpr ⟨rfl, rfl, rfl, rfl, rfl, rfl⟩

/-- The text under `iso` in the value of a moment, with the mark of its zone behind it, is read as
the moment again, at any time: neither is it relative to the present nor does another format
read it. -/
theorem written_moments_read_back (moment now : DateTime) :
    ∃ iso, moment.toValue.field? "iso" = some (.text iso) ∧
      ReadThrough stamp (iso ++ "Z") now moment ∧ parseDate (iso ++ "Z") now = .ok moment := by
  have hiso : moment.toValue.field? "iso" = some (.text moment.isoText) := by
    simp only [DateTime.toValue, Value.field?, Value.asObject?, Option.bind_some, Dict.ofList,
      List.foldl_cons, List.foldl_nil]
    exact Dict.get?_insert_self _ _ _
  have hread := readThrough_stamp moment now
  exact ⟨moment.isoText, hiso, hread, hread.parseDate⟩

end Calendar

end Pipework

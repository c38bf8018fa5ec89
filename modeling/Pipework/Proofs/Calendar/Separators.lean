import Mathlib
import Pipework.Proofs.Calendar.Days
import Pipework.Proofs.Calendar.Formats

/-! # Slashes and dashes

A date between slashes with a year in full means the same with dashes. With a short year it does
not: the format with dashes and a year in full stands before the one with a short year, reads every
text that the latter reads, and takes the short year for a year of the first century. So no text is
ever read through the format with dashes and a short year.
-/

namespace Pipework.Calendar

open Decimal

/-- The text with dashes in the place of its slashes. -/
def dashed (text : String) : String :=
  String.ofList (Text.exchange '/' '-' text.toList)

theorem toList_plain (text : String) :
    (plain text).toList = Text.LetterCase.lowerFrom [] (Text.trimChars text.toList) := by
  simp only [plain, Text.toLower, Text.trim, String.toList_ofList]

theorem toList_plain_dashed (text : String) :
    (plain (dashed text)).toList = Text.exchange '/' '-' (plain text).toList := by
  rw [toList_plain, toList_plain, dashed, String.toList_ofList,
    Text.trimChars_exchange Text.isMark_slash Text.isMark_dash,
    ← Text.lowerFrom_exchange Text.isMark_slash Text.isMark_dash]
  rfl

/-! ## Fields of an exchanged text -/

theorem isDigit_exchange (c : Char) : isDigit (if c = '/' then '-' else c) = isDigit c := by
  split
  next heq =>
    rw [heq]
    rfl
  · rfl

theorem slash_not_mem_row {digits : List Char} (hrow : IsRow digits) : '/' ∉ digits := fun hmem =>
  absurd (hrow.code hmem).1 (by decide)

theorem slash_not_mem_spells {body : List Char} {number : Int} (h : Spells body number) :
    '/' ∉ body := by
  cases h with
  | plain hrow => exact slash_not_mem_row hrow
  | plus hrow => simpa using slash_not_mem_row hrow
  | minus hrow => simpa using slash_not_mem_row hrow

theorem readDigits?_exchange (width : Nat) (text : List Char) :
    readDigits? width (Text.exchange '/' '-' text) =
      (readDigits? width text).map fun read => (read.1, Text.exchange '/' '-' read.2) := by
  have hdigits : (Text.exchange '/' '-' text).takeWhile isDigit = text.takeWhile isDigit := by
    rw [Text.exchange, List.takeWhile_map, ← Text.exchange, Text.exchange_eq_self]
    · exact congrArg (List.takeWhile · text) (funext isDigit_exchange)
    · intro hmem
      exact absurd (List.mem_takeWhile_imp hmem) (by decide)
  simp only [readDigits?, hdigits]
  split
  · rfl
  · rw [Option.map_some, Text.exchange, ← List.map_drop]
    rfl

theorem readNumber?_exchange {field : Field} (hfield : field ≠ .year) (text : List Char) :
    readNumber? field (Text.exchange '/' '-' text) =
      (readNumber? field text).map fun read => (read.1, Text.exchange '/' '-' read.2) := by
  simp only [readNumber?, if_neg hfield, readDigits?_exchange,
    Text.trimStart_exchange Text.isMark_slash Text.isMark_dash, Option.map_map]
  rfl

/-- What a last field is read from has no slash. -/
theorem slash_not_mem_last {field : Field} {number : Int} {text : List Char}
    (h : readNumber? field text = some (number, [])) : '/' ∉ text := by
  have hblank : ∀ {blanks : List Char}, (∀ c ∈ blanks, Text.isBlank c = true) → '/' ∉ blanks :=
    fun hblanks hmem => absurd (hblanks _ hmem) (by decide)
  by_cases hfield : field = .year
  · subst hfield
    obtain ⟨blanks, body, hblanks, hspells, rfl⟩ := exists_spells_of_readNumber? h
    simp [hblank hblanks, slash_not_mem_spells hspells]
  · obtain ⟨blanks, digits, hblanks, hrow, -, rfl, -⟩ := exists_row_of_readNumber? hfield h
    simp [hblank hblanks, slash_not_mem_row hrow]

/-- A short year at the end of a text can be read as a year in full. -/
theorem readNumber?_year_of_short {number : Int} {text : List Char}
    (h : readNumber? .shortYear text = some (number, [])) :
    readNumber? .year text = some (number, []) ∧ 0 ≤ number ∧ number < 100 := by
  obtain ⟨blanks, digits, hblanks, hrow, hwidth, rfl, rfl⟩ :=
    exists_row_of_readNumber? (by decide) h
  obtain ⟨head, tail, hcons, hminus, hplus⟩ := hrow.exists_cons
  have htrim : Text.trimStart (blanks ++ (digits ++ [])) = digits ++ [] := by
    rw [Text.trimStart, List.dropWhile_append_of_pos hblanks]
    exact trimStart_row hrow []
  refine ⟨?_, Int.natCast_nonneg _, ?_⟩
  · simp only [readNumber?, if_true, htrim]
    rw [readYear?_unsigned (by simpa [hcons] using hminus) (by simpa [hcons] using hplus),
      readDigits?_append hrow (by omega) (.inr (by simp)), Option.map_some]
  · have hlt : Nat.ofDigitChars 10 digits 0 < 10 ^ 2 :=
      (ofDigitChars_lt hrow.2).trans_le (Nat.pow_le_pow_right (by decide) hwidth)
    omega

/-! ## Dates between marks -/

/-- A month, a day and a last number between marks. -/
theorem readFormat?_eq_some_iff {last : Field} {mark : Char} {text : List Char}
    {moment : DateTime} : readFormat? (threeFields .month .day last mark) text = some moment ↔
      ∃ one two three afterOne afterTwo,
        readNumber? .month text = some (one, mark :: afterOne) ∧
        readNumber? .day afterOne = some (two, mark :: afterTwo) ∧
        readNumber? last afterTwo = some (three, []) ∧
        (({ month := one.toNat, day := two.toNat } : Reading).set last three).toDateTime? =
          some moment := by
  constructor
  · intro h
    obtain ⟨out, hout, hmoment⟩ := Option.bind_eq_some_iff.mp h
    obtain ⟨one, two, three, afterOne, afterTwo, hone, htwo, hthree, rfl⟩ :=
      readItems?_threeFields.mp hout
    exact ⟨one, two, three, afterOne, afterTwo, hone, htwo, hthree, hmoment⟩
  · rintro ⟨one, two, three, afterOne, afterTwo, hone, htwo, hthree, hmoment⟩
    rw [readFormat?, readItems?_threeFields.mpr
      ⟨one, two, three, afterOne, afterTwo, hone, htwo, hthree, rfl⟩]
    exact hmoment

/-- With dashes in the place of its slashes a date is read the same, by the format with dashes. -/
theorem readFormat?_exchange {last : Field} {text : List Char} {moment : DateTime}
    (h : readFormat? (threeFields .month .day last '/') text = some moment) :
    readFormat? (threeFields .month .day last '-') (Text.exchange '/' '-' text) = some moment := by
  obtain ⟨one, two, three, afterOne, afterTwo, hone, htwo, hthree, hmoment⟩ :=
    readFormat?_eq_some_iff.mp h
  have honeDash : readNumber? .month (Text.exchange '/' '-' text) =
      some (one, '-' :: Text.exchange '/' '-' afterOne) := by
    rw [readNumber?_exchange (by decide), hone, Option.map_some, Text.exchange_cons_self]
  have htwoDash : readNumber? .day (Text.exchange '/' '-' afterOne) =
      some (two, '-' :: afterTwo) := by
    rw [readNumber?_exchange (by decide), htwo, Option.map_some, Text.exchange_cons_self,
      Text.exchange_eq_self (slash_not_mem_last hthree)]
  exact readFormat?_eq_some_iff.mpr
    ⟨one, two, three, _, afterTwo, honeDash, htwoDash, hthree, hmoment⟩

/-- The short years are leap years exactly if the full years are. -/
theorem isLeap_fullYear : ∀ short < 100, isLeap (Reading.fullYear short) = isLeap short := by
  decide

theorem fullYear_ne (short : Nat) : (short : Int) ≠ Reading.fullYear short := by
  unfold Reading.fullYear
  split <;> omega

/-- A date as it is read with a short year, and as it is read with the same digits as the year. -/
structure Misread (moment : DateTime) (early : Date) : Prop where
  start : moment = .midnight moment.date
  year : ∃ short < 100, moment.date.year = Reading.fullYear short ∧
    moment.date.SameDayIn short early

theorem Misread.ne {moment : DateTime} {early : Date} (h : Misread moment early) :
    DateTime.midnight early ≠ moment := by
  obtain ⟨short, -, hyear, hearly, -⟩ := h.year
  rintro rfl
  exact fullYear_ne short (hearly.symm.trans hyear)

/-- Whatever is read with a short year is read with a year in full too. -/
theorem exists_misread {mark : Char} {text : List Char} {moment : DateTime}
    (h : readFormat? (threeFields .month .day .shortYear mark) text = some moment) :
    ∃ early, Misread moment early ∧
      readFormat? (threeFields .month .day .year mark) text = some (.midnight early) := by
  obtain ⟨one, two, three, afterOne, afterTwo, hone, htwo, hthree, hmoment⟩ :=
    readFormat?_eq_some_iff.mp h
  obtain ⟨hyear, hnonneg, hlt⟩ := readNumber?_year_of_short hthree
  obtain ⟨short, rfl⟩ := Int.eq_ofNat_of_zero_le hnonneg
  have hshort : short < 100 := by omega
  obtain ⟨hfull, hmonth, hday, hhour, hminute, hsecond⟩ := toDateTime?_eq_some_iff.mp hmoment
  change moment.date.year = Reading.fullYear short at hfull
  have hleap : moment.date.IsLeapDay → isLeap short = true := by
    rw [← isLeap_fullYear short hshort, ← hfull]
    exact ((moment.date.isDate_inYear_iff _).mp moment.date.valid).2
  obtain ⟨early, hearly⟩ := Date.exists_sameDayIn_iff.mpr
    ⟨⟨(by decide : firstYear ≤ 0).trans hnonneg, hlt.le.trans (by decide)⟩, hleap⟩
  refine ⟨early, ⟨?_, short, hshort, hfull, hearly⟩, readFormat?_eq_some_iff.mpr
    ⟨one, two, short, afterOne, afterTwo, hone, htwo, hyear, toDateTime?_eq_some_iff.mpr ?_⟩⟩
  · obtain ⟨date, hour, minute, second, _, _, _⟩ := moment
    subst hhour hminute hsecond
    rfl
  · exact ⟨hearly.1, hearly.2.1.trans hmonth, hearly.2.2.trans hday, rfl, rfl, rfl⟩

/-! ## Dashed texts -/

/-- A text that begins with digits and a slash has no space in it, unless it is relative. -/
theorem space_not_mem_of_absolute {text : String} {now : DateTime} {blanks digits rest : List Char}
    (h : relativeTo? text now = none) (hblanks : ∀ c ∈ blanks, Text.isBlank c = true)
    (hrow : IsRow digits) (htext : text.toList = blanks ++ (digits ++ '/' :: rest)) :
    ' ' ∉ text.toList := by
  intro hspace
  -- What stands before the space is a count, so the slash cannot; but it stands after digits only.
  obtain ⟨count, unit, number, hcut, hcount⟩ := exists_count_of_relativeTo? h hspace
  obtain ⟨head, tail, rfl⟩ := List.exists_cons_of_ne_nil hcount.ne_nil
  have hempty : blanks = [] := by
    cases blanks with
    | nil => rfl
    | cons blank others =>
        have hhead : head = blank := by
          rw [hcut] at htext
          exact (List.cons.inj htext).1
        have hcode := hcount.code List.mem_cons_self
        have hvisible := Text.isBlank_of_visible (c := head) (by omega) (by omega)
        exact absurd (hblanks blank List.mem_cons_self) (by rw [← hhead, hvisible]; decide)
  rw [hempty, List.nil_append, hcut] at htext
  rcases List.append_eq_append_iff.mp htext with ⟨more, hdigits, hmore⟩ | ⟨more, hhead, hmore⟩
  · cases more with
    | nil => cases hmore
    | cons c others =>
        obtain ⟨rfl, -⟩ := List.cons.inj hmore
        exact absurd (hrow.2 ' ' (by simp [hdigits])) (by decide)
  · cases more with
    | nil => cases hmore
    | cons c others =>
        obtain ⟨rfl, -⟩ := List.cons.inj hmore
        exact slash_not_mem_spells hcount (by simp [hhead])

/-- A date that is read between slashes is read between dashes, before any other format is
tried. -/
theorem parseDate_dashed {last : Field} {text : String} {now moment early : DateTime}
    (habsolute : relativeTo? (plain text) now = none)
    (hslashed : readFormat? (threeFields .month .day last '/') (plain text).toList = some moment)
    (hdashed : readFormat? dashedYear (plain (dashed text)).toList = some early) :
    parseDate (dashed text) now = .ok early := by
  obtain ⟨_, _, _, rest, _, hmonth, -⟩ := readFormat?_eq_some_iff.mp hslashed
  obtain ⟨blanks, digits, hblanks, hrow, -, htext, -⟩ :=
    exists_row_of_readNumber? (by decide) hmonth
  have hspace := space_not_mem_of_absolute habsolute hblanks hrow htext
  have hslash : '/' ∈ (plain text).toList := by
    rw [htext]
    simp
  suffices hread : ReadThrough dashedYear (dashed text) now early from hread.parseDate
  refine ⟨?_, ⟨[], _, formats_eq, by simp⟩, hdashed⟩
  have hdash : '-' ∈ (plain (dashed text)).toList := by
    rw [toList_plain_dashed]
    exact List.mem_map.mpr ⟨'/', hslash, if_pos rfl⟩
  refine relativeTo?_eq_none hdash (by decide) (fun hmem => hspace ?_) now
  rw [toList_plain_dashed] at hmem
  obtain ⟨c, hc, heq⟩ := List.mem_map.mp hmem
  split at heq
  · cases heq
  · exact heq ▸ hc

theorem parseDate_dashed_of_full {text : String} {now moment : DateTime}
    (h : ReadThrough slashedYear text now moment) : parseDate (dashed text) now = .ok moment := by
  refine parseDate_dashed h.absolute h.reading ?_
  rw [toList_plain_dashed]
  exact readFormat?_exchange h.reading

theorem parseDate_dashed_of_short {text : String} {now moment : DateTime}
    (h : ReadThrough slashedShort text now moment) :
    ∃ early, Misread moment early ∧ parseDate (dashed text) now = .ok (.midnight early) := by
  obtain ⟨early, hearly, hread⟩ := exists_misread (readFormat?_exchange h.reading)
  refine ⟨early, hearly, parseDate_dashed h.absolute h.reading ?_⟩
  rwa [toList_plain_dashed]

/-- The format with dashes and a year in full stands before the one with a short year. -/
theorem not_readThrough_dashedShort {text : String} {now moment : DateTime} :
    ¬ ReadThrough dashedShort text now moment := by
  rintro ⟨-, ⟨earlier, later, hformats, hunread⟩, hread⟩
  obtain ⟨early, -, hfull⟩ := exists_misread hread
  rw [formats_eq] at hformats
  cases earlier with
  | nil => exact absurd (List.cons.inj hformats).1 (by decide)
  | cons other others =>
      obtain ⟨rfl, -⟩ := List.cons.inj hformats
      cases (hunread _ List.mem_cons_self).symm.trans hfull

/-- A date that is read between slashes with a year in full is the same date between dashes. One
that is read between slashes with a short year is read between dashes too, but always as another
date: the same day of the year whose full number the short one is. No text is read through the
format with dashes and a short year. -/
theorem dashed_dates (text : String) (now moment : DateTime) :
    (ReadThrough slashedYear text now moment → parseDate (dashed text) now = .ok moment) ∧
    (ReadThrough slashedShort text now moment → ∃ early, Misread moment early ∧
      DateTime.midnight early ≠ moment ∧ parseDate (dashed text) now = .ok (.midnight early)) ∧
    ¬ ReadThrough dashedShort text now moment := by
  refine ⟨parseDate_dashed_of_full, fun h => ?_, not_readThrough_dashedShort⟩
  obtain ⟨early, hearly, hparse⟩ := parseDate_dashed_of_short h
  exact ⟨early, hearly, hearly.ne, hparse⟩

/-- The second of December 2014. -/
def winterDay : DateTime := .midnight { year := 2014, month := 12, day := 2 }

theorem readThrough_slashedShort_winterDay (now : DateTime) :
    ReadThrough slashedShort "12/02/14" now winterDay where
  absolute := relativeTo?_eq_none (by decide : '/' ∈ _) (by decide) (by decide) now
  foremost := ⟨[dashedYear], _, formats_eq, by decide⟩
  reading := rfl

/-- Written with the year in full, the day is read between dashes as the same; written with a short
year, it is read as a day of the year fourteen. -/
theorem dashed_dates_of_winterDay :
    (ReadThrough slashedYear "12/02/2014" winterDay winterDay ∧
      parseDate (dashed "12/02/2014") winterDay = .ok winterDay) ∧
    (ReadThrough slashedShort "12/02/14" winterDay winterDay ∧
      ∃ early, Misread winterDay early ∧ DateTime.midnight early ≠ winterDay ∧
        parseDate (dashed "12/02/14") winterDay = .ok (.midnight early)) := by
  have hfull : ReadThrough slashedYear "12/02/2014" winterDay winterDay :=
    { absolute := relativeTo?_eq_none (by decide : '/' ∈ _) (by decide) (by decide) winterDay
      foremost := ⟨[dashedYear, slashedShort], _, formats_eq, by decide⟩
      reading := rfl }
  have hshort := readThrough_slashedShort_winterDay winterDay
  exact ⟨⟨hfull, (dashed_dates _ _ _).1 hfull⟩, hshort, (dashed_dates _ _ _).2.1 hshort⟩

/-- With dashes the date is another one. -/
theorem dashed_short_year_differs : ¬ ∀ (text : String) (now moment : DateTime),
    ReadThrough slashedShort text now moment → parseDate (dashed text) now = .ok moment := by
  intro hclaim
  have hshort := readThrough_slashedShort_winterDay winterDay
  obtain ⟨early, hearly, hparse⟩ := parseDate_dashed_of_short hshort
  rw [hclaim _ _ _ hshort] at hparse
  exact hearly.ne (Except.ok.inj hparse).symm

end Pipework.Calendar

import Mathlib
import Pipework.Proofs.Calendar.Days
import Pipework.Proofs.Calendar.Formats

/-! # Counts of days and years

A count of days leads to the start of the day that lies so many days away, and there is an answer
for every count that stays within the calendar. A count of years leads to the same day of another
year. The leap day is the exception: years that are no leap years do not have it, and the count is
refused although the year is within the calendar.
-/

namespace Pipework

namespace Calendar

open Decimal

/-- The words of the units. -/
def unitWords : List String := ["day", "days", "year", "years"]

theorem parseDate_of_relativeTo? {text : String} {now : DateTime}
    {answer : Except ModuleFault DateTime}
    (h : relativeTo? (Text.toLower (Text.trim text)) now = some answer) :
    parseDate text now = answer := by
  simp only [parseDate, h]

section Counted

variable {count unit : String} {number : Int}

theorem space_not_mem (hcount : Spells count.toList number) : ' ' ∉ count.toList := fun hmem =>
  absurd (hcount.code hmem).1 (by decide)

theorem toList_counted (count unit : String) :
    (count ++ " " ++ unit).toList = count.toList ++ ' ' :: unit.toList := by
  simp

/-- A count and the word of a unit are read as they stand. -/
theorem toLower_trim_counted (hcount : Spells count.toList number) (hunit : unit ∈ unitWords) :
    Text.toLower (Text.trim (count ++ " " ++ unit)) = count ++ " " ++ unit := by
  have hletters : ∀ word ∈ unitWords, ∀ c ∈ word.toList, c.toNat < 128 ∧ c.toLower = c := by
    simp [unitWords]
  have hlast : ∀ word ∈ unitWords, Text.isBlank (word.toList.getLast?.getD ' ') = false := by
    decide
  have htrimmed : Text.IsTrimmed (count ++ " " ++ unit).toList := by
    rw [toList_counted]
    constructor
    · intro c hc
      rw [List.head?_append_of_ne_nil _ hcount.ne_nil] at hc
      have hcode := hcount.code (List.mem_of_mem_head? hc)
      exact Text.isBlank_of_visible (by omega) (by omega)
    · intro c hc
      rw [List.getLast?_append, List.getLast?_cons, Option.some_or] at hc
      exact Option.some.inj hc ▸ hlast unit hunit
  have hascii : ∀ c ∈ (count ++ " " ++ unit).toList, c.toNat < 128 ∧ c.toLower = c := by
    intro c hc
    rw [toList_counted, List.mem_append, List.mem_cons] at hc
    rcases hc with hmem | rfl | hmem
    · have hcode := hcount.code hmem
      exact ⟨by omega, Text.toLower_eq_self (by omega)⟩
    · decide
    · exact hletters unit hunit c hmem
  rw [Text.trim_eq_self htrimmed, Text.toLower_ascii fun c hc => (hascii c hc).1,
    List.map_congr_left fun c hc => (hascii c hc).2, List.map_id', String.ofList_toList]

theorem relativeTo?_counted (hcount : Spells count.toList number)
    (hfits : Value.minInt64 ≤ number ∧ number ≤ Value.maxInt64) (now : DateTime) :
    relativeTo? (count ++ " " ++ unit) now =
      if unit = "day" ∨ unit = "days" then
        some (daysFrom now.date number (count ++ " " ++ unit))
      else if unit = "year" ∨ unit = "years" then
        some (yearsFrom now.date number (count ++ " " ++ unit))
      else none := by
  have hword : ∀ word : String, ' ' ∉ word.toList → count ++ " " ++ unit ≠ word := by
    rintro word hspace rfl
    exact hspace (by simp)
  have hread := readInt64?_eq_some_iff.mpr ⟨hcount, hfits⟩
  rw [relativeTo?, if_neg (hword "today" (by decide)), if_neg (hword "tomorrow" (by decide)),
    if_neg (hword "yesterday" (by decide)), if_neg (hword "now" (by decide)), toList_counted,
    Text.cutOnce?_append (space_not_mem hcount)]
  simp only [Option.bind_some, hread, String.toList_inj]

theorem parseDate_days (hcount : Spells count.toList number)
    (hfits : Value.minInt64 ≤ number ∧ number ≤ Value.maxInt64) (hunit : unit ∈ ["day", "days"])
    (now : DateTime) :
    parseDate (count ++ " " ++ unit) now = daysFrom now.date number (count ++ " " ++ unit) := by
  have hword : unit ∈ unitWords := List.mem_append_left ["year", "years"] hunit
  refine parseDate_of_relativeTo? ?_
  rw [toLower_trim_counted hcount hword, relativeTo?_counted hcount hfits,
    if_pos (by simpa using hunit)]

theorem parseDate_years (hcount : Spells count.toList number)
    (hfits : Value.minInt64 ≤ number ∧ number ≤ Value.maxInt64) (hunit : unit ∈ ["year", "years"])
    (now : DateTime) :
    parseDate (count ++ " " ++ unit) now = yearsFrom now.date number (count ++ " " ++ unit) := by
  have hword : unit ∈ unitWords := List.mem_append_right ["day", "days"] hunit
  have hyear : unit = "year" ∨ unit = "years" := by simpa using hunit
  have hday : ¬ (unit = "day" ∨ unit = "days") := by
    rcases hyear with rfl | rfl <;> decide
  refine parseDate_of_relativeTo? ?_
  rw [toLower_trim_counted hcount hword, relativeTo?_counted hcount hfits, if_neg hday,
    if_pos hyear]

end Counted

/-- An answer that refuses a text because its date is out of range. -/
def OutOfRange (text : String) (answer : Except ModuleFault DateTime) : Prop :=
  ∃ fault, answer = .error fault ∧ fault.message = "Date out of range: " ++ text

/-- A text leads to the start of the day that is meant, and is refused if there is no such day. -/
structure Leads (text : String) (now : DateTime) (Meant : Date → Prop) : Prop where
  reached : ∀ target, Meant target → parseDate text now = .ok (.midnight target)
  refused : OutOfRange text (parseDate text now) ↔ ¬ ∃ target, Meant target

/-- An answer that is found by a search for the day. -/
theorem leads_of_found {text : String} {now : DateTime} {Meant : Date → Prop}
    {found : Option Date}
    (hanswer : parseDate text now =
      match found with
      | some date => .ok (.midnight date)
      | none => .error (.dateOutOfRange text))
    (hfound : ∀ target, found = some target ↔ Meant target) : Leads text now Meant := by
  constructor
  · intro target htarget
    rw [hanswer, (hfound target).mpr htarget]
  · rw [hanswer]
    cases found with
    | none =>
        refine ⟨fun _ ⟨target, htarget⟩ => ?_, fun _ => ⟨_, rfl, rfl⟩⟩
        cases (hfound target).mpr htarget
    | some date =>
        refine ⟨fun ⟨fault, hfault, _⟩ => ?_, fun hnone => ?_⟩
        · cases hfault
        · exact absurd ⟨date, (hfound date).mp rfl⟩ hnone

open Date in
/-- A count of days, as far as 64 bits go, leads to the start of the day that many days away; it is
refused exactly if that day is not in the calendar. A count of years leads to the start of the same
day in the year that many years away; it is refused exactly if the year is not in the calendar, or
today is a leap day and the year is no leap year. The plain spelling of a number is such a count. -/
theorem relative_counts {count : String} {number : Int} (hcount : Spells count.toList number)
    (hfits : Value.minInt64 ≤ number ∧ number ≤ Value.maxInt64) (now : DateTime) :
    (∀ unit ∈ ["day", "days"],
      Leads (count ++ " " ++ unit) now (now.date.Shifted number)) ∧
    (∀ unit ∈ ["year", "years"],
      Leads (count ++ " " ++ unit) now (now.date.SameDayIn (now.date.year + number))) ∧
    ((∃ target, now.date.Shifted number target) ↔
      first.dayNumber ≤ now.date.dayNumber + number ∧
        now.date.dayNumber + number ≤ last.dayNumber) ∧
    ((∃ target, now.date.SameDayIn (now.date.year + number) target) ↔
      (firstYear ≤ now.date.year + number ∧ now.date.year + number ≤ lastYear) ∧
        (now.date.IsLeapDay → isLeap (now.date.year + number) = true)) ∧
    Spells (toString number).toList number := by
  refine ⟨fun unit hunit => ?_, fun unit hunit => ?_, exists_shifted_iff, exists_sameDayIn_iff,
    spells_toString number⟩
  · exact leads_of_found (parseDate_days hcount hfits hunit now) fun _ => addDays?_eq_some_iff
  · exact leads_of_found (parseDate_years hcount hfits hunit now) fun _ => inYear?_eq_some_iff

/-- The last second of a leap day. -/
def leapNight : DateTime :=
  { date := { year := 2016, month := 2, day := 29 }, hour := 23, minute := 59, second := 59 }

/-- On the leap day the next day is reached, and the next year is refused. -/
theorem relative_counts_of_leapNight :
    Spells "1".toList 1 ∧ (Value.minInt64 ≤ 1 ∧ 1 ≤ Value.maxInt64) ∧
      parseDate "1 day" leapNight = .ok (.midnight { year := 2016, month := 3, day := 1 }) ∧
      OutOfRange "1 year" (parseDate "1 year" leapNight) := by
  have hcount : Spells "1".toList 1 := spells_toString 1
  have hfits : Value.minInt64 ≤ 1 ∧ 1 ≤ Value.maxInt64 := by decide
  obtain ⟨hdays, hyears, -, hsame, -⟩ := relative_counts hcount hfits leapNight
  refine ⟨hcount, hfits, (hdays "day" (by decide)).reached _ (Date.shifted_iff.mpr (by decide)), ?_⟩
  refine (hyears "year" (by decide)).refused.mpr fun hexists => ?_
  exact absurd ((hsame.mp hexists).2 ⟨rfl, rfl⟩) (by decide)

/-- A count of years is refused on a leap day although the year is in the calendar. -/
theorem leapDay_refused : ¬ ∀ (now : DateTime) (number : Int),
    Value.minInt64 ≤ number ∧ number ≤ Value.maxInt64 →
    (OutOfRange (toString number ++ " year") (parseDate (toString number ++ " year") now) ↔
      ¬ (firstYear ≤ now.date.year + number ∧ now.date.year + number ≤ lastYear)) := by
  intro hclaim
  have hanswer : parseDate "1 year" leapNight = .error (.dateOutOfRange "1 year") :=
    parseDate_years (spells_toString 1) (by decide)
      (by decide : "year" ∈ ["year", "years"]) leapNight
  exact (hclaim leapNight 1 (by decide)).mp ⟨_, hanswer, rfl⟩ (by decide)

end Calendar

end Pipework

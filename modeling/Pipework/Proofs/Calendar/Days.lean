import Mathlib
import Pipework.Calendar.Date

/-! # The numbers of the days

A day and its number determine each other, the numbers of the days have no gap, and the number goes
up by one from each day to the next. So counting days forward or back along the calendar is adding
to their numbers.
-/

namespace Pipework

open Calendar

namespace Calendar

theorem isLeap_iff (year : Int) :
    isLeap year = true ↔ year % 4 = 0 ∧ (year % 100 ≠ 0 ∨ year % 400 = 0) := by
  simp [isLeap]

theorem sum_monthLengths (year : Int) :
    (monthLengths year).sum = if isLeap year then 366 else 365 := by
  unfold monthLengths
  split <;> rfl

/-- A month of the year by its place, counted from zero, and a day that it has. -/
theorem isDate_iff {year : Int} {month day : Nat} : IsDate year month day ↔
    (firstYear ≤ year ∧ year ≤ lastYear) ∧
      ∃ (index : Nat) (hindex : index < (monthLengths year).length),
        month = index + 1 ∧ 1 ≤ day ∧ day ≤ (monthLengths year)[index] := by
  constructor
  · rintro ⟨hfirst, hlast, hpos, hday⟩
    refine ⟨⟨hfirst, hlast⟩, ?_⟩
    unfold daysInMonth at hday
    split at hday
    · omega
    next hmonth =>
      by_cases hindex : month - 1 < (monthLengths year).length
      · rw [List.getD_eq_getElem _ _ hindex] at hday
        exact ⟨month - 1, hindex, by omega, hpos, hday⟩
      · rw [List.getD_eq_default _ _ (by omega)] at hday
        omega
  · rintro ⟨⟨hfirst, hlast⟩, index, hindex, rfl, hpos, hday⟩
    refine ⟨hfirst, hlast, hpos, ?_⟩
    simp only [daysInMonth, Nat.add_sub_cancel, Nat.add_one_ne_zero, ↓reduceIte]
    rwa [List.getD_eq_getElem _ _ hindex]

end Calendar

namespace Date

theorem ofParts?_eq_some_iff {year : Int} {month day : Nat} {date : Date} :
    ofParts? year month day = some date ↔
      date.year = year ∧ date.month = month ∧ date.day = day := by
  unfold ofParts?
  constructor
  · intro h
    split at h <;> cases h
    exact ⟨rfl, rfl, rfl⟩
  · obtain ⟨_, _, _, hvalid⟩ := date
    rintro ⟨rfl, rfl, rfl⟩
    rw [dif_pos hvalid]

/-! ## Years -/

theorem daysBeforeYear_succ (year : Int) :
    daysBeforeYear (year + 1) = daysBeforeYear year + (monthLengths year).sum := by
  rw [sum_monthLengths]
  simp only [daysBeforeYear, Int.add_sub_cancel]
  split
  next hleap =>
    rw [isLeap_iff] at hleap
    omega
  next hleap =>
    rw [isLeap_iff] at hleap
    omega

theorem daysBeforeYear_mono {first second : Int} (h : first ≤ second) :
    daysBeforeYear first ≤ daysBeforeYear second := by
  simp only [daysBeforeYear]
  omega

/-- Four hundred years have 146097 days. The start of a year is less than two days away from where
years of equal length would put it. -/
theorem daysBeforeYear_mean (year : Int) :
    146097 * (year - 1) - 800 < 400 * daysBeforeYear year ∧
      400 * daysBeforeYear year < 146097 * (year - 1) + 400 := by
  simp only [daysBeforeYear]
  omega

theorem yearOf_spec (number : Int) :
    daysBeforeYear (yearOf number) < number ∧ number ≤ daysBeforeYear (yearOf number + 1) := by
  -- The guess is off by one year at most, since the mean length is off by less than two days.
  have hearly := daysBeforeYear_mean (number * 400 / 146097)
  have hlate := daysBeforeYear_mean (number * 400 / 146097 + 1 + 1 + 1)
  unfold yearOf
  dsimp only
  split
  · rw [Int.add_sub_cancel]
    omega
  · split <;> omega

theorem yearOf_unique {number year : Int} (hlow : daysBeforeYear year < number)
    (hhigh : number ≤ daysBeforeYear (year + 1)) : yearOf number = year := by
  obtain ⟨hafter, hbefore⟩ := yearOf_spec number
  by_contra hne
  rcases lt_or_gt_of_ne hne with hlt | hgt
  · have := daysBeforeYear_mono (show yearOf number + 1 ≤ year from hlt)
    omega
  · have := daysBeforeYear_mono (show year + 1 ≤ yearOf number from hgt)
    omega

/-! ## Months -/

section Months

variable {lengths : List Nat}

theorem sum_take_succ {index : Nat} (hindex : index < lengths.length) :
    (lengths.take (index + 1)).sum = (lengths.take index).sum + lengths[index] := by
  rw [List.take_succ_eq_append_getElem hindex, List.sum_append, List.sum_singleton]

theorem sum_take_add_le {index : Nat} (hindex : index < lengths.length) :
    (lengths.take index).sum + lengths[index] ≤ lengths.sum := by
  have hsplit := congrArg List.sum (List.take_append_drop (index + 1) lengths)
  rw [List.sum_append, sum_take_succ hindex] at hsplit
  omega

theorem monthAndDay_place (month : Nat) {index day : Nat} (hindex : index < lengths.length)
    (hpos : 1 ≤ day) (hday : day ≤ lengths[index]) :
    monthAndDay month ((lengths.take index).sum + day) lengths = (month + index, day) := by
  induction lengths generalizing month index with
  | nil => simp at hindex
  | cons length rest ih =>
      cases index with
      | zero =>
          rw [List.getElem_cons_zero] at hday
          rw [List.take_zero, List.sum_nil, Nat.zero_add, monthAndDay, if_pos hday, Nat.add_zero]
      | succ index =>
          have hrest : length + (rest.take index).sum + day - length =
              (rest.take index).sum + day := by omega
          rw [List.take_succ_cons, List.sum_cons, monthAndDay, if_neg (by omega), hrest,
            ih (month + 1) (Nat.lt_of_succ_lt_succ hindex) hday, Nat.add_assoc, Nat.add_comm 1]

theorem exists_place {place : Nat} (hpos : 1 ≤ place) (hplace : place ≤ lengths.sum) :
    ∃ (index day : Nat) (hindex : index < lengths.length), 1 ≤ day ∧ day ≤ lengths[index] ∧
      place = (lengths.take index).sum + day := by
  induction lengths generalizing place with
  | nil =>
      rw [List.sum_nil] at hplace
      omega
  | cons length rest ih =>
      by_cases hfirst : place ≤ length
      · exact ⟨0, place, Nat.succ_pos _, hpos, hfirst, (Nat.zero_add _).symm⟩
      · rw [List.sum_cons] at hplace
        obtain ⟨index, day, hindex, hday, hle, heq⟩ :=
          ih (show 1 ≤ place - length by omega) (by omega)
        refine ⟨index + 1, day, Nat.succ_lt_succ hindex, hday, hle, ?_⟩
        rw [List.take_succ_cons, List.sum_cons]
        omega

end Months

theorem daysBeforeMonth_eq (year : Int) (month : Nat) :
    daysBeforeMonth year month = ((monthLengths year).take (month - 1)).sum := by
  rw [daysBeforeMonth, List.sum_eq_foldl]
  rfl

/-- A month that is followed by another one, or ends the year. -/
theorem daysBeforeMonth_succ (date : Date) : daysBeforeMonth date.year (date.month + 1) =
    daysBeforeMonth date.year date.month + daysInMonth date.year date.month := by
  obtain ⟨-, index, hindex, hmonth, -, -⟩ := isDate_iff.mp date.valid
  rw [daysBeforeMonth_eq, daysBeforeMonth_eq, hmonth, Nat.add_sub_cancel, Nat.add_sub_cancel,
    sum_take_succ hindex, daysInMonth, if_neg (Nat.succ_ne_zero index), Nat.add_sub_cancel,
    List.getD_eq_getElem _ _ hindex]

theorem month_bounds (date : Date) : 1 ≤ date.month ∧ date.month ≤ 12 := by
  obtain ⟨-, index, hindex, hmonth, -, -⟩ := isDate_iff.mp date.valid
  have hlength : (monthLengths date.year).length = 12 := rfl
  omega

theorem day_le (date : Date) : date.day ≤ 31 := by
  obtain ⟨-, index, hindex, -, -, hday⟩ := isDate_iff.mp date.valid
  have hlong : ∀ length ∈ monthLengths date.year, length ≤ 31 := by
    unfold monthLengths
    split <;> decide
  exact hday.trans (hlong _ (List.getElem_mem hindex))

/-! ## Days and numbers -/

theorem dayNumber_bounds (date : Date) : daysBeforeYear date.year < date.dayNumber ∧
    date.dayNumber ≤ daysBeforeYear (date.year + 1) := by
  obtain ⟨-, index, hindex, hmonth, hpos, hday⟩ := isDate_iff.mp date.valid
  have hsum := sum_take_add_le hindex
  rw [dayNumber, yearday, daysBeforeMonth_eq, daysBeforeYear_succ, hmonth, Nat.add_sub_cancel]
  omega

theorem yearOf_dayNumber (date : Date) : yearOf date.dayNumber = date.year :=
  yearOf_unique date.dayNumber_bounds.1 date.dayNumber_bounds.2

/-- A day is found again by its number. -/
theorem ofDayNumber?_dayNumber (date : Date) : ofDayNumber? date.dayNumber = some date := by
  obtain ⟨-, index, hindex, hmonth, hpos, hday⟩ := isDate_iff.mp date.valid
  have hplace : (date.dayNumber - daysBeforeYear date.year).toNat =
      ((monthLengths date.year).take index).sum + date.day := by
    rw [dayNumber, yearday, daysBeforeMonth_eq, hmonth, Nat.add_sub_cancel]
    omega
  simp only [ofDayNumber?, yearOf_dayNumber, hplace, monthAndDay_place 1 hindex hpos hday]
  rw [Nat.add_comm, ← hmonth, ofParts?, dif_pos date.valid]

/-- Every number whose year is not too far away is the number of a day. -/
theorem exists_ofDayNumber? {number : Int} (hfirst : firstYear ≤ yearOf number)
    (hlast : yearOf number ≤ lastYear) :
    ∃ date, ofDayNumber? number = some date ∧ date.dayNumber = number := by
  -- The number lies in the year `yearOf` gives, so its place there is a place of some month.
  obtain ⟨hlow, hhigh⟩ := yearOf_spec number
  rw [daysBeforeYear_succ] at hhigh
  have hpositive : 1 ≤ (number - daysBeforeYear (yearOf number)).toNat := by omega
  have hplaces : (number - daysBeforeYear (yearOf number)).toNat ≤
      (monthLengths (yearOf number)).sum := by omega
  obtain ⟨index, day, hindex, hpos, hday, hplace⟩ := exists_place hpositive hplaces
  have hdate : IsDate (yearOf number) (1 + index) day :=
    isDate_iff.mpr ⟨⟨hfirst, hlast⟩, index, hindex, Nat.add_comm 1 index, hpos, hday⟩
  refine ⟨⟨yearOf number, 1 + index, day, hdate⟩, ?_, ?_⟩
  · simp only [ofDayNumber?, hplace, monthAndDay_place 1 hindex hpos hday]
    rw [ofParts?, dif_pos hdate]
  · simp only [dayNumber, yearday, daysBeforeMonth_eq, Nat.add_sub_cancel_left]
    omega

theorem ofDayNumber?_eq_some_iff {number : Int} {date : Date} :
    ofDayNumber? number = some date ↔ date.dayNumber = number := by
  constructor
  · intro h
    have hyear : date.year = yearOf number := (ofParts?_eq_some_iff.mp h).1
    have hvalid := date.valid
    rw [hyear] at hvalid
    obtain ⟨found, hfound, hnumber⟩ := exists_ofDayNumber? hvalid.1 hvalid.2.1
    rw [h, Option.some.injEq] at hfound
    exact hfound ▸ hnumber
  · rintro rfl
    exact ofDayNumber?_dayNumber date

theorem dayNumber_injective {first second : Date} (h : first.dayNumber = second.dayNumber) :
    first = second := by
  have hfound := ofDayNumber?_dayNumber first
  rw [h, ofDayNumber?_dayNumber, Option.some.injEq] at hfound
  exact hfound.symm

/-- The first day. -/
def first : Date := { year := firstYear, month := 1, day := 1 }

/-- The last day. -/
def last : Date := { year := lastYear, month := 12, day := 31 }

theorem first_dayNumber : first.dayNumber = daysBeforeYear firstYear + 1 := by decide

theorem last_dayNumber : last.dayNumber = daysBeforeYear (lastYear + 1) := by decide

/-- From the first day to the last one there is no number without a day. -/
theorem exists_dayNumber_iff {number : Int} : (∃ date : Date, date.dayNumber = number) ↔
    first.dayNumber ≤ number ∧ number ≤ last.dayNumber := by
  rw [first_dayNumber, last_dayNumber]
  constructor
  · rintro ⟨date, rfl⟩
    have hbounds := date.dayNumber_bounds
    have hfirst := daysBeforeYear_mono date.valid.1
    have hlast := daysBeforeYear_mono (Int.add_le_add_right date.valid.2.1 1)
    omega
  · rintro ⟨hlow, hhigh⟩
    obtain ⟨hafter, hbefore⟩ := yearOf_spec number
    have hfirst : firstYear ≤ yearOf number := by
      by_contra hlt
      have := daysBeforeYear_mono (show yearOf number + 1 ≤ firstYear by omega)
      omega
    have hlast : yearOf number ≤ lastYear := by
      by_contra hlt
      have := daysBeforeYear_mono (show lastYear + 1 ≤ yearOf number by omega)
      omega
    obtain ⟨date, -, hnumber⟩ := exists_ofDayNumber? hfirst hlast
    exact ⟨date, hnumber⟩

/-! ## From day to day -/

/-- A day is followed by the next one of its month, by the first one of the next month, or by the
first one of the next year. -/
inductive Next (today tomorrow : Date) : Prop where
  | inMonth (hyear : tomorrow.year = today.year) (hmonth : tomorrow.month = today.month)
      (hday : tomorrow.day = today.day + 1)
  | inYear (hend : today.day = daysInMonth today.year today.month)
      (hyear : tomorrow.year = today.year) (hmonth : tomorrow.month = today.month + 1)
      (hday : tomorrow.day = 1)
  | newYear (hdecember : today.month = 12) (hend : today.day = daysInMonth today.year 12)
      (hyear : tomorrow.year = today.year + 1) (hmonth : tomorrow.month = 1)
      (hday : tomorrow.day = 1)

theorem daysBeforeMonth_one (year : Int) : daysBeforeMonth year 1 = 0 := rfl

theorem dayNumber_of_next {today tomorrow : Date} (h : Next today tomorrow) :
    tomorrow.dayNumber = today.dayNumber + 1 := by
  cases h with
  | inMonth hyear hmonth hday =>
      rw [dayNumber, dayNumber, yearday, yearday, hyear, hmonth, hday]
      omega
  | inYear hend hyear hmonth hday =>
      rw [dayNumber, dayNumber, yearday, yearday, hyear, hmonth, hday, daysBeforeMonth_succ, hend]
      omega
  | newYear hdecember hend hyear hmonth hday =>
      have hlength := today.daysBeforeMonth_succ
      rw [hdecember, daysBeforeMonth_eq today.year (12 + 1)] at hlength
      have htake : (monthLengths today.year).take (12 + 1 - 1) = monthLengths today.year := rfl
      rw [dayNumber, dayNumber, yearday, yearday, hyear, hmonth, hday, daysBeforeYear_succ,
        daysBeforeMonth_one, hdecember, hend, ← htake, hlength]
      omega

/-- Every day but the last is followed by one. -/
theorem exists_next {today : Date} (h : today.dayNumber < last.dayNumber) :
    ∃ tomorrow, Next today tomorrow := by
  have hvalid := today.valid
  obtain ⟨hleast, hmost⟩ := today.month_bounds
  by_cases hday : today.day < daysInMonth today.year today.month
  · exact ⟨⟨today.year, today.month, today.day + 1,
      hvalid.1, hvalid.2.1, Nat.succ_pos _, hday⟩, .inMonth rfl rfl rfl⟩
  have hend : today.day = daysInMonth today.year today.month :=
    le_antisymm hvalid.2.2.2 (not_lt.mp hday)
  by_cases hdecember : today.month = 12
  · have hyear : today.year + 1 ≤ lastYear := by
      by_contra hlt
      have hlast : today.year = lastYear := le_antisymm hvalid.2.1 (by omega)
      have htoday : today.dayNumber = last.dayNumber := by
        rw [dayNumber, yearday, hend, hdecember, hlast]
        decide
      omega
    have hfirst := hvalid.1
    exact ⟨⟨today.year + 1, 1, 1, by omega, hyear, le_rfl, by simp [daysInMonth, monthLengths]⟩,
      .newYear hdecember (hdecember ▸ hend) rfl rfl rfl⟩
  · have hlength : today.month < (monthLengths today.year).length := by
      change today.month < 12
      omega
    have hlong : ∀ length ∈ monthLengths today.year, 1 ≤ length := by
      unfold monthLengths
      split <;> decide
    have hdate : IsDate today.year (today.month + 1) 1 :=
      isDate_iff.mpr ⟨⟨hvalid.1, hvalid.2.1⟩, today.month, hlength, rfl, le_rfl,
        hlong _ (List.getElem_mem hlength)⟩
    exact ⟨⟨today.year, today.month + 1, 1, hdate⟩, .inYear hend rfl rfl rfl⟩

/-- Some days later along the calendar. -/
inductive Later : Nat → Date → Date → Prop where
  | here {today : Date} : Later 0 today today
  | next {days : Nat} {today tomorrow target : Date} (hnext : Next today tomorrow)
      (hlater : Later days tomorrow target) : Later (days + 1) today target

theorem later_iff {days : Nat} {today target : Date} :
    Later days today target ↔ target.dayNumber = today.dayNumber + days := by
  constructor
  · intro h
    induction h with
    | here => exact (Int.add_zero _).symm
    | next hnext _ ih =>
        rw [ih, dayNumber_of_next hnext, Nat.cast_succ]
        omega
  · intro h
    induction days generalizing today with
    | zero =>
        rw [dayNumber_injective (h.trans (Int.add_zero _))]
        exact .here
    | succ days ih =>
        have hbound := (exists_dayNumber_iff.mp ⟨target, rfl⟩).2
        have hbefore : today.dayNumber < last.dayNumber := by omega
        obtain ⟨tomorrow, hnext⟩ := exists_next hbefore
        refine .next hnext (ih ?_)
        rw [dayNumber_of_next hnext, h, Nat.cast_succ]
        omega

/-- A number of days later, or earlier if the number is negative. -/
def Shifted (today : Date) (days : Int) (target : Date) : Prop :=
  if 0 ≤ days then Later days.toNat today target else Later (-days).toNat target today

theorem shifted_iff {today target : Date} {days : Int} :
    Shifted today days target ↔ target.dayNumber = today.dayNumber + days := by
  unfold Shifted
  split <;> rw [later_iff] <;> omega

/-- Adding days finds the day that lies so many days away, if there is one. -/
theorem addDays?_eq_some_iff {today target : Date} {days : Int} :
    today.addDays? days = some target ↔ Shifted today days target :=
  ofDayNumber?_eq_some_iff.trans shifted_iff.symm

theorem exists_shifted_iff {today : Date} {days : Int} : (∃ target, Shifted today days target) ↔
    first.dayNumber ≤ today.dayNumber + days ∧ today.dayNumber + days ≤ last.dayNumber := by
  simp only [shifted_iff]
  exact exists_dayNumber_iff

/-! ## The same day of another year -/

/-- Every month has the same days in all years, but for the last day of February. -/
theorem daysInMonth_of_ne {month : Nat} (h : month ≠ 2) (first second : Int) :
    daysInMonth first month = daysInMonth second month := by
  simp only [daysInMonth, monthLengths]
  rcases month with _ | _ | _ | month
  · rfl
  · rfl
  · exact absurd rfl h
  · rfl

theorem daysInMonth_february (year : Int) :
    daysInMonth year 2 = if isLeap year then 29 else 28 := rfl

/-- The twenty-ninth of February. -/
def IsLeapDay (date : Date) : Prop := date.month = 2 ∧ date.day = 29

/-- Another year has the day unless the year is too far away, or the day is a leap day and the year
is no leap year. -/
theorem isDate_inYear_iff (date : Date) (year : Int) : IsDate year date.month date.day ↔
    (firstYear ≤ year ∧ year ≤ lastYear) ∧ (date.IsLeapDay → isLeap year = true) := by
  obtain ⟨-, -, hpos, hday⟩ := date.valid
  unfold IsLeapDay
  constructor
  · rintro ⟨hfirst, hlast, -, hle⟩
    refine ⟨⟨hfirst, hlast⟩, fun ⟨hmonth, hleap⟩ => ?_⟩
    rw [hmonth, hleap, daysInMonth_february] at hle
    by_contra hnot
    rw [if_neg hnot] at hle
    omega
  · rintro ⟨⟨hfirst, hlast⟩, hleap⟩
    refine ⟨hfirst, hlast, hpos, ?_⟩
    by_cases hmonth : date.month = 2
    · rw [hmonth, daysInMonth_february] at hday ⊢
      by_cases hlate : date.day = 29
      · rw [if_pos (hleap ⟨hmonth, hlate⟩)]
        omega
      · split at hday <;> split <;> omega
    · rwa [daysInMonth_of_ne hmonth year date.year]

/-- The same day of another year. -/
def SameDayIn (date : Date) (year : Int) (target : Date) : Prop :=
  target.year = year ∧ target.month = date.month ∧ target.day = date.day

theorem inYear?_eq_some_iff {date target : Date} {year : Int} :
    date.inYear? year = some target ↔ date.SameDayIn year target :=
  ofParts?_eq_some_iff

theorem exists_sameDayIn_iff {date : Date} {year : Int} : (∃ target, date.SameDayIn year target) ↔
    (firstYear ≤ year ∧ year ≤ lastYear) ∧ (date.IsLeapDay → isLeap year = true) := by
  rw [← isDate_inYear_iff]
  constructor
  · rintro ⟨⟨_, _, _, hvalid⟩, rfl, rfl, rfl⟩
    exact hvalid
  · intro hvalid
    exact ⟨⟨year, date.month, date.day, hvalid⟩, rfl, rfl, rfl⟩

end Date

end Pipework

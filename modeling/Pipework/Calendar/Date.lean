/-!
# Days and moments of the calendar

The Gregorian calendar, extended to all years in both directions, year zero included. The years are
bounded. A date is valid by its type, and so is a time of day, whose minutes may have a sixty-first
second. Days are numbered from the first day of year one on.
-/

namespace Pipework

namespace Calendar

/-- The first year. -/
def firstYear : Int := -262143

/-- The last year. -/
def lastYear : Int := 262142

/-- Whether February has 29 days. -/
def isLeap (year : Int) : Bool :=
  year % 4 == 0 && (year % 100 != 0 || year % 400 == 0)

/-- The lengths of a year's months. -/
def monthLengths (year : Int) : List Nat :=
  [31, if isLeap year then 29 else 28, 31, 30, 31, 30, 31, 31, 30, 31, 30, 31]

/-- The length of a month, counted from one; zero if there is no such month. -/
def daysInMonth (year : Int) (month : Nat) : Nat :=
  if month = 0 then 0 else (monthLengths year).getD (month - 1) 0

/-- Whether there is such a day. -/
def IsDate (year : Int) (month day : Nat) : Prop :=
  firstYear ≤ year ∧ year ≤ lastYear ∧ 1 ≤ day ∧ day ≤ daysInMonth year month

instance (year : Int) (month day : Nat) : Decidable (IsDate year month day) :=
  inferInstanceAs (Decidable (_ ∧ _ ∧ _ ∧ _))

end Calendar

open Calendar

/-- A day. -/
structure Date where
  year : Int
  month : Nat
  day : Nat
  valid : IsDate year month day := by decide

namespace Date

instance : Inhabited Date := ⟨{ year := 1, month := 1, day := 1 }⟩

/-- The day with these numbers, if there is one. -/
def ofParts? (year : Int) (month day : Nat) : Option Date :=
  if h : IsDate year month day then some ⟨year, month, day, h⟩ else none

/-- The number of days from year one to the start of a year; negative before year one. -/
def daysBeforeYear (year : Int) : Int :=
  let years := year - 1
  365 * years + years / 4 - years / 100 + years / 400

/-- The number of days in the months before a month. -/
def daysBeforeMonth (year : Int) (month : Nat) : Nat :=
  ((monthLengths year).take (month - 1)).foldl Nat.add 0

/-- The place of a day in its year, counted from one. -/
def yearday (date : Date) : Nat :=
  daysBeforeMonth date.year date.month + date.day

/-- The number of a day; the first day of year one has the number one. -/
def dayNumber (date : Date) : Int :=
  daysBeforeYear date.year + date.yearday

/-- The month and day at a place of a year, counted from one, when the months from the given one on
have the given lengths. -/
def monthAndDay (month : Nat) (place : Nat) : List Nat → Nat × Nat
  | [] => (month, place)
  | length :: rest =>
      if place ≤ length then (month, place) else monthAndDay (month + 1) (place - length) rest

/-- The year in which a numbered day lies. The mean length of the years gives it up to one. -/
def yearOf (number : Int) : Int :=
  let guess := number * 400 / 146097 + 1
  if number ≤ daysBeforeYear guess then guess - 1
  else if daysBeforeYear (guess + 1) < number then guess + 1
  else guess

/-- The day with a number, if its year is not too far away. -/
def ofDayNumber? (number : Int) : Option Date :=
  let year := yearOf number
  let place := (number - daysBeforeYear year).toNat
  let (month, day) := monthAndDay 1 place (monthLengths year)
  ofParts? year month day

/-- The day that comes a number of days later, or earlier. -/
def addDays? (date : Date) (days : Int) : Option Date :=
  ofDayNumber? (date.dayNumber + days)

/-- The same day of another year, if that year has it. -/
def inYear? (date : Date) (year : Int) : Option Date :=
  ofParts? year date.month date.day

/-- The day of the week, counted from zero for Monday. -/
def weekday (date : Date) : Nat :=
  ((date.dayNumber - 1) % 7).toNat

end Date

/-- A second of a day. -/
structure DateTime where
  date : Date
  hour : Nat
  minute : Nat
  /-- Sixty for the second that is inserted behind a minute. -/
  second : Nat
  hour_lt : hour < 24 := by decide
  minute_lt : minute < 60 := by decide
  second_le : second ≤ 60 := by decide

namespace DateTime

/-- The start of a day. -/
def midnight (date : Date) : DateTime :=
  { date, hour := 0, minute := 0, second := 0 }

instance : Inhabited DateTime := ⟨midnight default⟩

/-- The moment with these numbers, if there is one. -/
def ofParts? (date : Date) (hour minute second : Nat) : Option DateTime :=
  if h : hour < 24 ∧ minute < 60 ∧ second ≤ 60 then
    some ⟨date, hour, minute, second, h.1, h.2.1, h.2.2⟩
  else none

/-- The second that a clock without inserted seconds shows. -/
def clockSecond (moment : DateTime) : Nat :=
  min moment.second 59

/-- The number of the first day of 1970. -/
def epoch : Int := 719163

/-- The seconds since the start of 1970, inserted ones not counted. -/
def timestamp (moment : DateTime) : Int :=
  (moment.date.dayNumber - epoch) * 86400 + moment.hour * 3600 + moment.minute * 60
    + moment.clockSecond

end DateTime

end Pipework

import Pipework.Calendar.Date
import Pipework.Error
import Pipework.Text.LetterCase
import Pipework.Text.Pieces

/-!
# Date texts

How a moment is written, and how dates are read: a few words and counts relative to the present
day, and five formats that are tried one after the other. A format is a list of number fields and
fixed characters. White space may stand before a number, and a number takes as many digits as there
are up to its width; a year with a sign takes all of them.
-/

namespace Pipework

namespace Calendar

/-- The fields that a format reads. -/
inductive Field where
  | year
  | shortYear
  | month
  | day
  | hour
  | minute
  | second
deriving DecidableEq

/-- One item of a format. -/
inductive Item where
  | number (field : Field)
  | literal (c : Char)
deriving DecidableEq

/-- Numbers read so far; hours, minutes and seconds that a format does not have are zero. -/
structure Reading where
  year : Int := 0
  month : Nat := 0
  day : Nat := 0
  hour : Nat := 0
  minute : Nat := 0
  second : Nat := 0

namespace Reading

/-- The full year of a year without century: those below seventy belong to this century. -/
def fullYear (short : Nat) : Int :=
  if short < 70 then 2000 + short else 1900 + short

/-- Stores a number in a field. -/
def set (reading : Reading) (field : Field) (number : Int) : Reading :=
  match field with
  | .year => { reading with year := number }
  | .shortYear => { reading with year := fullYear number.toNat }
  | .month => { reading with month := number.toNat }
  | .day => { reading with day := number.toNat }
  | .hour => { reading with hour := number.toNat }
  | .minute => { reading with minute := number.toNat }
  | .second => { reading with second := number.toNat }

/-- The moment that the numbers stand for, if there is one. -/
def toDateTime? (reading : Reading) : Option DateTime := do
  let date ← Date.ofParts? reading.year reading.month reading.day
  DateTime.ofParts? date reading.hour reading.minute reading.second

end Reading

/-- A row of at least one and at most `width` digits at the start of a text, and what follows. -/
def readDigits? (width : Nat) (text : List Char) : Option (Nat × List Char) :=
  let digits := (text.takeWhile Decimal.isDigit).take width
  if digits = [] then none else some (Decimal.natOfDigits digits, text.drop digits.length)

/-- A year: a sign and any number of digits, or up to four digits. -/
def readYear? : List Char → Option (Int × List Char)
  | '-' :: rest => (readDigits? rest.length rest).map fun (number, left) => (-(number : Int), left)
  | '+' :: rest => (readDigits? rest.length rest).map fun (number, left) => ((number : Int), left)
  | text => (readDigits? 4 text).map fun (number, left) => ((number : Int), left)

/-- The number of a field at the start of a text, after white space. -/
def readNumber? (field : Field) (text : List Char) : Option (Int × List Char) :=
  let text := Text.trimStart text
  if field = .year then readYear? text
  else (readDigits? 2 text).map fun (number, left) => ((number : Int), left)

/-- Reads a whole text by a format. -/
def readItems? (reading : Reading) : List Item → List Char → Option Reading
  | [], [] => some reading
  | [], _ :: _ => none
  | .literal c :: items, head :: rest => if c = head then readItems? reading items rest else none
  | .literal _ :: _, [] => none
  | .number field :: items, text =>
      match readNumber? field text with
      | some (number, rest) => readItems? (reading.set field number) items rest
      | none => none

/-- The moment that a text stands for in a format. A format without a time gives the start of the
day. -/
def readFormat? (format : List Item) (text : List Char) : Option DateTime :=
  (readItems? {} format text).bind Reading.toDateTime?

/-- Three numbers with a character between them. -/
def threeFields (head middle last : Field) (c : Char) : List Item :=
  [.number head, .literal c, .number middle, .literal c, .number last]

/-- The formats, in the order in which they are tried. Texts are in lower case when they are
read. -/
def formats : List (List Item) :=
  [threeFields .month .day .year '-',
    threeFields .month .day .shortYear '/',
    threeFields .month .day .year '/',
    threeFields .month .day .shortYear '-',
    threeFields .year .month .day '-' ++ [.literal 't']
      ++ threeFields .hour .minute .second ':' ++ [.literal 'z']]

/-- The moment that a text stands for in the first format that reads it. -/
def fixed? (text : List Char) : Option DateTime :=
  formats.findSome? fun format => readFormat? format text

/-- The moment some days after the start of a day. -/
def daysFrom (today : Date) (days : Int) (text : String) : Except ModuleFault DateTime :=
  match today.addDays? days with
  | some date => .ok (.midnight date)
  | none => .error (.dateOutOfRange text)

/-- The start of the same day some years later. -/
def yearsFrom (today : Date) (years : Int) (text : String) : Except ModuleFault DateTime :=
  match today.inYear? (today.year + years) with
  | some date => .ok (.midnight date)
  | none => .error (.dateOutOfRange text)

/-- A text read relative to the present. A text with a space in it must start with a count; nothing
is decided for a text that is neither a word nor a count of known units. -/
def relativeTo? (text : String) (now : DateTime) : Option (Except ModuleFault DateTime) :=
  if text = "today" then some (.ok (.midnight now.date))
  else if text = "tomorrow" then some (daysFrom now.date 1 text)
  else if text = "yesterday" then some (daysFrom now.date (-1) text)
  else if text = "now" then some (.ok now)
  else
    (Text.cutOnce? ' ' text.toList).bind fun (count, unit) =>
      match Decimal.readInt64? count with
      | none => some (.error (.unrecognizedDate text))
      | some count =>
          if unit = "day".toList ∨ unit = "days".toList then some (daysFrom now.date count text)
          else if unit = "year".toList ∨ unit = "years".toList then
            some (yearsFrom now.date count text)
          else none

/-- Reads a date. White space at the ends and the case of letters do not matter. -/
def parseDate (text : String) (now : DateTime) : Except ModuleFault DateTime :=
  let text := Text.toLower (Text.trim text)
  match relativeTo? text now with
  | some result => result
  | none =>
      match fixed? text.toList with
      | some moment => .ok moment
      | none => .error (.unrecognizedDate text)

/-- A number with zeros in front of it up to a width. -/
def padded (width number : Nat) : List Char :=
  let digits := Nat.toDigits 10 number
  List.replicate (width - digits.length) '0' ++ digits

/-- A year in at least four digits; years before zero and after 9999 have a sign. -/
def yearText (year : Int) : List Char :=
  if year < 0 then '-' :: padded 4 year.natAbs
  else if 9999 < year then '+' :: padded 4 year.natAbs
  else padded 4 year.natAbs

end Calendar

namespace DateTime

/-- The moment as a text with its numbers from the year down. -/
def isoText (moment : DateTime) : String :=
  String.ofList (
    Calendar.yearText moment.date.year
      ++ ['-'] ++ Calendar.padded 2 moment.date.month
      ++ ['-'] ++ Calendar.padded 2 moment.date.day
      ++ ['T'] ++ Calendar.padded 2 moment.hour
      ++ [':'] ++ Calendar.padded 2 moment.minute
      ++ [':'] ++ Calendar.padded 2 moment.second)

/-- The moment as an object. -/
def toValue (moment : DateTime) : Value :=
  .object (.ofList [
    ("year", .int moment.date.year),
    ("month", .int moment.date.month),
    ("day", .int moment.date.day),
    ("hour", .int moment.hour),
    ("minute", .int moment.minute),
    ("second", .int moment.clockSecond),
    ("weekday", .int moment.date.weekday),
    ("yearday", .int moment.date.yearday),
    ("utime", .int moment.timestamp),
    ("iso", .text moment.isoText)])

end DateTime

end Pipework

import Pipework.Calendar.Date
import Pipework.Decimal.Reading
import Pipework.Text.Pieces
import Pipework.Toml.Quoted

/-!
# Numbers and dates in TOML

A number or a date is one word of certain characters. Digits may be grouped by single underscores,
an integer has no leading zeros and must fit in 64 bits, and a date may be followed by a time. A
moment (a date, a time or both) has one spelling, whatever it is written like.
-/

namespace Pipework.Toml

/-- Whether a character may stand in a number or a date. -/
def isWordChar (c : Char) : Bool :=
  c.isAlphanum || c == '_' || c == '+' || c == '-' || c == '.' || c == ':'

/-- Digits in groups: the first and the last character are digits, and so is every neighbour of an
underscore. -/
def grouped (isDigit : Char → Bool) : List Char → Bool
  | [] => false
  | [c] => isDigit c
  | '_' :: _ => false
  | c :: '_' :: rest => isDigit c && grouped isDigit rest
  | c :: rest => isDigit c && grouped isDigit rest

/-- Digits in groups without a leading zero. -/
def isWhole (word : List Char) : Bool :=
  grouped Decimal.isDigit word && (word.head? != some '0' || word.length == 1)

/-- The sign of a word, and the word behind it. -/
def cutSign : List Char → Bool × List Char
  | '-' :: rest => (true, rest)
  | '+' :: rest => (false, rest)
  | word => (false, word)

/-- The digits without the underscores. -/
def ungrouped (word : List Char) : List Char :=
  word.filter fun c => c != '_'

/-- The number that digits of a base stand for. -/
def natOfBase (base : Nat) (digits : List Char) : Nat :=
  digits.foldl (fun number c => base * number + (Json.hexValue? c).getD 0) 0

/-- Whether a character is a digit of a base. -/
def isDigitOf (base : Nat) (c : Char) : Bool :=
  (Json.hexValue? c).any fun digit => digit < base

/-- Digits of a base as an integer. -/
def readBase? (base : Nat) (word : List Char) : Option Int :=
  if grouped (isDigitOf base) word then some (Int.ofNat (natOfBase base (ungrouped word))) else none

/-- An integer of any size. -/
def readWhole? : List Char → Option Int
  | '0' :: 'x' :: rest => readBase? 16 rest
  | '0' :: 'o' :: rest => readBase? 8 rest
  | '0' :: 'b' :: rest => readBase? 2 rest
  | word =>
      let (negative, digits) := cutSign word
      if isWhole digits then
        let size := Int.ofNat (Decimal.natOfDigits (ungrouped digits))
        some (if negative then -size else size)
      else none

/-- An integer of 64 bits. -/
def readInteger? (word : List Char) : Option Value := do
  let number ← readWhole? word
  if Value.minInt64 ≤ number ∧ number ≤ Value.maxInt64 then some (.int number) else none

/-- Whether a word is an exponent, if there is any. -/
def isExponent : Option (List Char) → Bool
  | none => true
  | some word => grouped Decimal.isDigit (cutSign word).2

/-- Whether a word without a sign is a number with a fraction or an exponent. -/
def isFractional (word : List Char) : Bool :=
  let word := word.map fun c => if c = 'E' then 'e' else c
  let (mantissa, exponent) := match Text.cutOnce? 'e' word with
    | some (mantissa, exponent) => (mantissa, some exponent)
    | none => (word, none)
  isExponent exponent && match Text.cutOnce? '.' mantissa with
    | some (whole, fraction) => isWhole whole && grouped Decimal.isDigit fraction
    | none => exponent.isSome && isWhole mantissa

/-- A floating-point number. What is not finite has no value; it must not come from a number that is
too large. -/
def readFloat? (word : List Char) : Option Value :=
  let (negative, size) := cutSign word
  if size = "inf".toList ∨ size = "nan".toList then some .null
  else if isFractional size then
    match Decimal.readFloat? (ungrouped word) with
    | some number => if number.isInf ∧ !negative then none else some (.ofFloat number)
    | none => none
  else none

/-- A number of exactly so many digits. -/
def readDigits? (width : Nat) (text : List Char) : Option (Nat × List Char) :=
  let digits := text.take width
  if digits.length = width ∧ digits.all Decimal.isDigit then
    some (Decimal.natOfDigits digits, text.drop width)
  else none

/-- The rest of a text behind a character. -/
def after? (c : Char) : List Char → Option (List Char)
  | head :: rest => if head = c then some rest else none
  | [] => none

/-- Reads a date as it is spelled. -/
def readDate? : Reader (List Char) := fun text => do
  let (year, rest) ← readDigits? 4 text
  let (month, rest) ← readDigits? 2 (← after? '-' rest)
  let (day, rest) ← readDigits? 2 (← after? '-' rest)
  let _ ← Date.ofParts? (Int.ofNat year) month day
  return (text.take 10, rest)

/-- The spelling of a fraction of a second: nine digits at most, without zeros at the end. -/
def fractionText (digits : List Char) : List Char :=
  match ((digits.take 9).reverse.dropWhile fun c => c == '0').reverse with
  | [] => []
  | digits => '.' :: digits

/-- Reads a time of the day and gives its spelling. -/
def readTime? : Reader (List Char) := fun text => do
  let (hour, rest) ← readDigits? 2 text
  let (minute, rest) ← readDigits? 2 (← after? ':' rest)
  let (second, rest) ← readDigits? 2 (← after? ':' rest)
  if 23 < hour ∨ 59 < minute ∨ 60 < second then none
  else
    match rest with
    | '.' :: fraction =>
        let digits := fraction.takeWhile Decimal.isDigit
        if digits.isEmpty then none
        else some (text.take 8 ++ fractionText digits, fraction.dropWhile Decimal.isDigit)
    | rest => some (text.take 8, rest)

/-- The spelling of an offset from universal time, which may be missing. -/
def offsetOf? : List Char → Option (List Char)
  | [] => some []
  | ['Z'] | ['z'] => some ['Z']
  | sign :: text => do
      let (hour, rest) ← readDigits? 2 text
      let (minute, rest) ← readDigits? 2 (← after? ':' rest)
      if (sign ≠ '+' ∧ sign ≠ '-') ∨ 23 < hour ∨ 59 < minute ∨ !rest.isEmpty then none
      else return (if hour = 0 ∧ minute = 0 then '+' else sign) :: text

/-- The spelling of a time of the day behind a date, perhaps with an offset. -/
def timeOf? (word : List Char) : Option (List Char) := do
  let (time, rest) ← readTime? word
  return time ++ (← offsetOf? rest)

/-- The spelling of a moment. -/
def momentOf? (word : List Char) : Option (List Char) :=
  match readDate? word with
  | some (date, []) => some date
  | some (date, 'T' :: time) | some (date, 't' :: time) =>
      (timeOf? time).map fun time => date ++ 'T' :: time
  | some _ => none
  | none =>
      match readTime? word with
      | some (time, []) => some time
      | _ => none

/-- The key of the only member of a moment. -/
def momentKey : String := "$__toml_private_datetime"

/-- A moment as a table with its spelling. -/
def moment (spelling : List Char) : Value :=
  .object (Dict.single momentKey (.text (String.ofList spelling)))

/-- The value of a word. -/
def ofWord? (word : List Char) : Option Value :=
  if word = "true".toList then some (.bool true)
  else if word = "false".toList then some (.bool false)
  else ((momentOf? word).map moment).or ((readFloat? word).or (readInteger? word))

/-- Reads a word, and a time behind a date. -/
def readWord? : Reader Value := fun text => do
  let word := text.takeWhile isWordChar
  let rest := text.dropWhile isWordChar
  match readDate? word, rest with
  | some (date, []), ' ' :: next :: _ =>
      if Decimal.isDigit next then
        let time ← timeOf? ((rest.drop 1).takeWhile isWordChar)
        return (moment (date ++ 'T' :: time), (rest.drop 1).dropWhile isWordChar)
      else return (moment date, rest)
  | _, _ => return (← ofWord? word, rest)

end Pipework.Toml

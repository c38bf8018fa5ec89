import Pipework.Decimal.Shortest

/-!
# Reading numbers

Numbers come in two spellings. The free spelling of field texts allows a sign, a missing whole or
fractional part and the words for infinity and for not a number, and rounds to the nearest double.
The strict spelling of JSON allows neither, and scales a bounded significand by a power of ten.
-/

namespace Pipework

namespace Decimal

/-- A decimal digit of the ASCII range. -/
def isDigit (c : Char) : Bool :=
  '0' ≤ c && c ≤ '9'

/-- The number that a digit stands for. -/
def digitValue (c : Char) : Nat :=
  c.toNat - '0'.toNat

/-- The number that a row of digits stands for. -/
def natOfDigits (digits : List Char) : Nat :=
  digits.foldl (fun number c => 10 * number + digitValue c) 0

/-- A row of at least one digit and nothing else. -/
def readNat? (text : List Char) : Option Nat :=
  if text ≠ [] ∧ text.all isDigit then some (natOfDigits text) else none

/-- A row of digits that a sign may precede. -/
def readInt? : List Char → Option Int
  | '-' :: digits => (readNat? digits).map fun number => -(number : Int)
  | '+' :: digits => (readNat? digits).map fun number => (number : Int)
  | digits => (readNat? digits).map fun number => (number : Int)

/-- A signed row of digits whose number fits in 64 bits. -/
def readInt64? (text : List Char) : Option Int :=
  (readInt? text).filter fun number => Value.minInt64 ≤ number ∧ number ≤ Value.maxInt64

/-- The exponent at the end of a number: nothing, or a mark followed by a signed row of digits. -/
def readExponent? : List Char → Option Int
  | [] => some 0
  | c :: rest => if c = 'e' ∨ c = 'E' then readInt? rest else none

/-- An unsigned number as written: the digits before and after the point and the exponent. -/
structure Literal where
  whole : List Char
  fraction : Option (List Char)
  exponent : Option Int

/-- Takes a number apart. The exponent is absent when no mark follows the digits. -/
def Literal.scan? (text : List Char) : Option Literal :=
  let whole := text.takeWhile isDigit
  match text.dropWhile isDigit with
  | '.' :: rest =>
      let tail := rest.dropWhile isDigit
      (readExponent? tail).map fun exponent =>
        ⟨whole, some (rest.takeWhile isDigit), if tail = [] then none else some exponent⟩
  | tail =>
      (readExponent? tail).map fun exponent =>
        ⟨whole, none, if tail = [] then none else some exponent⟩

/-- The double nearest to `digits * 10 ^ exponent`. Far outside the range of doubles the answer is
known without computing the power. -/
def toFloat (x : Decimal) : Float :=
  let leading := (Nat.toDigits 10 x.digits).length + x.exponent
  if x.digits = 0 ∨ leading < -400 then 0.0
  else if 400 < leading then 1.0 / 0.0
  else Float.ofScientific x.digits (x.exponent < 0) x.exponent.natAbs

/-- An unsigned number in the free spelling. -/
def readMagnitude? (text : List Char) : Option Float :=
  let word := text.map Char.toLower
  if word = "inf".toList ∨ word = "infinity".toList then some (1.0 / 0.0)
  else if word = "nan".toList then some (0.0 / 0.0)
  else
    (Literal.scan? text).bind fun literal =>
      let fraction := literal.fraction.getD []
      let digits := literal.whole ++ fraction
      if digits = [] then none
      else some (toFloat
        ⟨natOfDigits digits, literal.exponent.getD 0 - fraction.length⟩)

/-- A number in the free spelling. -/
def readFloat? : List Char → Option Float
  | '-' :: rest => (readMagnitude? rest).map fun number => -number
  | '+' :: rest => readMagnitude? rest
  | text => readMagnitude? text

/-- The largest significand that is kept. -/
def maxSignificand : Nat := 18446744073709551615

/-- Reads digits into a significand until the next one would exceed the bound. Gives the
significand and the number of digits left out. -/
def accumulate (significand : Nat) : List Char → Nat × Nat
  | [] => (significand, 0)
  | c :: rest =>
      let next := 10 * significand + digitValue c
      if next ≤ maxSignificand then accumulate next rest
      else (significand, (c :: rest).length)

/-- Scales a significand by a power of ten, at most `10 ^ 308` at a time. Nothing when the number
is too large for a double. -/
def scale? (fuel : Nat) (number : Float) (exponent : Int) : Option Float :=
  match fuel with
  | 0 => some number
  | fuel + 1 =>
      if exponent.natAbs ≤ 308 then
        let power := Float.ofScientific 1 false exponent.natAbs
        let scaled := if 0 ≤ exponent then number * power else number / power
        if scaled.isInf then none else some scaled
      else if number == 0.0 then some number
      else if 0 ≤ exponent then none
      else scale? fuel (number / 1e308) (exponent + 308)

/-- The significand and the power of ten of a strict literal: digits beyond the bound are left
out, those of the whole part count as powers of ten. -/
def Literal.parts (literal : Literal) : Nat × Int :=
  let (significand, dropped) := accumulate 0 literal.whole
  let (significand, unread) := accumulate significand (literal.fraction.getD [])
  let places := (literal.fraction.getD []).length - unread
  (significand, (dropped : Int) - (places : Int))

/-- A strict literal as a floating-point value. An exponent beyond 32 bits gives zero or nothing
without being computed. -/
def Literal.toDouble? (negative : Bool) (literal : Literal) : Option Double :=
  let (significand, places) := literal.parts
  let exponent := literal.exponent.getD 0
  let magnitude :=
    if exponent.natAbs ≤ 2147483647 then
      scale? 20 (Float.ofNat significand) (places + exponent)
    else if significand ≠ 0 ∧ 0 ≤ exponent then none
    else some 0.0
  magnitude.bind fun number => Double.ofFloat? (if negative then -number else number)

/-- Whether a literal obeys the strict spelling: a whole part without a leading zero, and digits
after the point if there is one. -/
def Literal.isStrict (literal : Literal) : Bool :=
  literal.whole ≠ [] && (literal.whole.length = 1 || literal.whole.head? != some '0')
    && literal.fraction != some []

/-- A number in the strict spelling. Without a point and an exponent it is an integer if it lies
between `-2 ^ 63` and `2 ^ 64 - 1` and is not a negative zero. -/
def readStrict? (text : List Char) : Option Value :=
  let negative := text.head? = some '-'
  let magnitude := if negative then text.tail else text
  (Literal.scan? magnitude).bind fun literal =>
    if literal.isStrict then
      let number := natOfDigits literal.whole
      let plain := literal.fraction.isNone && literal.exponent.isNone
      if plain ∧ negative ∧ number ≠ 0 ∧ number ≤ 9223372036854775808 then
        some (.int (-(number : Int)))
      else if plain ∧ ¬negative ∧ number ≤ maxSignificand then some (.int number)
      else (literal.toDouble? negative).map .float
    else none

end Decimal

end Pipework

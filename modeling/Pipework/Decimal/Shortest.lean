import Pipework.Json.Value

/-!
# The shortest decimal of a double

A double stands for every real number that rounds to it. Of the decimals in that interval the
shortest is written, and of the shortest ones the nearest. The search is exact: it compares
natural numbers only. `shortest` gives digits and a power of ten, `Decimal.text` spells them out.
-/

namespace Pipework

/-- The number `mantissa * 2 ^ exponent`, with a sign. -/
structure Binary where
  negative : Bool
  mantissa : Nat
  exponent : Int

/-- The number `digits * 10 ^ exponent`. -/
structure Decimal where
  digits : Nat
  exponent : Int
deriving DecidableEq, Inhabited

namespace Double

/-- The sign, the mantissa and the exponent that the bits of a finite double hold. -/
def toBinary (x : Double) : Binary :=
  let bits := x.toFloat.toBits.toNat
  let fraction := bits % Nat.pow 2 52
  let biased := bits / Nat.pow 2 52 % Nat.pow 2 11
  { negative := bits / Nat.pow 2 63 == 1
    mantissa := if biased = 0 then fraction else fraction + Nat.pow 2 52
    exponent := Int.ofNat (if biased = 0 then 1 else biased) - 1075 }

end Double

/-- The reals between `low / scale` and `high / scale`, around `value / scale`. The two ends
belong to it when `closed` is set. -/
structure Rounding where
  low : Nat
  value : Nat
  high : Nat
  scale : Nat
  closed : Bool

namespace Rounding

/-- The reals that round to a positive double. Below a power of two the doubles lie twice as
dense, so there the lower end is nearer. -/
def ofBinary (x : Binary) : Rounding :=
  let shift := x.exponent - 2
  let up := Nat.pow 2 shift.toNat
  let gap := if x.mantissa = Nat.pow 2 52 ∧ x.exponent > -1074 then 1 else 2
  { low := (4 * x.mantissa - gap) * up
    value := 4 * x.mantissa * up
    high := (4 * x.mantissa + 2) * up
    scale := Nat.pow 2 (-shift).toNat
    closed := x.mantissa % 2 = 0 }

/-- Whether `digits * 10 ^ exponent` lies in the interval. -/
def contains (interval : Rounding) (candidate : Decimal) : Bool :=
  let scaled := candidate.digits * Nat.pow 10 candidate.exponent.toNat * interval.scale
  let unit := Nat.pow 10 (-candidate.exponent).toNat
  if interval.closed then interval.low * unit ≤ scaled ∧ scaled ≤ interval.high * unit
  else interval.low * unit < scaled ∧ scaled < interval.high * unit

/-- Whether `10 ^ exponent` is at most the value. -/
def reaches (interval : Rounding) (exponent : Int) : Bool :=
  Nat.pow 10 exponent.toNat * interval.scale ≤ interval.value * Nat.pow 10 (-exponent).toNat

/-- The exponent of the value's first decimal digit, searched around an estimate from the number
of its binary digits. -/
def leadingExponent (interval : Rounding) : Int :=
  let bits : Int := (interval.value.log2 : Int) - (interval.scale.log2 : Int)
  let guess := bits * 30103 / 100000
  ([2, 1, 0, -1].map (guess + ·)).find? interval.reaches |>.getD (guess - 2)

/-- The value's two neighbours among the multiples of `10 ^ exponent`, the nearer one first; of
two that are equally near the even one. -/
def neighbours (interval : Rounding) (exponent : Int) : List Decimal :=
  let unit := Nat.pow 10 exponent.toNat * interval.scale
  let scaled := interval.value * Nat.pow 10 (-exponent).toNat
  let below := scaled / unit
  let rest := 2 * (scaled % unit)
  let upperFirst := unit < rest ∨ (unit = rest ∧ below % 2 = 1)
  if upperFirst then [⟨below + 1, exponent⟩, ⟨below, exponent⟩]
  else [⟨below, exponent⟩, ⟨below + 1, exponent⟩]

/-- The first hit on the grids of 1, 2, … 17 digits. Seventeen digits always suffice. -/
def shortest (interval : Rounding) : Decimal :=
  let leading := interval.leadingExponent
  let hits := (List.range 17).filterMap fun (extra : Nat) =>
    (interval.neighbours (leading - extra)).find? interval.contains
  hits.headD ⟨0, 0⟩

end Rounding

/-- A decimal without zeros at its end. -/
def Decimal.trimmed (fuel : Nat) (x : Decimal) : Decimal :=
  match fuel with
  | 0 => x
  | fuel + 1 =>
      if x.digits ≠ 0 ∧ x.digits % 10 = 0 then
        trimmed fuel ⟨x.digits / 10, x.exponent + 1⟩
      else x

/-- A positive decimal as text. A first digit from the sixteenth place before the point to the
fifth after it is written with a point and at least one place; any other is written with an
exponent, which always has a sign. -/
def Decimal.text (x : Decimal) : String :=
  let digits := Nat.toDigits 10 x.digits
  let size := digits.length
  let leading := x.exponent + size - 1
  if 16 ≤ leading ∨ leading < -5 then
    let fraction := if size ≤ 1 then [] else '.' :: digits.tail
    let sign := if leading < 0 then '-' else '+'
    String.ofList (digits.take 1 ++ fraction ++ ['e', sign] ++ Nat.toDigits 10 leading.natAbs)
  else if leading < 0 then
    String.ofList (['0', '.'] ++ List.replicate (-leading - 1).toNat '0' ++ digits)
  else
    let whole := leading.toNat + 1
    let fraction := if size ≤ whole then ['0'] else digits.drop whole
    String.ofList
      (digits.take whole ++ List.replicate (whole - size) '0' ++ ['.'] ++ fraction)

namespace Double

/-- The text of a double: a zero keeps its sign, any other number is its shortest decimal. -/
def text (x : Double) : String :=
  let binary := x.toBinary
  let magnitude :=
    if binary.mantissa = 0 then "0.0"
    else ((Rounding.ofBinary binary).shortest.trimmed 17).text
  if binary.negative then "-" ++ magnitude else magnitude

end Double

end Pipework

import TemplateCascade.Number.Double

namespace TemplateCascade
namespace Number

/-!
# Decimal text of doubles

Two texts of a number.  The shortest text has the fewest digits that still read back as the same
double, and of these the nearest to it; it never uses an exponent.  The fixed text has a given number
of decimal places.  Both are computed from the exact value as a quotient of natural numbers.
-/

/-- The decimal digits of a natural number. -/
def digits (number : Nat) : List Char :=
  Nat.toDigits 10 number

/-- A decimal number, `coefficient * 10 ^ exponent`. -/
structure Decimal where
  coefficient : Nat
  exponent : Int
deriving DecidableEq, Repr

/-- The largest `exponent` with `10 ^ exponent ≤ numerator / denominator`, for a positive quotient. -/
def decimalExponent (numerator denominator : Nat) : Int :=
  if denominator ≤ numerator then (digits (numerator / denominator)).length - 1
  else -((digits ((denominator + numerator - 1) / numerator - 1)).length : Int)

/--
The numbers that a decimal must lie between to read back as one double: they have the common
`denominator`, and belong to the interval themselves when it is `closed`.
-/
structure RoundingInterval where
  low : Nat
  middle : Nat
  high : Nat
  denominator : Nat
  closed : Bool
deriving DecidableEq, Repr

namespace RoundingInterval

/--
The interval around `significand * 2 ^ exponent`: half a unit in the last place on either side, but
only a quarter below a power of two, where the doubles below lie twice as close.
-/
def ofDouble (significand : Nat) (exponent : Int) : RoundingInterval :=
  let below := if significand = twoTo 52 && -1074 < exponent then 1 else 2
  let scale := exponent - 2
  let factor := twoTo scale.toNat
  { low := (4 * significand - below) * factor
    middle := 4 * significand * factor
    high := (4 * significand + 2) * factor
    denominator := twoTo (-scale).toNat
    closed := significand % 2 == 0 }

/-- Whether `coefficient * unit / factor` lies in the interval, scaled by its denominator. -/
def holds (interval : RoundingInterval) (factor unit coefficient : Nat) : Bool :=
  if interval.closed then
    interval.low * factor ≤ coefficient * unit && coefficient * unit ≤ interval.high * factor
  else
    interval.low * factor < coefficient * unit && coefficient * unit < interval.high * factor

/--
The multiple of `10 ^ exponent` in the interval that is nearest to its middle; of two equally near
ones the larger.
-/
def nearest? (interval : RoundingInterval) (exponent : Int) : Option Nat :=
  let factor := tenTo (-exponent).toNat
  let unit := interval.denominator * tenTo exponent.toNat
  let lower := interval.middle * factor / unit
  let upper := lower + 1
  match interval.holds factor unit lower, interval.holds factor unit upper with
  | true, true =>
      if interval.middle * factor - lower * unit < upper * unit - interval.middle * factor then
        some lower
      else some upper
  | true, false => some lower
  | false, true => some upper
  | false, false => none

/-- Search grids of ever finer powers of ten, coarsest first. -/
def search (interval : RoundingInterval) (exponent : Int) : Nat → Decimal
  | 0 => ⟨interval.middle * tenTo (-exponent).toNat /
      (interval.denominator * tenTo exponent.toNat), exponent⟩
  | remaining + 1 =>
      match interval.nearest? exponent with
      | some coefficient => ⟨coefficient, exponent⟩
      | none => search interval (exponent - 1) remaining

end RoundingInterval

/--
The decimal with the fewest digits that reads back as `significand * 2 ^ exponent`.  Seventeen digits
always suffice.
-/
def shortest (significand : Nat) (exponent : Int) : Decimal :=
  let interval := RoundingInterval.ofDouble significand exponent
  interval.search (decimalExponent interval.middle interval.denominator) 17

/-- A natural number with the point `places` digits from its end; zeros fill the space before it. -/
def insertPoint (coefficient places : Nat) : List Char × List Char :=
  let written := digits coefficient
  let padded := List.replicate (places + 1 - written.length) '0' ++ written
  (padded.take (padded.length - places), padded.drop (padded.length - places))

/-- A list of digits without the zeros it ends with. -/
def dropTrailingZeros (fraction : List Char) : List Char :=
  (fraction.reverse.dropWhile (· == '0')).reverse

/-- A decimal written out without an exponent and without zeros at the end of its fraction. -/
def Decimal.text (decimal : Decimal) : List Char :=
  if 0 ≤ decimal.exponent then
    digits (decimal.coefficient * tenTo decimal.exponent.toNat)
  else
    let (whole, fraction) := insertPoint decimal.coefficient (-decimal.exponent).toNat
    match dropTrailingZeros fraction with
    | [] => whole
    | fraction => whole ++ '.' :: fraction

/-- The minus sign of a negative number. -/
def signText (negative : Bool) : List Char :=
  if negative then ['-'] else []

/-- The shortest text of a double, in characters. -/
def shortestCharacters (number : Float) : List Char :=
  match Double.ofFloat number with
  | .nan => "NaN".toList
  | .infinite negative => signText negative ++ "inf".toList
  | .finite negative significand exponent =>
      signText negative ++
        (if significand = 0 then ['0'] else (shortest significand exponent).text)

/-- The shortest text of a double. -/
def shortestText (number : Float) : String :=
  String.ofList (shortestCharacters number)

/-- The integer nearest to a quotient; a tie goes to the even neighbour. -/
def divideToEven (numerator denominator : Nat) : Nat :=
  let whole := numerator / denominator
  let doubled := 2 * (numerator % denominator)
  if doubled < denominator then whole
  else if denominator < doubled then whole + 1
  else if whole % 2 = 0 then whole else whole + 1

/--
The magnitude of a double with a given number of decimal places, as the digits before and after the
point.  A tie goes to the even digit.  What is not finite has its name before the point and nothing
after it.
-/
def fixedParts (places : Nat) (number : Float) : List Char × List Char :=
  match Double.ofFloat number with
  | .nan => ("NaN".toList, [])
  | .infinite _ => ("inf".toList, [])
  | .finite _ significand exponent =>
      insertPoint
        (divideToEven (significand * twoTo exponent.toNat * tenTo places)
          (twoTo (-exponent).toNat))
        places

end Number
end TemplateCascade

import TemplateCascade.Text.Identifier
import TemplateCascade.Number.Power

namespace TemplateCascade
namespace Number

/-!
# Numbers read from text

A number is an optional sign followed by decimal digits with an optional point and an optional
exponent, or by one of the words for infinity and for the undefined number in any letter case.
The whole text has to be read.  The result is the double nearest to the decimal.
-/

open Text (isAsciiDigit asciiLower)

/-- The number a list of decimal digits stands for. -/
def ofDigits (digits : List Char) : Nat :=
  digits.foldl (fun number digit => number * 10 + (digit.toNat - '0'.toNat)) 0

/-- Take a sign off the front of a text: whether it is a minus, and the rest. -/
def splitSign : List Char → Bool × List Char
  | '-' :: rest => (true, rest)
  | '+' :: rest => (false, rest)
  | text => (false, text)

/--
The double nearest to `coefficient * 10 ^ exponent`.  A number of at least `10 ^ 310` is infinite and
one below `10 ^ -330` is zero whatever its digits, so no larger power of ten is ever computed.
-/
def scientific (coefficient : Nat) (exponent : Int) : Float :=
  let magnitude : Int := (Nat.toDigits 10 coefficient).length + exponent
  if coefficient = 0 then 0
  else if 311 ≤ magnitude then 1 / 0
  else if magnitude ≤ -330 then 0
  else if exponent < 0 then Float.ofScientific coefficient true exponent.natAbs
  else Float.ofScientific coefficient false exponent.natAbs

/-- The exponent that ends a decimal: zero when the text is empty. -/
def readExponent? : List Char → Option Int
  | [] => some 0
  | mark :: rest =>
      if mark = 'e' || mark = 'E' then
        let (negative, digits) := splitSign rest
        if digits.isEmpty || !digits.all isAsciiDigit then none
        else some (if negative then -(ofDigits digits : Int) else ofDigits digits)
      else none

/-- An unsigned decimal with an optional fraction and exponent. -/
def readDecimal? (text : List Char) : Option Float :=
  let whole := text.takeWhile isAsciiDigit
  let (fraction, rest) :=
    match text.dropWhile isAsciiDigit with
    | '.' :: after => (after.takeWhile isAsciiDigit, after.dropWhile isAsciiDigit)
    | rest => ([], rest)
  if whole.isEmpty && fraction.isEmpty then none
  else
    (readExponent? rest).map fun exponent =>
      scientific (ofDigits (whole ++ fraction)) (exponent - fraction.length)

/-- An unsigned number: a word or a decimal. -/
def readUnsigned? (text : List Char) : Option Float :=
  match String.ofList (text.map asciiLower) with
  | "inf" | "infinity" => some (1 / 0)
  | "nan" => some (0 / 0)
  | _ => readDecimal? text

/-- A number with an optional sign. -/
def read? (text : List Char) : Option Float :=
  let (negative, rest) := splitSign text
  (readUnsigned? rest).map fun number => if negative then -number else number

/-- The bound that a natural number read from text has to stay below. -/
def indexLimit : Nat := twoTo 64

/-- A natural number written in decimal digits, `none` for any other text and for too large a number. -/
def readNatural? (text : List Char) : Option Nat :=
  if text.isEmpty || !text.all isAsciiDigit then none
  else if ofDigits text < indexLimit then some (ofDigits text) else none

/-- An index into a list: a natural number with an optional plus sign. -/
def readIndex? : List Char → Option Nat
  | '+' :: rest => readNatural? rest
  | text => readNatural? text

end Number
end TemplateCascade

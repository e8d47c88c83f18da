import TemplateCascade.Render.Calendar
import TemplateCascade.Toml.Basic
import TemplateCascade.Toml.Text

namespace TemplateCascade
namespace Toml

/-!
# Numbers, truth values and moments

A value that is neither a string nor a list nor a table is one word, and the whole word has to be of
one of the forms here.  Digits may be parted by single underscores.
-/

open Number (ofDigits splitSign)
open Text (isAsciiDigit)

/-- Digits parted by single underscores, without these. -/
def partedDigits? (isDigit : Char → Bool) : List Char → Option (List Char)
  | [] => none
  | [digit] => if isDigit digit then some [digit] else none
  | digit :: '_' :: rest =>
      if isDigit digit then (partedDigits? isDigit rest).map fun digits => digit :: digits else none
  | digit :: rest =>
      if isDigit digit then (partedDigits? isDigit rest).map fun digits => digit :: digits else none

/-- Decimal digits of a whole number: only zero itself starts with a zero. -/
def wholeDigits? (text : List Char) : Option (List Char) :=
  (partedDigits? isAsciiDigit text).filter fun digits => digits.length = 1 || digits.head? != some '0'

/-- A whole number in another base, whose sign is never written. -/
def readInBase? (base : Nat) (text : List Char) : Option Int := do
  let isDigit := fun digit => (hexadecimalValue? digit).any (· < base)
  let digits ← partedDigits? isDigit text
  let number := digits.foldl (fun number digit =>
    number * base + (hexadecimalValue? digit).getD 0) 0
  if number < Number.twoTo 63 then some number else none

/-- A whole number of 64 bits. -/
def readInteger? : List Char → Option Int
  | '0' :: 'x' :: rest => readInBase? 16 rest
  | '0' :: 'o' :: rest => readInBase? 8 rest
  | '0' :: 'b' :: rest => readInBase? 2 rest
  | text => do
      let (negative, unsigned) := splitSign text
      let digits ← wholeDigits? unsigned
      let number : Int := if negative then -(ofDigits digits : Int) else ofDigits digits
      if -(Number.twoTo 63 : Int) ≤ number && number < Number.twoTo 63 then some number else none

/-- Whether a text is an exponent, or empty. -/
def isExponent : List Char → Bool
  | [] => true
  | mark :: rest =>
      (mark == 'e' || mark == 'E') && (partedDigits? isAsciiDigit (splitSign rest).2).isSome

/-- Whether a text is a fraction and an exponent, of which one may be missing. -/
def isFraction (text : List Char) : Bool :=
  let isPart := fun character => isAsciiDigit character || character == '_'
  match text with
  | '.' :: rest =>
      (partedDigits? isAsciiDigit (rest.takeWhile isPart)).isSome && isExponent (rest.dropWhile isPart)
  | [] => false
  | text => isExponent text

/-- Whether a text is a number with a fraction or an exponent that is not too large. -/
def isFractional (text : List Char) : Bool :=
  let isPart := fun character => isAsciiDigit character || character == '_'
  let (negative, unsigned) := splitSign text
  let finite := fun (_ : Unit) =>
    match Number.read? (text.filter (· != '_')) with
    | some number => negative || number != 1 / 0
    | none => false
  String.ofList unsigned == "inf" || String.ofList unsigned == "nan" ||
    ((wholeDigits? (unsigned.takeWhile isPart)).isSome && isFraction (unsigned.dropWhile isPart) &&
      finite ())

/-! ## Moments -/

/-- The number that so many digits at the front of a text stand for. -/
def readDigits (count : Nat) (text : List Char) : Option (Nat × List Char) :=
  let digits := text.take count
  if digits.length = count && digits.all isAsciiDigit then some (ofDigits digits, text.drop count)
  else none

/-- What follows one certain character. -/
def after? (character : Char) : List Char → Option (List Char)
  | head :: rest => if head = character then some rest else none
  | [] => none

/-- The number of days in a month, which is counted from one. -/
def daysInMonth (year month : Nat) : Nat :=
  if month = 2 then if Render.isLeapYear year then 29 else 28
  else if month = 4 || month = 6 || month = 9 || month = 11 then 30
  else 31

/-- What follows a day of the calendar. -/
def afterDate? (text : List Char) : Option (List Char) := do
  let (year, rest) ← readDigits 4 text
  let (month, rest) ← readDigits 2 (← after? '-' rest)
  let (day, rest) ← readDigits 2 (← after? '-' rest)
  if 1 ≤ month && month ≤ 12 && 1 ≤ day && day ≤ daysInMonth year month then some rest else none

/-- What follows hours and minutes. -/
def afterHourMinute? (text : List Char) : Option (List Char) := do
  let (hour, rest) ← readDigits 2 text
  let (minute, rest) ← readDigits 2 (← after? ':' rest)
  if hour ≤ 23 && minute ≤ 59 then some rest else none

/-- What follows a time of day, of which the last minute may have one second more. -/
def afterTime? (text : List Char) : Option (List Char) := do
  let rest ← afterHourMinute? text
  let (second, rest) ← readDigits 2 (← after? ':' rest)
  if second ≤ 60 then
    match rest with
    | '.' :: fraction =>
        if fraction.head?.any isAsciiDigit then some (fraction.dropWhile isAsciiDigit) else none
    | rest => some rest
  else none

/-- Whether a text is the distance of a time zone, or empty. -/
def isOffset : List Char → Bool
  | [] => true
  | ['Z'] | ['z'] => true
  | '+' :: rest | '-' :: rest => afterHourMinute? rest == some []
  | _ => false

/-- Whether a text is a day, a time of day, or both and perhaps a time zone. -/
def isMoment (text : List Char) : Bool :=
  match afterDate? text with
  | some [] => true
  | some (mark :: time) =>
      (mark == 'T' || mark == 't' || mark == ' ') && (afterTime? time).any isOffset
  | none => afterTime? text == some []

/-! ## Words -/

/-- A character that ends a word. -/
def endsWord (character : Char) : Bool :=
  isBlank character || ['\n', '\r', '#', ',', ']', '\x7d'].contains character

/-- The word at the front of a text. -/
def word (text : List Char) : List Char :=
  text.takeWhile fun character => !endsWord character

/-- The word at the front of a text, with a second one when it is a day with a time behind a blank. -/
def scalarText (text : List Char) : List Char :=
  let first := word text
  match text.drop first.length with
  | ' ' :: rest =>
      if afterDate? first == some [] && rest.head?.any isAsciiDigit then first ++ ' ' :: word rest
      else first
  | _ => first

/-- The value that a word stands for. -/
def scalar? (text : List Char) : Option Entry :=
  if text = "true".toList then some (.truth true)
  else if text = "false".toList then some (.truth false)
  else if isMoment text then some .moment
  else
    match readInteger? text with
    | some number => some (.integer number)
    | none => if isFractional text then some .fraction else none

end Toml
end TemplateCascade

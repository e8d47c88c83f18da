import TemplateCascade.Number.Decimal
import TemplateCascade.Render.Calendar
import TemplateCascade.Render.Error

namespace TemplateCascade
namespace Render

/-!
# Date formats

A date format is text with directives, each a percent sign and a letter.  Between the two may stand
the padding of a single number: a hyphen for none, an underscore for blanks, a zero for zeros.
Moments are whole seconds of universal time, so fractions of a second and offsets from universal time
have the same text in all of them.  A format with anything else behind a percent sign is refused
whole.
-/

/-- What a number is filled up with on its left. -/
inductive Padding where
  | none
  | blanks
  | zeros
deriving DecidableEq, Repr

/-- A number that a directive shows. -/
inductive NumberField where
  | year
  | century
  | yearOfCentury
  | weekYear
  | weekYearOfCentury
  | quarter
  | month
  | dayOfMonth
  | dayOfYear
  | weekFromSunday
  | weekFromMonday
  | isoWeek
  | daysFromSunday
  | weekdayFromMonday
  | hour
  | dialHour
  | minute
  | second
  | nanosecond
  | timestamp
deriving DecidableEq, Repr

/-- A name that a directive shows. -/
inductive NameField where
  | month
  | shortMonth
  | weekday
  | shortWeekday
  | dayHalf
  | lowerDayHalf
deriving DecidableEq, Repr

/-- A piece of a date format. -/
inductive FormatItem where
  | text (content : List Char)
  | number (field : NumberField) (padding : Padding)
  | name (field : NameField)
deriving DecidableEq, Repr

/-! ## Writing -/

def monthNames : List String :=
  ["January", "February", "March", "April", "May", "June", "July", "August", "September",
    "October", "November", "December"]

def weekdayNames : List String :=
  ["Monday", "Tuesday", "Wednesday", "Thursday", "Friday", "Saturday", "Sunday"]

/-- A number of at least the given width, its sign included. -/
def writeInteger (width : Nat) (padding : Padding) (withSign : Bool) (number : Int) : List Char :=
  let sign := if number < 0 then ['-'] else if withSign then ['+'] else []
  let digits := Number.digits number.natAbs
  let fill := width - (sign.length + digits.length)
  match padding with
  | .none => sign ++ digits
  | .blanks => List.replicate fill ' ' ++ sign ++ digits
  | .zeros => sign ++ List.replicate fill '0' ++ digits

/-- A number of two digits; the tens count on behind nine in the order of the characters. -/
def writePair (padding : Padding) (number : Nat) : List Char :=
  let ones := Char.ofNat ('0'.toNat + number % 10)
  if number / 10 = 0 then
    match padding with
    | .none => [ones]
    | .blanks => [' ', ones]
    | .zeros => ['0', ones]
  else [Char.ofNat ('0'.toNat + number / 10), ones]

/-- A year: four digits, and one more with a sign when it is negative or has five digits. -/
def writeYear (padding : Padding) (year : Int) : List Char :=
  if 0 ≤ year && year < 10000 then writeInteger 4 padding false year
  else writeInteger 5 padding true year

/-- A number of a moment. -/
def NumberField.write (padding : Padding) (moment : Moment) : NumberField → List Char
  | .year => writeYear padding moment.day.year
  | .century => writePair padding (moment.day.year / 100 % 256).toNat
  | .yearOfCentury => writePair padding (moment.day.year % 100).toNat
  | .weekYear => writeYear padding moment.day.isoWeek.1
  | .weekYearOfCentury => writePair padding (moment.day.isoWeek.1 % 100).toNat
  | .quarter => Number.digits ((moment.day.month - 1) / 3 + 1)
  | .month => writePair padding moment.day.month
  | .dayOfMonth => writePair padding moment.day.dayOfMonth
  | .dayOfYear => writeInteger 3 padding false moment.day.dayOfYear
  | .weekFromSunday => writePair padding (moment.day.weekFrom 6)
  | .weekFromMonday => writePair padding (moment.day.weekFrom 0)
  | .isoWeek => writePair padding moment.day.isoWeek.2
  | .daysFromSunday => Number.digits ((moment.day.weekday + 1) % 7)
  | .weekdayFromMonday => Number.digits (moment.day.weekday + 1)
  | .hour => writePair padding moment.hour
  | .dialHour => writePair padding moment.dialHour
  | .minute => writePair padding moment.minute
  | .second => writePair padding moment.second
  | .nanosecond => writeInteger 9 padding false 0
  | .timestamp => writeInteger 9 padding false moment.timestamp

/-- A name of a moment. -/
def NameField.write (moment : Moment) (field : NameField) : List Char :=
  let month := (monthNames[moment.day.month - 1]?.getD "").toList
  let weekday := (weekdayNames[moment.day.weekday]?.getD "").toList
  match field with
  | .month => month
  | .shortMonth => month.take 3
  | .weekday => weekday
  | .shortWeekday => weekday.take 3
  | .dayHalf => if moment.hour < 12 then ['A', 'M'] else ['P', 'M']
  | .lowerDayHalf => if moment.hour < 12 then ['a', 'm'] else ['p', 'm']

def FormatItem.write (moment : Moment) : FormatItem → List Char
  | .text content => content
  | .number field padding => field.write padding moment
  | .name field => field.write moment

/-! ## Reading -/

/-- A number with zeros on its left. -/
def FormatItem.zeroed (field : NumberField) : FormatItem := .number field .zeros

/-- A piece of one character. -/
def FormatItem.mark (character : Char) : FormatItem := .text [character]

/-- Hours, minutes and seconds. -/
def clockItems : List FormatItem :=
  [.zeroed .hour, .mark ':', .zeroed .minute, .mark ':', .zeroed .second]

/-- Month, day and year of the century. -/
def slashedItems : List FormatItem :=
  [.zeroed .month, .mark '/', .zeroed .dayOfMonth, .mark '/', .zeroed .yearOfCentury]

/-- Year, month and day. -/
def dashedItems : List FormatItem :=
  [.zeroed .year, .mark '-', .zeroed .month, .mark '-', .zeroed .dayOfMonth]

/-- The directives of one letter. -/
def letterItems? : Char → Option (List FormatItem)
  | 'A' => some [.name .weekday]
  | 'a' => some [.name .shortWeekday]
  | 'B' => some [.name .month]
  | 'b' | 'h' => some [.name .shortMonth]
  | 'C' => some [.zeroed .century]
  | 'c' =>
      some ([.name .shortWeekday, .mark ' ', .name .shortMonth, .mark ' ',
        .number .dayOfMonth .blanks, .mark ' '] ++ clockItems ++ [.mark ' ', .zeroed .year])
  | 'D' | 'x' => some slashedItems
  | 'd' => some [.zeroed .dayOfMonth]
  | 'e' => some [.number .dayOfMonth .blanks]
  | 'F' => some dashedItems
  | 'f' => some [.zeroed .nanosecond]
  | 'G' => some [.zeroed .weekYear]
  | 'g' => some [.zeroed .weekYearOfCentury]
  | 'H' => some [.zeroed .hour]
  | 'I' => some [.zeroed .dialHour]
  | 'j' => some [.zeroed .dayOfYear]
  | 'k' => some [.number .hour .blanks]
  | 'l' => some [.number .dialHour .blanks]
  | 'M' => some [.zeroed .minute]
  | 'm' => some [.zeroed .month]
  | 'n' => some [.mark '\n']
  | 'P' => some [.name .lowerDayHalf]
  | 'p' => some [.name .dayHalf]
  | 'q' => some [.number .quarter .none]
  | 'R' => some [.zeroed .hour, .mark ':', .zeroed .minute]
  | 'r' =>
      some [.zeroed .dialHour, .mark ':', .zeroed .minute, .mark ':', .zeroed .second, .mark ' ',
        .name .dayHalf]
  | 'S' => some [.zeroed .second]
  | 's' => some [.number .timestamp .none]
  | 'T' | 'X' => some clockItems
  | 't' => some [.mark '\t']
  | 'U' => some [.zeroed .weekFromSunday]
  | 'u' => some [.number .weekdayFromMonday .none]
  | 'V' => some [.zeroed .isoWeek]
  | 'v' =>
      some [.number .dayOfMonth .blanks, .mark '-', .name .shortMonth, .mark '-', .zeroed .year]
  | 'W' => some [.zeroed .weekFromMonday]
  | 'w' => some [.number .daysFromSunday .none]
  | 'Y' => some [.zeroed .year]
  | 'y' => some [.zeroed .yearOfCentury]
  | 'Z' => some [.text ['U', 'T', 'C']]
  | 'z' => some [.text ['+', '0', '0', '0', '0']]
  | '+' =>
      some (dashedItems ++ .mark 'T' :: clockItems ++ [.text ['+', '0', '0', ':', '0', '0']])
  | '%' => some [.mark '%']
  | _ => none

/-- The digits of a fraction that is zero, for the counts of digits there are directives for. -/
def fractionDigits? : Char → Option (List Char)
  | '3' => some (List.replicate 3 '0')
  | '6' => some (List.replicate 6 '0')
  | '9' => some (List.replicate 9 '0')
  | _ => none

/-- What a directive stands for, and what follows it in the format. -/
abbrev Directive := List FormatItem × List Char

/-- A directive behind its percent sign and without padding. -/
def readDirective? : List Char → Option Directive
  | '#' :: 'z' :: rest => some ([], rest)
  | ':' :: ':' :: ':' :: 'z' :: rest => some ([.text ['+', '0', '0']], rest)
  | ':' :: ':' :: 'z' :: rest => some ([.text ['+', '0', '0', ':', '0', '0', ':', '0', '0']], rest)
  | ':' :: 'z' :: rest => some ([.text ['+', '0', '0', ':', '0', '0']], rest)
  | '.' :: 'f' :: rest => some ([], rest)
  | '.' :: count :: 'f' :: rest =>
      (fractionDigits? count).map fun digits => ([.text ('.' :: digits)], rest)
  | [] => none
  | letter :: rest =>
      match fractionDigits? letter, rest with
      | some digits, 'f' :: behind => some ([.text digits], behind)
      | _, _ => (letterItems? letter).map fun items => (items, rest)

/-- A directive with another padding, which only a single number can have. -/
def withPadding? (padding : Padding) : Directive → Option Directive
  | ([.number field _], rest) => some ([.number field padding], rest)
  | _ => none

/-- The padding a character asks for. -/
def paddingOf? : Char → Option Padding
  | '-' => some .none
  | '_' => some .blanks
  | '0' => some .zeros
  | _ => none

/-- A directive behind its percent sign. -/
def readPadded? : List Char → Option Directive
  | [] => none
  | first :: rest =>
      match paddingOf? first with
      | some padding => (readDirective? rest).bind (withPadding? padding)
      | none => readDirective? (first :: rest)

theorem length_of_readDirective? {text : List Char} {directive : Directive}
    (found : readDirective? text = some directive) : directive.2.length < text.length := by
  revert found
  fun_cases readDirective? text <;> intro found <;>
    simp only [Option.map_eq_some_iff, Option.some.injEq, reduceCtorEq] at found
  all_goals first
    | (subst found; simp only [List.length_cons]; omega)
    | (obtain ⟨_, _, rfl⟩ := found; simp only [List.length_cons]; omega)

theorem length_of_readPadded? {text : List Char} {directive : Directive}
    (found : readPadded? text = some directive) : directive.2.length < text.length := by
  cases text with
  | nil => simp [readPadded?] at found
  | cons first rest =>
      simp only [readPadded?] at found
      split at found
      · obtain ⟨plain, plainFound, padded⟩ := Option.bind_eq_some_iff.mp found
        have shorter := length_of_readDirective? plainFound
        unfold withPadding? at padded
        split at padded
        · simp only [Option.some.injEq] at padded
          subst padded
          exact Nat.lt_succ_of_lt shorter
        · simp at padded
      · exact length_of_readDirective? found

/-- The pieces of a whole format, `none` when it is refused. -/
def readFormat? (text : List Char) : Option (List FormatItem) :=
  match text with
  | [] => some []
  | first :: rest =>
      if first = '%' then
        match found : readPadded? rest with
        | none => none
        | some (items, behind) =>
            have : behind.length < rest.length := length_of_readPadded? found
            (readFormat? behind).map fun more => items ++ more
      else (readFormat? rest).map fun more => .mark first :: more
termination_by text.length
decreasing_by
  all_goals simp only [List.length_cons]
  all_goals omega

/-- The pieces of a format, or the error of refusing it. -/
def checkFormat (format : String) : Except RenderError (List FormatItem) :=
  match readFormat? format.toList with
  | some items => .ok items
  | none => .error (.dateFormat format)

/-- Write a timestamp in a format.  The format is looked at before the timestamp. -/
def formatTimestamp (format : String) (timestamp : Int) : Except RenderError String := do
  let items ← checkFormat format
  match Moment.ofTimestamp? timestamp with
  | some moment => .ok (String.ofList (items.flatMap (FormatItem.write moment)))
  | none => .error (.timestamp timestamp)

end Render
end TemplateCascade

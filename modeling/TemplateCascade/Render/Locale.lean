import TemplateCascade.Code.Basic
import TemplateCascade.Render.DateFormat

namespace TemplateCascade
namespace Render

/-!
# Locales

How numbers and dates are written.  Digits before the decimal point are grouped by threes, counted
from the point.
-/

/-- The conventions of one locale. -/
structure Locale where
  thousandsSeparator : String := ","
  decimalPoint : String := "."
  dateFormat : String := "%Y-%m-%d"
  timeFormat : String := "%H:%M"
  dateTimeFormat : String := "%Y-%m-%d %H:%M"
deriving DecidableEq, Repr

instance : Inhabited Locale := ⟨{}⟩

/-- Digits with a separator wherever a multiple of three of them follow. -/
def grouped (separator : List Char) : List Char → List Char
  | [] => []
  | digit :: rest =>
      if !rest.isEmpty && rest.length % 3 = 0 then digit :: separator ++ grouped separator rest
      else digit :: grouped separator rest

namespace Locale

/-- Check that every date format can be read; the first that cannot is the error. -/
def validate (locale : Locale) : Except RenderError Unit := do
  let _ ← checkFormat locale.dateFormat
  let _ ← checkFormat locale.timeFormat
  let _ ← checkFormat locale.dateTimeFormat

/-- The format of a kind of date when none is given. -/
def formatOf (locale : Locale) : FormatKind → String
  | .time => locale.timeFormat
  | .dateTime => locale.dateTimeFormat
  | _ => locale.dateFormat

/--
A number with a fixed count of decimals.  What rounds to zero has no sign, and neither has what is
not finite.
-/
def formatNumber (locale : Locale) (number : Float) (decimals : Nat) : String :=
  let (whole, fraction) := Number.fixedParts decimals number
  let isMark := fun digit => '1' ≤ digit && digit ≤ '9'
  let negative := number < 0 && (whole.any isMark || fraction.any isMark)
  let magnitude := grouped locale.thousandsSeparator.toList whole
  let decimalPart := if fraction.isEmpty then [] else locale.decimalPoint.toList ++ fraction
  String.ofList (Number.signText negative ++ magnitude ++ decimalPart)

/-- A timestamp in the given format, or in the locale's own. -/
def formatDate (locale : Locale) (kind : FormatKind) (timestamp : Int) (format : Option String) :
    Except RenderError String :=
  formatTimestamp (format.getD (locale.formatOf kind)) timestamp

end Locale

end Render
end TemplateCascade

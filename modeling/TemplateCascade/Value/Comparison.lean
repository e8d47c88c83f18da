import TemplateCascade.Value.Basic

namespace TemplateCascade
namespace Value

/-!
# Comparing values

Conditions compare values loosely: null and the booleans by truth, numbers with numbers and with the
texts that stand for numbers, and everything else by text.  The order compares two texts as numbers
when both are numbers and character by character otherwise, and every other pair by number.
-/

/-- The order of two doubles, undefined when one of them is the undefined number. -/
def compareNumbers (left right : Float) : Option Ordering :=
  if left < right then some .lt
  else if left == right then some .eq
  else if right < left then some .gt
  else none

/-- Whether a text stands for a given number. -/
def textEqualsNumber (text : String) (number : Float) : Bool :=
  match numberOf? text with
  | some read => number == read
  | none => false

/-- Loose equality. -/
def looselyEqual : Value → Value → Bool
  | .null, .null => true
  | .null, other => !other.isTruthy
  | other, .null => !other.isTruthy
  | .bool truth, other => truth == other.isTruthy
  | other, .bool truth => truth == other.isTruthy
  | .number left, .number right => left == right
  | .number amount, .string content => textEqualsNumber content amount
  | .string content, .number amount => textEqualsNumber content amount
  | left, right => left.text == right.text

/-- The loose order, undefined when it would compare the undefined number. -/
def looseOrder? (left right : Value) : Option Ordering :=
  match left, right with
  | .string leftText, .string rightText =>
      match numberOf? leftText, numberOf? rightText with
      | some leftNumber, some rightNumber => compareNumbers leftNumber rightNumber
      | _, _ => some (compare leftText rightText)
  | _, _ => compareNumbers left.toNumber right.toNumber

end Value
end TemplateCascade

import TemplateCascade.Code.ArgumentRange
import TemplateCascade.Code.Basic
import TemplateCascade.Number.Double

namespace TemplateCascade

/-!
# Calculations

Numbers are doubles throughout.  The only failure is a division by zero, which covers the remainder
of a division as well.  A calculation without values from the data can be carried out ahead of time
(`Arithmetic.fold?`); it is left for later when it would fail.
-/

/-- Why a calculation has no result. -/
inductive ArithmeticError where
  | divisionByZero
deriving DecidableEq, Repr

def ArithmeticError.message : ArithmeticError → String
  | .divisionByZero => "division by zero"

namespace ArithmeticOperator

def symbol : ArithmeticOperator → String
  | .add => "+"
  | .subtract => "-"
  | .multiply => "*"
  | .divide => "/"
  | .remainder => "%"

/-- Carry out an operation. -/
def apply (operator : ArithmeticOperator) (left right : Float) : Except ArithmeticError Float :=
  match operator with
  | .add => .ok (left + right)
  | .subtract => .ok (left - right)
  | .multiply => .ok (left * right)
  | .divide => if right == 0 then .error .divisionByZero else .ok (left / right)
  | .remainder =>
      if right == 0 then .error .divisionByZero else .ok (Number.remainder left right)

end ArithmeticOperator

namespace MathFunction

/-- The function of a name, in any letter case. -/
def ofName? (name : String) : Option MathFunction :=
  match Text.lowerAscii name with
  | "abs" => some absolute
  | "ceil" => some ceiling
  | "floor" => some floor
  | "max" => some maximum
  | "min" => some minimum
  | "pow" => some power
  | "round" => some round
  | _ => none

def name : MathFunction → String
  | absolute => "abs"
  | ceiling => "ceil"
  | floor => "floor"
  | maximum => "max"
  | minimum => "min"
  | power => "pow"
  | round => "round"

/-- How many arguments a function takes. -/
def arity : MathFunction → ArgumentRange
  | absolute | ceiling | floor => ⟨1, some 1⟩
  | round => ⟨1, some 2⟩
  | power => ⟨2, some 2⟩
  | maximum | minimum => ⟨1, none⟩

/--
Round to a number of decimal places, halves away from zero.  The places may be negative, and a
fraction in their number is cut off.
-/
def roundTo (places amount : Float) : Float :=
  let places := Number.clampedInteger (-Number.twoTo 31) (Number.twoTo 31 - 1) places
  let factor := Number.integerPower 10 places
  Number.Rounding.halfAway.apply (amount * factor) / factor

/--
Apply a function.  The extremes of a list pass over undefined numbers.  An argument that is missing
counts as zero, the second one of a power as one.
-/
def apply (function : MathFunction) (arguments : List Float) : Float :=
  let first := arguments.headD 0
  match function with
  | absolute => first.abs
  | ceiling => Number.Rounding.up.apply first
  | floor => Number.Rounding.down.apply first
  | maximum => arguments.foldl Number.larger (-Number.infinity)
  | minimum => arguments.foldl Number.smaller Number.infinity
  | power => first.pow (arguments[1]?.getD 1)
  | round => roundTo (arguments[1]?.getD 0) first

end MathFunction

mutual

/-- The result of a calculation without values from the data, unless it fails. -/
def Arithmetic.fold? : Arithmetic → Option Float
  | .number amount => some amount
  | .value _ => none
  | .negate inner => inner.fold?.map fun amount => -amount
  | .binary operator left right =>
      left.fold?.bind fun left => right.fold?.bind fun right => (operator.apply left right).toOption
  | .function function arguments => (foldAll? arguments).map function.apply

/-- The results of several calculations, if all have one. -/
def foldAll? : List Arithmetic → Option (List Float)
  | [] => some []
  | calculation :: rest =>
      calculation.fold?.bind fun amount => (foldAll? rest).map fun more => amount :: more

end

end TemplateCascade

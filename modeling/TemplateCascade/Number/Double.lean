import TemplateCascade.Number.Power

namespace TemplateCascade
namespace Number

/-!
# The value of a double

A finite double is a sign, a natural significand and a power of two.  Reading these off the bits
makes the operations that have to be exact (rounding to an integer, the remainder of a division,
printing) plain arithmetic on natural numbers.  The sign is kept for zero too.
-/

/-- What a double stands for: `significand * 2 ^ exponent` with a sign when it is finite. -/
inductive Double where
  | nan
  | infinite (negative : Bool)
  | finite (negative : Bool) (significand : Nat) (exponent : Int)
deriving DecidableEq, Repr

namespace Double

/-- Read a double off its bits: one of sign, eleven of exponent, fifty-two of significand. -/
def ofFloat (number : Float) : Double :=
  let bits : Nat := number.toBits.toNat
  let negative := bits / twoTo 63 == 1
  let biased : Nat := bits / twoTo 52 % twoTo 11
  let fraction : Nat := bits % twoTo 52
  if biased = 2047 then if fraction = 0 then infinite negative else nan
  else if biased = 0 then finite negative fraction (-1074)
  else finite negative (twoTo 52 + fraction) ((biased : Int) - 1075)

/--
The double with the given magnitude and sign.  The magnitude `significand * 2 ^ exponent` has to be
a double; bits below the last place of one are dropped.
-/
def assemble (negative : Bool) (significand : Nat) (exponent : Int) : Float :=
  let width : Int := Nat.log2 significand
  let unit : Int := max (exponent + width - 52) (-1074)
  let scaled : Nat :=
    if unit ≤ exponent then significand * twoTo (exponent - unit).toNat
    else significand / twoTo (unit - exponent).toNat
  let biased : Nat := if scaled < twoTo 52 then 0 else (unit + 1075).toNat
  let magnitude : Nat := biased * twoTo 52 + scaled % twoTo 52
  let sign : Nat := if negative then twoTo 63 else 0
  if significand = 0 then Float.ofBits (UInt64.ofNat sign)
  else Float.ofBits (UInt64.ofNat (sign + magnitude))

/-- Whether a double is neither infinite nor the undefined number. -/
def isFinite : Double → Bool
  | finite _ _ _ => true
  | _ => false

/-- The integer part of a double, `none` when it has none. -/
def truncated? : Double → Option Int
  | finite negative significand exponent =>
      let magnitude : Nat :=
        if 0 ≤ exponent then significand * twoTo exponent.toNat
        else significand / twoTo (-exponent).toNat
      some (if negative then -(magnitude : Int) else magnitude)
  | _ => none

end Double

/-- How the magnitude of a number with a fractional part is rounded to an integer. -/
inductive Rounding where
  | towardZero
  | down
  | up
  | halfAway
deriving DecidableEq, Repr

/--
Whether rounding takes the next larger magnitude, for a number whose fractional part is
`fraction / unit`.
-/
def Rounding.increases (rounding : Rounding) (negative : Bool) (fraction unit : Nat) : Bool :=
  match rounding with
  | .towardZero => false
  | .down => negative && fraction != 0
  | .up => !negative && fraction != 0
  | .halfAway => unit ≤ 2 * fraction

/-- Round a double to an integer, keeping its sign even when the integer is zero. -/
def Rounding.apply (rounding : Rounding) (number : Float) : Float :=
  match Double.ofFloat number with
  | .finite negative significand exponent =>
      if 0 ≤ exponent then number
      else
        let unit := twoTo (-exponent).toNat
        let whole := significand / unit
        let fraction := significand % unit
        Double.assemble negative
          (if rounding.increases negative fraction unit then whole + 1 else whole) 0
  | _ => number

/--
The integer nearest to a double on the side of zero, held between two bounds; zero for the undefined
number.
-/
def clampedInteger (low high : Int) (number : Float) : Int :=
  match Double.ofFloat number with
  | .nan => 0
  | .infinite negative => if negative then low else high
  | .finite negative significand exponent =>
      match Double.truncated? (.finite negative significand exponent) with
      | some whole => max low (min high whole)
      | none => 0

/--
The remainder of a division that rounds its quotient toward zero.  It has the sign of the dividend
and is exact.
-/
def remainder (dividend divisor : Float) : Float :=
  match Double.ofFloat dividend, Double.ofFloat divisor with
  | .finite negative significand exponent, .finite _ modulus modulusExponent =>
      if modulus = 0 then 0 / 0
      else
        let unit := min exponent modulusExponent
        let left := significand * twoTo (exponent - unit).toNat
        let right := modulus * twoTo (modulusExponent - unit).toNat
        Double.assemble negative (left % right) unit
  | .finite _ _ _, .infinite _ => dividend
  | _, _ => 0 / 0

/-- Multiply `result` by `base` raised to a natural exponent, by repeated squaring. -/
def timesPower (result base : Float) (exponent : Nat) : Float :=
  if exponent = 0 then result
  else timesPower (if exponent % 2 = 1 then result * base else result) (base * base) (exponent / 2)
termination_by exponent
decreasing_by omega

/--
An integer power by repeated squaring; a negative exponent takes the reciprocal of the positive
power.
-/
def integerPower (base : Float) (exponent : Int) : Float :=
  let power := timesPower 1 base exponent.natAbs
  if exponent < 0 then 1 / power else power

/-- The larger of two numbers.  An undefined number gives way to the other one. -/
def larger (left right : Float) : Float :=
  if left.isNaN then right else if left < right then right else left

/-- The smaller of two numbers.  An undefined number gives way to the other one. -/
def smaller (left right : Float) : Float :=
  if left.isNaN then right else if right < left then right else left

/-- The positive infinite double. -/
def infinity : Float := 1 / 0

end Number
end TemplateCascade

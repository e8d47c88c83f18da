namespace TemplateCascade

/-!
# Numbers of arguments

How many arguments a function takes: at least so many, and at most so many if there is a limit.
-/

/-- The numbers of arguments that a function takes. -/
structure ArgumentRange where
  least : Nat
  greatest : Option Nat
deriving DecidableEq, Repr

namespace ArgumentRange

/-- Whether a number of arguments is in the range. -/
def admits (range : ArgumentRange) (count : Nat) : Bool :=
  range.least ≤ count && range.greatest.all (count ≤ ·)

/-- How messages speak of the range. -/
def text (range : ArgumentRange) : String :=
  match range.greatest with
  | none => "at least " ++ toString range.least
  | some greatest =>
      if greatest = range.least then toString range.least
      else toString range.least ++ " to " ++ toString greatest

end ArgumentRange

end TemplateCascade

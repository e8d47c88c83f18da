namespace TemplateCascade

/-!
# Reading from a list

A grammar reads something off the front of a list of tokens and leaves the rest.  What is left is
never longer than what there was, and the result records this: it is why the recursion of a grammar
ends.
-/

/-- Something read off the front of some tokens, and the tokens behind it. -/
structure Parsed {Symbol : Type} (Result : Type) (input : List Symbol) where
  result : Result
  rest : List Symbol
  length_rest_le : rest.length ≤ input.length

namespace Parsed

variable {Symbol Result : Type}

/-- A result for which nothing had to be read. -/
def nothing (result : Result) (input : List Symbol) : Parsed Result input :=
  ⟨result, input, Nat.le_refl _⟩

/-- A result read off the first symbol alone. -/
def single (result : Result) {first : Symbol} (rest : List Symbol) :
    Parsed Result (first :: rest) :=
  ⟨result, rest, Nat.le_succ _⟩

end Parsed

end TemplateCascade

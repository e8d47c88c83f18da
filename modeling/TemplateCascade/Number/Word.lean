import TemplateCascade.Number.Power

namespace TemplateCascade
namespace Number

/-!
# Sums of words

Counts are natural numbers that fit into a word of 64 bits.  The sum of two words may be too large for a
word; then there is no sum, or the greatest word stands for it.
-/

/-- The bound that every word stays below. -/
def wordLimit : Nat := twoTo 64

/-- The sum of two words, `none` if it is no word. -/
def sum? (left right : Nat) : Option Nat :=
  if left + right < wordLimit then some (left + right) else none

/-- The sum of two words, or the greatest word in place of what is none. -/
def saturatingSum (left right : Nat) : Nat :=
  min (left + right) (wordLimit - 1)

theorem sum?_eq_some {left right : Nat} (fits : left + right < wordLimit) :
    sum? left right = some (left + right) :=
  if_pos fits

/-- Nothing is lost by the greatest word where no more than a word is asked for. -/
theorem min_saturatingSum {bound : Nat} (fits : bound < wordLimit) (left right : Nat) :
    min bound (saturatingSum left right) = min bound (left + right) := by
  unfold saturatingSum
  omega

end Number
end TemplateCascade

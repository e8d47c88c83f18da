namespace TemplateCascade
namespace Number

/-!
# Powers of two and ten

Doubles are written in powers of two and decimals in powers of ten.  Neither power is ever zero, so
dividing by one is always meaningful.
-/

/-- A power of two. -/
def twoTo (exponent : Nat) : Nat :=
  Nat.pow 2 exponent

/-- A power of ten. -/
def tenTo (exponent : Nat) : Nat :=
  Nat.pow 10 exponent

@[simp] theorem twoTo_zero : twoTo 0 = 1 := rfl

@[simp] theorem tenTo_zero : tenTo 0 = 1 := rfl

theorem twoTo_succ (exponent : Nat) : twoTo (exponent + 1) = twoTo exponent * 2 := rfl

theorem tenTo_succ (exponent : Nat) : tenTo (exponent + 1) = tenTo exponent * 10 := rfl

theorem twoTo_pos (exponent : Nat) : 0 < twoTo exponent := by
  induction exponent with
  | zero => exact Nat.one_pos
  | succ exponent positive => exact Nat.mul_pos positive Nat.two_pos

theorem tenTo_pos (exponent : Nat) : 0 < tenTo exponent := by
  induction exponent with
  | zero => exact Nat.one_pos
  | succ exponent positive => exact Nat.mul_pos positive (Nat.succ_pos 9)

theorem twoTo_add (first second : Nat) : twoTo (first + second) = twoTo first * twoTo second := by
  induction second with
  | zero => exact (Nat.mul_one _).symm
  | succ second together =>
      rw [← Nat.add_assoc, twoTo_succ, together, Nat.mul_assoc, ← twoTo_succ]

theorem tenTo_add (first second : Nat) : tenTo (first + second) = tenTo first * tenTo second := by
  induction second with
  | zero => exact (Nat.mul_one _).symm
  | succ second together =>
      rw [← Nat.add_assoc, tenTo_succ, together, Nat.mul_assoc, ← tenTo_succ]

end Number
end TemplateCascade

import TemplateCascade.Proofs.Number.ReadBack
import TemplateCascade.Render.Evaluation

namespace TemplateCascade
namespace Value

/-!
# A number and its text

The text of a number stands for the number almost everywhere.  It is no number itself, though, and the few
operations that ask for the kind of a value can tell the two apart: a text that is compared with it may be
written differently or be no number at all, and the undefined number is false while its name is true.
-/

open Float.Model (UnpackedFloat)
open Number

/-! ## The order of doubles -/

/-- Two unpacked numbers compare the other way round as they do one way. -/
theorem compare_swap (first second : UnpackedFloat) :
    second.compare first = (first.compare second).map Ordering.swap := by
  rcases first with (_ | _) | _ | (_ | _) | ⟨_ | _, left, leftExponent, leftPositive⟩ <;>
    rcases second with (_ | _) | _ | (_ | _) | ⟨_ | _, right, rightExponent, rightPositive⟩ <;>
    first
      | rfl
      | simp only [UnpackedFloat.compare, Option.map_some, Ordering.swap_then,
          ← Std.OrientedOrd.eq_swap]

theorem lt_iff (first second : Float) :
    first < second ↔ first.toModel.unpack.compare second.toModel.unpack = some .lt := by
  change decide ((first.toModel.unpack.compare second.toModel.unpack == some .lt) = true) = true ↔ _
  rw [decide_eq_true_iff, beq_iff_eq]

theorem not_lt_of_lt {first second : Float} (less : first < second) : ¬second < first := by
  rw [lt_iff] at less
  rw [lt_iff, compare_swap first.toModel.unpack, less]
  decide

theorem beq_eq (first second : Float) :
    (first == second) = (first.toModel.unpack.compare second.toModel.unpack == some .eq) := rfl

theorem compareNumbers_eq (left right : Float) :
    compareNumbers left right = left.toModel.unpack.compare right.toModel.unpack := by
  simp only [compareNumbers, lt_iff, beq_eq, compare_swap left.toModel.unpack]
  rcases left.toModel.unpack.compare right.toModel.unpack with _ | _ | _ | _ <;> rfl

/-- Without its sign, a number is what it was, or was the negative zero. -/
theorem unsigned_eq (number : Float) : unsigned number = number ∨ unsigned number = 0 ∧ number = -0 := by
  unfold unsigned
  split
  · next is_zero =>
    rcases (Float.beq_iff_ne_nan_and_eq.mp is_zero).2.2 with same | ⟨same, _⟩ | ⟨negative, _⟩
    · exact .inl same.symm
    · exact .inl same.symm
    · exact .inr ⟨rfl, negative⟩
  · exact .inl rfl

/-- The sign of zero does not count in comparisons. -/
theorem compareNumbers_unsigned (left right : Float) :
    compareNumbers (unsigned left) right = compareNumbers left right := by
  rcases unsigned_eq left with same | ⟨zero, negative⟩
  · rw [same]
  · rw [zero, negative, compareNumbers_eq, compareNumbers_eq, unpack_zero, unpack_neg_zero]
    rcases right.toModel.unpack with (_ | _) | _ | (_ | _) | ⟨_ | _, significand, exponent, positive⟩ <;>
      rfl

theorem compareNumbers_unsigned_right (left right : Float) :
    compareNumbers left (unsigned right) = compareNumbers left right := by
  rw [compareNumbers_eq, compare_swap, ← compareNumbers_eq, compareNumbers_unsigned, compareNumbers_eq,
    ← compare_swap, ← compareNumbers_eq]

theorem beq_unsigned (left right : Float) : (left == unsigned right) = (left == right) := by
  have order := compareNumbers_unsigned_right left right
  rw [compareNumbers_eq, compareNumbers_eq] at order
  rw [beq_eq, beq_eq, order]

/-! ## What a number and its text have in common -/

variable (number : Float)

@[simp] theorem text_numberText : (Value.string (numberText number)).text = (Value.number number).text := rfl

theorem toNumber_numberText : (Value.string (numberText number)).toNumber = unsigned number := by
  rw [toNumber, numberOf?_numberText]
  rfl

theorem numberText_ne_empty : numberText number ≠ "" := by
  intro is_empty
  have read := numberOf?_numberText number
  have none_ : numberOf? "" = none := by decide +kernel
  rw [is_empty, none_] at read
  contradiction

theorem numberText_eq_zero_iff : numberText number = "0" ↔ (number == 0) = true := by
  constructor
  · intro is_zero
    have read := numberOf?_numberText number
    rw [is_zero] at read
    have readZero : numberOf? "0" = some 0 := by decide +kernel
    have same := Option.some.inj (readZero.symm.trans read)
    rw [BEq.comm, ← beq_unsigned, ← same]
    decide +kernel
  · intro is_zero
    exact if_pos is_zero

/-- The truth of a number is that of its text, unless it is undefined. -/
theorem isTruthy_numberText {number : Float} (defined : number.isNaN = false) :
    (Value.string (numberText number)).isTruthy = (Value.number number).isTruthy := by
  have isZero : (numberText number == "0") = (number == 0) := by
    rw [Bool.eq_iff_iff, beq_iff_eq, numberText_eq_zero_iff]
  change (numberText number != "" && numberText number != "0") = (number != 0 && !number.isNaN)
  rw [bne, bne, bne, isZero, defined, beq_false_of_ne (numberText_ne_empty number)]
  simp

/-! The sign of zero does not count where a number is cut to an integer. -/

theorem countOf_unsigned : Render.countOf (unsigned number) = Render.countOf number := by
  rcases unsigned_eq number with same | ⟨zero, negative⟩
  · rw [same]
  · rw [zero, negative]
    decide +kernel

theorem timestampOf_unsigned : Render.timestampOf (unsigned number) = Render.timestampOf number := by
  rcases unsigned_eq number with same | ⟨zero, negative⟩
  · rw [same]
  · rw [zero, negative]
    decide +kernel

/-! ## Comparing a number and its text with other values -/

/--
A number and its text are equal to the same: what is compared by truth must not be compared with the undefined
number, and a text that stands for the number must be its own text.
-/
def EqualsAlike (number : Float) : Value → Prop
  | .null | .bool _ => number.isNaN = false
  | .string content =>
      (textEqualsNumber content number = true → content = numberText number) ∧
        (content = numberText number → number.isNaN = false)
  | _ => True

/-- A number and its text come before and after the same: a text must stand for a number. -/
def OrdersAlike : Value → Prop
  | .string content => (numberOf? content).isSome
  | _ => True

theorem looselyEqual_comm (left right : Value) : left.looselyEqual right = right.looselyEqual left := by
  cases left <;> cases right <;> first | rfl | exact BEq.comm

theorem textEqualsNumber_numberText {number : Float} (defined : number.isNaN = false) :
    textEqualsNumber (numberText number) number = true := by
  rw [textEqualsNumber, numberOf?_numberText]
  rw [Float.isNaN_eq_decide_eq_nan, decide_eq_false_iff_not] at defined
  exact (beq_unsigned number number).trans (Float.beq_self_iff.mpr defined)

theorem looselyEqual_numberText {number : Float} {value : Value} (alike : EqualsAlike number value) :
    (Value.string (numberText number)).looselyEqual value = (Value.number number).looselyEqual value := by
  cases value with
  | null => exact congrArg not (isTruthy_numberText alike)
  | bool truth => exact congrArg (truth == ·) (isTruthy_numberText alike)
  | number other =>
      change textEqualsNumber (numberText number) other = (number == other)
      rw [textEqualsNumber, numberOf?_numberText]
      exact (beq_unsigned other number).trans BEq.comm
  | string content =>
      change (numberText number == content) = textEqualsNumber content number
      rw [Bool.eq_iff_iff, beq_iff_eq]
      constructor
      · rintro rfl
        exact textEqualsNumber_numberText (alike.2 rfl)
      · intro stands
        exact (alike.1 stands).symm
  | list items => rfl
  | map entries => rfl

theorem looseOrder?_numberText (number : Float) {value : Value} (alike : OrdersAlike value) :
    (Value.string (numberText number)).looseOrder? value = (Value.number number).looseOrder? value ∧
      value.looseOrder? (.string (numberText number)) = value.looseOrder? (.number number) := by
  cases value with
  | string content =>
      obtain ⟨other, isNumber⟩ := Option.isSome_iff_exists.mp alike
      simp only [looseOrder?, toNumber, numberOf?_numberText, isNumber, Option.getD_some,
        compareNumbers_unsigned, compareNumbers_unsigned_right, and_self]
  | null | bool | number | list | map =>
      simp only [looseOrder?, toNumber_numberText, compareNumbers_unsigned,
        compareNumbers_unsigned_right]
      exact ⟨rfl, rfl⟩

/-- A number and its text compare alike with a value. -/
def ComparesAlike (operator : ComparisonOperator) (number : Float) (value : Value) : Prop :=
  match operator with
  | .equal | .unequal => EqualsAlike number value
  | _ => OrdersAlike value

theorem comparisonHolds_numberText {operator : ComparisonOperator} {number : Float} {value : Value}
    (alike : ComparesAlike operator number value) :
    Render.comparisonHolds operator (.string (numberText number)) value =
        Render.comparisonHolds operator (.number number) value ∧
      Render.comparisonHolds operator value (.string (numberText number)) =
        Render.comparisonHolds operator value (.number number) := by
  cases operator with
  | equal | unequal =>
      simp only [Render.comparisonHolds, looselyEqual_comm value, looselyEqual_numberText alike, and_self]
  | less | atMost | greater | atLeast =>
      have order := looseOrder?_numberText number alike
      simp only [Render.comparisonHolds, order.1, order.2, and_self]

end Value
end TemplateCascade

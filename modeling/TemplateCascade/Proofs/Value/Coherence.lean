import TemplateCascade.Proofs.Value.Numbers

namespace TemplateCascade
namespace Value

/-!
# Equality and order together

It does not matter to loose equality which of two values stands first, and the loose order turns around with
them.  The two ask different questions, though.  Equality goes by truth where a truth is compared, and by text
where a collection is, but the order goes by number.  So some values are equal and yet one comes before the
other: `true` and what counts as true, and values that show as `Array`.
-/

open Render (comparisonHolds)

/-! ## Turning the order around -/

theorem compareNumbers_swap (left right : Float) :
    compareNumbers right left = (compareNumbers left right).map Ordering.swap := by
  rw [compareNumbers_eq, compareNumbers_eq, compare_swap]

/-- Values are compared as numbers, unless both are texts. -/
theorem looseOrder?_eq_compareNumbers {left right : Value}
    (notTexts : left.string? = none ∨ right.string? = none) :
    left.looseOrder? right = compareNumbers left.toNumber right.toNumber := by
  cases left with
  | string content =>
      cases right with
      | string other => rcases notTexts with nothing | nothing <;> cases nothing
      | _ => rfl
  | _ => rfl

theorem looseOrder?_swap (left right : Value) :
    right.looseOrder? left = (left.looseOrder? right).map Ordering.swap := by
  by_cases notTexts : left.string? = none ∨ right.string? = none
  · rw [looseOrder?_eq_compareNumbers notTexts, looseOrder?_eq_compareNumbers notTexts.symm,
      compareNumbers_swap]
  · cases left with
    | string content =>
        cases right with
        | string other =>
            simp only [looseOrder?]
            rcases numberOf? content with _ | number
            · cases numberOf? other <;> exact congrArg some Std.OrientedOrd.eq_swap
            · cases numberOf? other with
              | none => exact congrArg some Std.OrientedOrd.eq_swap
              | some otherNumber => exact compareNumbers_swap number otherNumber
        | _ => exact absurd (.inr rfl) notTexts
    | _ => exact absurd (.inl rfl) notTexts

/-! ## Numbers that are apart -/

/-- One number is smaller than the other. -/
def Apart (left right : Float) : Prop :=
  left < right ∨ right < left

theorem apart_iff (left right : Float) :
    Apart left right ↔ compareNumbers left right = some .lt ∨ compareNumbers left right = some .gt := by
  rw [Apart, lt_iff, lt_iff, compare_swap left.toModel.unpack, compareNumbers_eq]
  rcases left.toModel.unpack.compare right.toModel.unpack with _ | _ | _ | _ <;> simp

theorem Apart.symm {left right : Float} (apart : Apart left right) : Apart right left :=
  Or.symm apart

theorem not_apart_of_beq {left right : Float} (same : (left == right) = true) : ¬ Apart left right := by
  rw [beq_eq, beq_iff_eq] at same
  rw [apart_iff, compareNumbers_eq, same]
  simp

theorem not_apart_of_isNaN {left right : Float} (undefined : right.isNaN = true) : ¬ Apart left right := by
  rw [Float.isNaN_eq_decide_eq_nan, decide_eq_true_iff] at undefined
  have unpacked : Float.nan.toModel.unpack = .notANumber := rfl
  have unordered : left.toModel.unpack.compare .notANumber = none := by
    rcases left.toModel.unpack with _ | _ | _ | _ <;> rfl
  rw [apart_iff, compareNumbers_eq, undefined, unpacked, unordered]
  simp

theorem not_apart_self (number : Float) : ¬ Apart number number := by
  rw [Apart, or_self]
  exact fun less => not_lt_of_lt less less

/-- What counts as false has the number zero, or none at all. -/
theorem not_apart_zero {value : Value} (isFalse : value.isTruthy = false) : ¬ Apart 0 value.toNumber := by
  cases value with
  | null => exact not_apart_self 0
  | bool truth =>
      cases isFalse
      exact not_apart_self 0
  | number amount =>
      change (!(amount == 0) && !amount.isNaN) = false at isFalse
      rw [Bool.and_eq_false_iff, Bool.not_eq_false', Bool.not_eq_false'] at isFalse
      rcases isFalse with zero | undefined
      · exact fun apart => not_apart_of_beq zero apart.symm
      · exact not_apart_of_isNaN undefined
  | string content =>
      have noNumber : content = "" ∨ content = "0" := by
        change (content != "" && content != "0") = false at isFalse
        simpa [or_iff_not_imp_left] using isFalse
      have numberless : (Value.string "").toNumber = 0 := by decide +kernel
      have zero : (Value.string "0").toNumber = 0 := by decide +kernel
      rcases noNumber with rfl | rfl
      · rw [numberless]
        exact not_apart_self 0
      · rw [zero]
        exact not_apart_self 0
  | list items =>
      cases items with
      | nil => exact not_apart_self 0
      | cons first rest => cases isFalse
  | map entries =>
      cases entries with
      | nil => exact not_apart_self 0
      | cons first rest => cases isFalse

/-! ## Equal values -/

/-- Whether a value is a collection, which has no text of its own. -/
def isCollection : Value → Bool
  | .list _ | .map _ => true
  | _ => false

/-- Two values are equal, and one of them comes before the other. -/
def Contradict (left right : Value) : Prop :=
  left.looselyEqual right = true ∧ (left.looseOrder? right = some .lt ∨ left.looseOrder? right = some .gt)

theorem Contradict.symm {left right : Value} (contradict : Contradict left right) : Contradict right left := by
  rcases contradict with ⟨equal, less | greater⟩
  · exact ⟨looselyEqual_comm left right ▸ equal, .inr (by rw [looseOrder?_swap, less]; rfl)⟩
  · exact ⟨looselyEqual_comm left right ▸ equal, .inl (by rw [looseOrder?_swap, greater]; rfl)⟩

/-- Unless both are texts, values contradict one another if they are equal and their numbers are apart. -/
theorem contradict_iff_apart {left right : Value} (notTexts : left.string? = none ∨ right.string? = none) :
    Contradict left right ↔ left.looselyEqual right = true ∧ Apart left.toNumber right.toNumber := by
  rw [Contradict, looseOrder?_eq_compareNumbers notTexts, apart_iff]

/-- Equal texts are the same, and no text comes before itself. -/
theorem not_contradict_strings (left right : String) : ¬ Contradict (.string left) (.string right) := by
  rintro ⟨equal, order⟩
  obtain rfl : left = right := beq_iff_eq.mp equal
  have turned := looseOrder?_swap (.string left) (.string left)
  rcases order with less | greater
  · rw [less] at turned
    cases turned
  · rw [greater] at turned
    cases turned

/-- The pairs of values in which equality and order disagree. -/
inductive AtOdds : Value → Value → Prop where
  /-- Whatever counts as true is equal to `true`, and the number of `true` is one. -/
  | truth {value : Value} (isTrue : value.isTruthy = true) (apart : Apart 1 value.toNumber) :
      AtOdds (.bool true) value
  /-- All collections have the same text, and their numbers are their sizes. -/
  | collections {left right : Value} (isLeft : left.isCollection = true) (isRight : right.isCollection = true)
      (apart : Apart left.toNumber right.toNumber) : AtOdds left right
  /-- That text is no number, and counts as zero. -/
  | name {value : Value} (isCollection : value.isCollection = true) (apart : Apart 0 value.toNumber) :
      AtOdds (.string "Array") value
  | symm {left right : Value} (atOdds : AtOdds left right) : AtOdds right left

/-! ## Which values contradict one another -/

theorem null_looselyEqual (value : Value) : Value.null.looselyEqual value = !value.isTruthy := by
  cases value <;> rfl

theorem bool_looselyEqual (truth : Bool) (value : Value) :
    (Value.bool truth).looselyEqual value = (truth == value.isTruthy) := by
  cases value with
  | null => cases truth <;> rfl
  | _ => rfl

/-- A collection is equal to a text, or to another collection, if that shows the same. -/
theorem looselyEqual_collection {left right : Value} (isCollection : right.isCollection = true)
    (comparesByText : left.string?.isSome = true ∨ left.isCollection = true) :
    left.looselyEqual right = (left.text == "Array") := by
  cases left with
  | null | bool | number => rcases comparesByText with nothing | nothing <;> cases nothing
  | string | list | map =>
      cases right with
      | list | map => rfl
      | null | bool | number | string => cases isCollection

theorem string?_of_isCollection {value : Value} (isCollection : value.isCollection = true) :
    value.string? = none := by
  cases value <;> first | rfl | cases isCollection

theorem text_of_isCollection {value : Value} (isCollection : value.isCollection = true) :
    value.text = "Array" := by
  cases value <;> first | rfl | cases isCollection

theorem not_contradict_null (value : Value) : ¬ Contradict .null value := by
  rw [contradict_iff_apart (.inl rfl), null_looselyEqual, Bool.not_eq_true']
  rintro ⟨counted, apart⟩
  exact not_apart_zero counted apart

theorem Contradict.atOdds_bool {truth : Bool} {value : Value} (contradict : Contradict (.bool truth) value) :
    AtOdds (.bool truth) value := by
  rw [contradict_iff_apart (.inl rfl), bool_looselyEqual, beq_iff_eq] at contradict
  rcases contradict with ⟨same, apart⟩
  cases truth with
  | false => exact absurd apart (not_apart_zero same.symm)
  | true => exact .truth same.symm apart

theorem not_contradict_numbers (left right : Float) : ¬ Contradict (.number left) (.number right) := by
  rw [contradict_iff_apart (.inl rfl)]
  rintro ⟨same, apart⟩
  exact not_apart_of_beq same apart

theorem not_contradict_number_string (amount : Float) (content : String) :
    ¬ Contradict (.number amount) (.string content) := by
  rw [contradict_iff_apart (.inl rfl)]
  rintro ⟨equal, apart⟩
  change textEqualsNumber content amount = true at equal
  change Apart amount ((numberOf? content).getD 0) at apart
  unfold textEqualsNumber at equal
  cases read : numberOf? content with
  | none =>
      rw [read] at equal
      cases equal
  | some number =>
      rw [read] at equal apart
      exact not_apart_of_beq equal apart

/-- The text of a number is a number, and that of a collection is none. -/
theorem not_contradict_number_collection (amount : Float) {value : Value}
    (isCollection : value.isCollection = true) : ¬ Contradict (.number amount) value := by
  rintro ⟨equal, _⟩
  have name : numberText amount = "Array" := by
    cases value with
    | list | map => exact beq_iff_eq.mp equal
    | _ => cases isCollection
  have read := numberOf?_numberText amount
  have noNumber : numberOf? "Array" = none := by decide +kernel
  rw [name, noNumber] at read
  cases read

theorem toNumber_array : (Value.string "Array").toNumber = 0 := by decide +kernel

theorem Contradict.atOdds_string_collection {content : String} {value : Value}
    (contradict : Contradict (.string content) value) (isCollection : value.isCollection = true) :
    AtOdds (.string content) value := by
  rw [contradict_iff_apart (.inr (string?_of_isCollection isCollection)),
    looselyEqual_collection isCollection (.inl rfl), beq_iff_eq] at contradict
  rcases contradict with ⟨name, apart⟩
  obtain rfl : content = "Array" := name
  rw [toNumber_array] at apart
  exact .name isCollection apart

theorem Contradict.atOdds_collections {left right : Value} (contradict : Contradict left right)
    (isLeft : left.isCollection = true) (isRight : right.isCollection = true) : AtOdds left right := by
  rw [contradict_iff_apart (.inl (string?_of_isCollection isLeft))] at contradict
  exact .collections isLeft isRight contradict.2

/-- Every pair of kinds is looked at once, in the order in which equality looks at them. -/
theorem Contradict.atOdds {left right : Value} (contradict : Contradict left right) : AtOdds left right := by
  cases left with
  | null => exact absurd contradict (not_contradict_null right)
  | bool truth => exact contradict.atOdds_bool
  | number amount =>
      cases right with
      | null => exact absurd contradict.symm (not_contradict_null _)
      | bool truth => exact contradict.symm.atOdds_bool.symm
      | number other => exact absurd contradict (not_contradict_numbers amount other)
      | string content => exact absurd contradict (not_contradict_number_string amount content)
      | list | map => exact absurd contradict (not_contradict_number_collection amount rfl)
  | string content =>
      cases right with
      | null => exact absurd contradict.symm (not_contradict_null _)
      | bool truth => exact contradict.symm.atOdds_bool.symm
      | number amount => exact absurd contradict.symm (not_contradict_number_string amount content)
      | string other => exact absurd contradict (not_contradict_strings content other)
      | list | map => exact contradict.atOdds_string_collection rfl
  | list | map =>
      cases right with
      | null => exact absurd contradict.symm (not_contradict_null _)
      | bool truth => exact contradict.symm.atOdds_bool.symm
      | number amount => exact absurd contradict.symm (not_contradict_number_collection amount rfl)
      | string content => exact (contradict.symm.atOdds_string_collection rfl).symm
      | list | map => exact contradict.atOdds_collections rfl rfl

theorem AtOdds.contradict {left right : Value} (atOdds : AtOdds left right) : Contradict left right := by
  induction atOdds with
  | truth isTrue apart =>
      rw [contradict_iff_apart (.inl rfl), bool_looselyEqual, isTrue]
      exact ⟨rfl, apart⟩
  | collections isLeft isRight apart =>
      rw [contradict_iff_apart (.inl (string?_of_isCollection isLeft)),
        looselyEqual_collection isRight (.inr isLeft), text_of_isCollection isLeft]
      exact ⟨rfl, apart⟩
  | name isCollection apart =>
      rw [contradict_iff_apart (.inr (string?_of_isCollection isCollection)),
        looselyEqual_collection isCollection (.inl rfl), toNumber_array]
      exact ⟨rfl, apart⟩
  | symm _ inductionHypothesis => exact inductionHypothesis.symm

/--
Equality is the same both ways and the order turns around.  Conditions find two values equal and one of them
less than the other exactly if the values are at odds.
-/
theorem comparisons_cohere (left right : Value) :
    left.looselyEqual right = right.looselyEqual left ∧
      right.looseOrder? left = (left.looseOrder? right).map Ordering.swap ∧
      (comparisonHolds .equal left right = true ∧
          (comparisonHolds .less left right = true ∨ comparisonHolds .greater left right = true) ↔
        AtOdds left right) := by
  refine ⟨looselyEqual_comm left right, looseOrder?_swap left right, ?_⟩
  simp only [comparisonHolds, beq_iff_eq]
  exact ⟨Contradict.atOdds, AtOdds.contradict⟩

/-- The number five counts as true, and is greater than the number of `true`. -/
theorem true_equals_greater_five :
    comparisonHolds .equal (.bool true) (.number 5) = true ∧
      comparisonHolds .less (.bool true) (.number 5) = true := by
  decide +kernel

end Value
end TemplateCascade

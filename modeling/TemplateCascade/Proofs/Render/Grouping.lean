import TemplateCascade.Proofs.Number.FixedPoint
import TemplateCascade.Proofs.Value.Numbers
import TemplateCascade.Render.Locale

namespace TemplateCascade
namespace Render

/-!
# Numbers of a locale

A locale writes the fixed text of a number and only regroups it: separators between its digits by threes, and
its own text for the point.  Opposite numbers have the same text but for a minus sign, which nothing gets that is
rounded to zero.  An infinity has no digits, and loses its sign with them.
-/

open Number
open Text (isAsciiDigit)

/-! ## Separators -/

/-- What stands behind a digit that is followed by some others. -/
def separatorBehind (separator : List Char) (others : Nat) : List Char :=
  if 0 < others ∧ 3 ∣ others then separator else []

/-- Digits with a separator behind every one that is followed by a positive multiple of three others. -/
def separated (separator digits : List Char) : List Char :=
  digits.zipIdx.flatMap fun entry =>
    entry.1 :: separatorBehind separator (digits.length - (entry.2 + 1))

theorem grouped_cons (separator : List Char) (digit : Char) (rest : List Char) :
    grouped separator (digit :: rest) =
      digit :: separatorBehind separator rest.length ++ grouped separator rest := by
  have same : (!rest.isEmpty && rest.length % 3 = 0) = true ↔ 0 < rest.length ∧ 3 ∣ rest.length := by
    rw [Bool.and_eq_true, Bool.not_eq_true', List.isEmpty_eq_false_iff, ← List.length_pos_iff,
      decide_eq_true_iff, Nat.dvd_iff_mod_eq_zero]
  rw [grouped, separatorBehind]
  simp only [same]
  split <;> rfl

/-- The places of digits may be counted from any number on. -/
theorem flatMap_zipIdx_eq_grouped (separator digits : List Char) (start : Nat) :
    (digits.zipIdx start).flatMap (fun entry =>
      entry.1 :: separatorBehind separator (start + digits.length - (entry.2 + 1))) =
        grouped separator digits := by
  induction digits generalizing start with
  | nil => rfl
  | cons digit rest inductionHypothesis =>
      have others : start + (rest.length + 1) - (start + 1) = rest.length := by omega
      have total : start + (rest.length + 1) = start + 1 + rest.length := by omega
      rw [List.zipIdx_cons, List.flatMap_cons, List.length_cons, others, total, inductionHypothesis,
        grouped_cons]

theorem grouped_eq_separated (separator digits : List Char) :
    grouped separator digits = separated separator digits := by
  rw [← flatMap_zipIdx_eq_grouped separator digits 0, separated]
  simp only [Nat.zero_add]

/-! ## The sign -/

/-- A digit that is no zero. -/
def isMark (digit : Char) : Bool :=
  '1' ≤ digit && digit ≤ '9'

theorem isMark_iff {digit : Char} (isDigit : isAsciiDigit digit = true) :
    isMark digit = true ↔ digit.toNat - '0'.toNat ≠ 0 := by
  have atMostNine := (isAsciiDigit_iff.mp isDigit).2
  rw [isMark, Bool.and_eq_true, decide_eq_true_iff, decide_eq_true_iff, Char.le_def, Char.le_def,
    UInt32.le_iff_toNat_le, UInt32.le_iff_toNat_le]
  change 49 ≤ digit.toNat ∧ digit.toNat ≤ 57 ↔ digit.toNat - 48 ≠ 0
  change digit.toNat ≤ 57 at atMostNine
  omega

/-- Digits stand for zero if all of them are zeros. -/
theorem any_isMark_iff {digits : List Char} (isDigit : ∀ digit ∈ digits, isAsciiDigit digit = true) :
    digits.any isMark = true ↔ ofDigits digits ≠ 0 := by
  induction digits with
  | nil => exact iff_of_false Bool.false_ne_true fun some_ => some_ rfl
  | cons digit rest inductionHypothesis =>
      rw [List.forall_mem_cons] at isDigit
      have positive : 10 ^ rest.length ≠ 0 := (Nat.pow_pos (by decide)).ne'
      rw [List.any_cons, Bool.or_eq_true, isMark_iff isDigit.1, inductionHypothesis isDigit.2, ofDigits_cons,
        ne_eq, ne_eq, ne_eq, Nat.add_eq_zero_iff, Nat.mul_eq_zero, not_and_or, not_or]
      simp only [positive, not_false_eq_true, true_and]

/-- Whether a number is finite, and nothing of it is left in so many places. -/
def roundsToZero (places : Nat) (number : Float) : Bool :=
  (magnitude? number).any fun magnitude => magnitude * 10 ^ places ≤ 1 / 2

/-- Whether a number has a minus sign: it is negative and finite, and something of it is left. -/
def isSigned (places : Nat) (number : Float) : Bool :=
  number < 0 && (magnitude? number).isSome && !roundsToZero places number

theorem any_isMark_fixedText {places : Nat} {number : Float} {whole fraction : List Char}
    (isText : FixedText places number whole fraction) :
    (whole.any isMark || fraction.any isMark) =
      ((magnitude? number).isSome && !roundsToZero places number) := by
  rw [← List.any_append, Bool.eq_iff_iff]
  cases isText with
  | finite isMagnitude isText =>
      rw [any_isMark_iff isText.isDigit, roundsToZero, isMagnitude]
      simp [isText.nearest.eq_zero_iff]
  | infinite isInfinite =>
      rw [magnitude?_of_infinite isInfinite]
      exact iff_of_false (by decide) Bool.false_ne_true

/-- What is less than zero is the negative of what zero is less than. -/
theorem neg_lt_zero_iff (number : Float) : -number < 0 ↔ 0 < number := by
  rw [Value.lt_iff, Value.lt_iff, unpack_neg, unpack_zero]
  rcases number.toModel.unpack with (_ | _) | _ | (_ | _) | ⟨_ | _, significand, exponent, positive⟩ <;>
    rfl

/-! ## The whole text -/

theorem fraction_ne_nil_iff {places : Nat} {number : Float} {whole fraction : List Char}
    (isText : FixedText places number whole fraction) :
    fraction ≠ [] ↔ 0 < places ∧ (magnitude? number).isSome = true := by
  cases isText with
  | finite isMagnitude isText =>
      rw [← List.length_pos_iff, isText.length, isMagnitude]
      exact (and_iff_left rfl).symm
  | infinite isInfinite =>
      rw [magnitude?_of_infinite isInfinite]
      exact iff_of_false (fun some_ => some_ rfl) fun isFinite => Bool.false_ne_true isFinite.2

/-- The text of a number, by its digits before and behind the point. -/
theorem toList_formatNumber (locale : Locale) (number : Float) (places : Nat) :
    (locale.formatNumber number places).toList =
      signText (number < 0 &&
          ((fixedParts places number).1.any isMark || (fixedParts places number).2.any isMark)) ++
        separated locale.thousandsSeparator.toList (fixedParts places number).1 ++
        if (fixedParts places number).2 ≠ [] then locale.decimalPoint.toList ++ (fixedParts places number).2
        else [] := by
  rw [← grouped_eq_separated]
  simp only [ne_eq, ite_not, ← List.isEmpty_iff]
  exact String.toList_ofList

/-- A positive number and its opposite have one text, but for the sign of what is left of the latter. -/
theorem formatNumber_neg (locale : Locale) {number : Float} (positive : 0 < number) (places : Nat) :
    locale.formatNumber (-number) places =
      if (fixedParts places number).1.any isMark || (fixedParts places number).2.any isMark
      then "-" ++ locale.formatNumber number places
      else locale.formatNumber number places := by
  have isNegative : decide (-number < 0) = true := decide_eq_true ((neg_lt_zero_iff number).mpr positive)
  have notNegative : decide (number < 0) = false := decide_eq_false (Value.not_lt_of_lt positive)
  rw [← String.toList_inj, toList_formatNumber, fixedParts_neg, isNegative, Bool.true_and]
  cases marks : (fixedParts places number).1.any isMark || (fixedParts places number).2.any isMark with
  | false => rw [if_neg Bool.false_ne_true, toList_formatNumber, marks, Bool.and_false]
  | true =>
      rw [if_pos rfl, String.toList_append, toList_formatNumber, notNegative, Bool.false_and]
      rfl

/--
The text of a number is its fixed text, regrouped.  That of the opposite of a positive number has a minus sign in
front, unless the number is infinite or rounded to zero.
-/
theorem formatNumber_regroups (locale : Locale) {number : Float} (defined : number.isNaN = false)
    (places : Nat) :
    (∃ whole fraction, FixedText places number whole fraction) ∧
    (∀ {whole fraction}, FixedText places number whole fraction →
      (locale.formatNumber number places).toList =
        signText (isSigned places number) ++ separated locale.thousandsSeparator.toList whole ++
          if 0 < places ∧ (magnitude? number).isSome = true then locale.decimalPoint.toList ++ fraction
          else []) ∧
    (0 < number → locale.formatNumber (-number) places =
      if (magnitude? number).isSome = true ∧ roundsToZero places number = false
      then "-" ++ locale.formatNumber number places
      else locale.formatNumber number places) := by
  have isText := fixedText_fixedParts defined places
  have marks := any_isMark_fixedText isText
  refine ⟨⟨_, _, isText⟩, ?regrouped, ?opposite⟩
  case regrouped =>
    intro whole fraction otherText
    obtain ⟨rfl, rfl⟩ := isText.unique otherText
    rw [toList_formatNumber, marks, ← Bool.and_assoc, ← isSigned]
    simp only [fraction_ne_nil_iff isText]
  case opposite =>
    intro positive
    rw [formatNumber_neg locale positive, marks]
    simp only [Bool.and_eq_true, Bool.not_eq_true']

/-- A debt of more than a million has its separators and its sign. -/
theorem formatNumber_debt :
    (1234567.891 : Float).isNaN = false ∧ (0 : Float) < 1234567.891 ∧
      ({} : Locale).formatNumber (-1234567.891) 2 = "-1,234,567.89" := by
  have defined : (1234567.891 : Float).isNaN = false := by decide +kernel
  have positive : (0 : Float) < 1234567.891 := by decide +kernel
  have left : (magnitude? 1234567.891).isSome = true ∧ roundsToZero 2 1234567.891 = false := by
    decide +kernel
  have asset : ({} : Locale).formatNumber 1234567.891 2 = "1,234,567.89" := by decide +kernel
  refine ⟨defined, positive, ?_⟩
  rw [(formatNumber_regroups {} defined 2).2.2 positive, if_pos left, asset]
  rfl

/-- The negative infinity is written as the positive one. -/
theorem negative_infinity_unsigned :
    (0 : Float) < infinity ∧ infinity.isNaN = false ∧ roundsToZero 0 infinity = false ∧
      ({} : Locale).formatNumber (-infinity) 0 = "inf" ∧
      "-" ++ ({} : Locale).formatNumber infinity 0 = "-inf" := by
  decide +kernel

end Render
end TemplateCascade

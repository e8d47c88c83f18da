import TemplateCascade.Proofs.Number.ReadBack

namespace TemplateCascade
namespace Number

/-!
# Numbers with fixed places

The text of a double with a fixed count of decimal places is the multiple of the last place that is nearest to
its magnitude, and of two equally near ones the even one.  Its digits before the point have no zeros in front of
them, and its digits behind the point are as many as there are places.  There is no other text like that.
-/

open Float.Model (UnpackedFloat)
open Text (isAsciiDigit)

/-! ## The nearest integer -/

/-- An integer is nearest to a number, and even if another one is as near. -/
structure NearestEven (integer : Nat) (number : ℚ) : Prop where
  above : (integer : ℚ) - 1 / 2 ≤ number
  below : number ≤ integer + 1 / 2
  strict : integer % 2 = 1 → (integer : ℚ) - 1 / 2 < number ∧ number < integer + 1 / 2

variable {denominator : Nat}

theorem part_lt_half_iff (rest : Nat) (positive : 0 < denominator) :
    (rest : ℚ) / denominator < 1 / 2 ↔ 2 * rest < denominator := by
  rw [div_lt_div_iff₀ (by exact_mod_cast positive) two_pos, one_mul, mul_comm]
  norm_cast

theorem half_lt_part_iff (rest : Nat) (positive : 0 < denominator) :
    1 / 2 < (rest : ℚ) / denominator ↔ denominator < 2 * rest := by
  rw [div_lt_div_iff₀ two_pos (by exact_mod_cast positive), one_mul, mul_comm]
  norm_cast

theorem nearestEven_divideToEven (numerator : Nat) (positive : 0 < denominator) :
    NearestEven (divideToEven numerator denominator) (numerator / denominator) := by
  have cast_positive : (0 : ℚ) < denominator := by exact_mod_cast positive
  have parts : (numerator : ℚ) / denominator =
      (numerator / denominator : Nat) + (numerator % denominator : Nat) / denominator := by
    rw [add_div_eq_mul_add_div _ _ cast_positive.ne']
    congr 1
    exact_mod_cast (Nat.div_add_mod' numerator denominator).symm
  have least : (0 : ℚ) ≤ (numerator % denominator : Nat) / denominator := by positivity
  have greatest : ((numerator % denominator : Nat) : ℚ) / denominator < 1 := by
    rw [div_lt_one cast_positive]
    exact_mod_cast Nat.mod_lt numerator positive
  have before := part_lt_half_iff (numerator % denominator) positive
  have behind := half_lt_part_iff (numerator % denominator) positive
  rw [parts, divideToEven]
  generalize numerator / denominator = whole
  generalize numerator % denominator = rest at least greatest before behind ⊢
  generalize (rest : ℚ) / denominator = part at least greatest before behind ⊢
  have next : ((whole + 1 : Nat) : ℚ) = whole + 1 := Nat.cast_succ whole
  split
  · next smaller =>
      have isBefore := before.mpr smaller
      exact ⟨by linarith, by linarith, fun _ => ⟨by linarith, by linarith⟩⟩
  split
  · next _ larger =>
      have isBehind := behind.mpr larger
      exact ⟨by linarith, by linarith, fun _ => ⟨by linarith, by linarith⟩⟩
  · next notSmaller notLarger =>
      have middle : part = 1 / 2 :=
        le_antisymm (not_lt.mp (behind.not.mpr notLarger)) (not_lt.mp (before.not.mpr notSmaller))
      split
      · next even => exact ⟨by linarith, by linarith, fun odd => by omega⟩
      · next odd => exact ⟨by linarith, by linarith, fun oddNext => by omega⟩

/-- Nothing is nearest to a number that is not larger than a half. -/
theorem NearestEven.eq_zero_iff {integer : Nat} {number : ℚ} (nearest : NearestEven integer number) :
    integer = 0 ↔ number ≤ 1 / 2 := by
  constructor
  · rintro rfl
    have below := nearest.below
    rw [Nat.cast_zero, zero_add] at below
    exact below
  · intro small
    have above := nearest.above
    have atMostOne : integer ≤ 1 := by
      have : (integer : ℚ) ≤ 1 := by linarith
      exact_mod_cast this
    by_contra some_
    obtain rfl : integer = 1 := by omega
    have strictlyAbove := (nearest.strict rfl).1
    rw [Nat.cast_one] at strictlyAbove
    linarith

theorem NearestEven.unique {integer other : Nat} {number : ℚ} (nearest : NearestEven integer number)
    (otherNearest : NearestEven other number) : integer = other := by
  wlog atMost : integer ≤ other generalizing integer other
  · exact (this otherNearest nearest (Nat.le_of_not_le atMost)).symm
  by_contra distinct
  have above := otherNearest.above
  have below := nearest.below
  obtain rfl : other = integer + 1 := by
    have atMostNext : (other : ℚ) ≤ (integer + 1 : Nat) := by
      rw [Nat.cast_succ]
      linarith
    have := Nat.cast_le.mp atMostNext
    omega
  -- one of two neighbours is odd, and then strictly nearer
  rw [Nat.cast_succ] at above
  rcases Nat.mod_two_eq_zero_or_one integer with even | odd
  · have strictly := (otherNearest.strict (by omega)).1
    rw [Nat.cast_succ] at strictly
    linarith
  · linarith [(nearest.strict odd).2]

/-! ## Digits -/

theorem ofDigits_cons (digit : Char) (rest : List Char) :
    ofDigits (digit :: rest) = 10 ^ rest.length * (digit.toNat - '0'.toNat) + ofDigits rest := by
  have single : ofDigits [digit] = digit.toNat - '0'.toNat := by
    rw [ofDigits, List.foldl_cons, List.foldl_nil, Nat.zero_mul, Nat.zero_add]
  rw [← List.singleton_append, ofDigits_append, single]

theorem isAsciiDigit_iff {digit : Char} :
    isAsciiDigit digit = true ↔ '0'.toNat ≤ digit.toNat ∧ digit.toNat ≤ '9'.toNat := by
  rw [isAsciiDigit, Bool.and_eq_true, decide_eq_true_iff, decide_eq_true_iff, Char.le_def, Char.le_def,
    UInt32.le_iff_toNat_le, UInt32.le_iff_toNat_le]
  rfl

theorem ofDigits_lt {digits : List Char} (isDigit : ∀ digit ∈ digits, isAsciiDigit digit = true) :
    ofDigits digits < 10 ^ digits.length := by
  induction digits with
  | nil => decide
  | cons digit rest inductionHypothesis =>
      rw [List.forall_mem_cons, isAsciiDigit_iff] at isDigit
      have value : digit.toNat - '0'.toNat ≤ 9 := by
        have := isDigit.1.2
        change digit.toNat ≤ 57 at this
        change digit.toNat - 48 ≤ 9
        omega
      calc ofDigits (digit :: rest)
          = 10 ^ rest.length * (digit.toNat - '0'.toNat) + ofDigits rest := ofDigits_cons digit rest
        _ < 10 ^ rest.length * 9 + 10 ^ rest.length :=
            Nat.add_lt_add_of_le_of_lt (Nat.mul_le_mul_left _ value) (inductionHypothesis isDigit.2)
        _ = 10 ^ (digit :: rest).length := by rw [List.length_cons, Nat.pow_succ]; omega

/-- A number and a rest that is smaller than a unit are read off their sum. -/
theorem parts_eq {unit first second rest otherRest : Nat} (less : rest < unit) (otherLess : otherRest < unit)
    (same : unit * first + rest = unit * second + otherRest) : first = second ∧ rest = otherRest := by
  have sameRest : rest = otherRest := by
    have remainder := congrArg (· % unit) same
    simpa only [Nat.mul_add_mod, Nat.mod_eq_of_lt less, Nat.mod_eq_of_lt otherLess] using remainder
  rw [sameRest, Nat.add_right_cancel_iff, Nat.mul_right_inj (by omega)] at same
  exact ⟨same, sameRest⟩

theorem eq_of_ofDigits_eq {digits others : List Char}
    (isDigit : ∀ digit ∈ digits, isAsciiDigit digit = true)
    (areDigits : ∀ digit ∈ others, isAsciiDigit digit = true) (length : digits.length = others.length)
    (same : ofDigits digits = ofDigits others) : digits = others := by
  induction digits generalizing others with
  | nil => exact (List.eq_nil_of_length_eq_zero length.symm).symm
  | cons digit rest inductionHypothesis =>
      cases others with
      | nil => cases length
      | cons other remaining =>
          have restLength := Nat.succ.inj length
          rw [List.forall_mem_cons] at isDigit areDigits
          have less := ofDigits_lt isDigit.2
          have otherLess := ofDigits_lt areDigits.2
          rw [ofDigits_cons, ofDigits_cons, ← restLength] at same
          rw [← restLength] at otherLess
          obtain ⟨sameValue, sameRest⟩ := parts_eq less otherLess same
          have first := isAsciiDigit_iff.mp isDigit.1
          have second := isAsciiDigit_iff.mp areDigits.1
          have sameDigit : digit = other := Char.toNat_inj.mp (by omega)
          rw [sameDigit, inductionHypothesis isDigit.2 areDigits.2 restLength sameRest]

theorem length_le_of_ofDigits_eq {digits others : List Char}
    (isDigit : ∀ digit ∈ digits, isAsciiDigit digit = true)
    (areDigits : ∀ digit ∈ others, isAsciiDigit digit = true) (written : digits ≠ [])
    (unpadded : ∀ rest, others = '0' :: rest → rest = []) (same : ofDigits digits = ofDigits others) :
    others.length ≤ digits.length := by
  cases others with
  | nil => exact Nat.zero_le _
  | cons first rest =>
      by_cases isZero : first = '0'
      · rw [unpadded rest (by rw [isZero])]
        exact List.length_pos_iff.mpr written
      · have isFirst := isAsciiDigit_iff.mp (areDigits first List.mem_cons_self)
        have some_ : 1 ≤ first.toNat - '0'.toNat := by
          have : first.toNat ≠ '0'.toNat := fun same => isZero (Char.toNat_inj.mp same)
          omega
        have bound : 10 ^ rest.length < 10 ^ digits.length :=
          calc 10 ^ rest.length
              ≤ 10 ^ rest.length * (first.toNat - '0'.toNat) + ofDigits rest :=
                Nat.le_add_right_of_le (Nat.le_mul_of_pos_right _ some_)
            _ = ofDigits digits := by rw [same, ofDigits_cons]
            _ < 10 ^ digits.length := ofDigits_lt isDigit
        exact (Nat.pow_lt_pow_iff_right (by decide)).mp bound

/-- Only the digits of zero start with a zero. -/
theorem eq_zero_of_digits_eq {number : Nat} {rest : List Char} (starts : digits number = '0' :: rest) :
    number = 0 := by
  induction number using Nat.strongRecOn generalizing rest with
  | ind number inductionHypothesis =>
      rw [digits] at starts
      by_cases single : number < 10
      · rw [Nat.toDigits_of_lt_base single] at starts
        have zero := (List.cons.inj starts).1
        revert zero
        clear starts inductionHypothesis rest
        revert number
        decide
      · rw [Nat.toDigits_of_base_le (by decide) (Nat.not_lt.mp single)] at starts
        rcases List.append_eq_cons_iff.mp starts with ⟨isEmpty, _⟩ | ⟨front, isFront, _⟩
        · exact absurd isEmpty Nat.toDigits_ne_nil
        · have quotient := inductionHypothesis (number / 10) (by omega) isFront
          omega

/-- Nothing follows a zero at the front of some digits of a number. -/
theorem eq_nil_of_take_digits {number count : Nat} {rest : List Char}
    (starts : (digits number).take (count + 1) = '0' :: rest) : rest = [] := by
  cases written : digits number with
  | nil =>
      rw [written] at starts
      cases starts
  | cons first others =>
      rw [written, List.take_succ_cons] at starts
      obtain ⟨rfl, rfl⟩ := List.cons.inj starts
      obtain rfl := eq_zero_of_digits_eq written
      rw [digits, Nat.toDigits_zero] at written
      rw [← (List.cons.inj written).2, List.take_nil]

/-- No zeros are put in front of digits that reach to the point. -/
theorem unpadded_insertPoint {coefficient places : Nat} {rest : List Char}
    (starts : (insertPoint coefficient places).1 = '0' :: rest) : rest = [] := by
  rw [insertPoint] at starts
  dsimp only at starts
  by_cases reaches : places < (digits coefficient).length
  · have noZeros : places + 1 - (digits coefficient).length = 0 := by omega
    obtain ⟨count, isCount⟩ := Nat.exists_eq_add_of_lt reaches
    have before : (digits coefficient).length - places = count + 1 := by omega
    rw [noZeros, List.replicate_zero, List.nil_append, before] at starts
    exact eq_nil_of_take_digits starts
  · have before : (List.replicate (places + 1 - (digits coefficient).length) '0' ++
        digits coefficient).length - places = 1 := by
      rw [List.length_append, List.length_replicate]
      omega
    rw [before] at starts
    have atMostOne := congrArg List.length starts
    rw [List.length_take, List.length_cons] at atMostOne
    exact List.eq_nil_of_length_eq_zero (by omega)

/-! ## The text -/

/-- Digits before and behind a point that stand for a magnitude, as nearly as they can. -/
structure IsFixedPoint (places : Nat) (magnitude : ℚ) (whole fraction : List Char) : Prop where
  isDigit : ∀ digit ∈ whole ++ fraction, isAsciiDigit digit = true
  length : fraction.length = places
  written : whole ≠ []
  unpadded : ∀ rest, whole = '0' :: rest → rest = []
  nearest : NearestEven (ofDigits (whole ++ fraction)) (magnitude * 10 ^ places)

theorem isFixedPoint_insertPoint {coefficient places : Nat} {magnitude : ℚ}
    (nearest : NearestEven coefficient (magnitude * 10 ^ places)) :
    IsFixedPoint places magnitude (insertPoint coefficient places).1 (insertPoint coefficient places).2 where
  isDigit := fun _ => isAsciiDigit_of_mem_insertPoint
  length := (length_insertPoint coefficient places).2
  written := (length_insertPoint coefficient places).1
  unpadded := fun _ => unpadded_insertPoint
  nearest := by rwa [ofDigits_insertPoint]

/-- There is one way to write a magnitude. -/
theorem IsFixedPoint.unique {places : Nat} {magnitude : ℚ} {whole fraction otherWhole otherFraction : List Char}
    (isText : IsFixedPoint places magnitude whole fraction)
    (otherText : IsFixedPoint places magnitude otherWhole otherFraction) :
    whole = otherWhole ∧ fraction = otherFraction := by
  have isDigit := List.forall_mem_append.mp isText.isDigit
  have areDigits := List.forall_mem_append.mp otherText.isDigit
  have same := isText.nearest.unique otherText.nearest
  rw [ofDigits_append, ofDigits_append, isText.length, otherText.length] at same
  have less := ofDigits_lt isDigit.2
  have otherLess := ofDigits_lt areDigits.2
  rw [isText.length] at less
  rw [otherText.length] at otherLess
  obtain ⟨sameWhole, sameFraction⟩ := parts_eq less otherLess same
  have length := Nat.le_antisymm
    (length_le_of_ofDigits_eq areDigits.1 isDigit.1 otherText.written isText.unpadded sameWhole.symm)
    (length_le_of_ofDigits_eq isDigit.1 areDigits.1 isText.written otherText.unpadded sameWhole)
  exact ⟨eq_of_ofDigits_eq isDigit.1 areDigits.1 length sameWhole,
    eq_of_ofDigits_eq isDigit.2 areDigits.2 (isText.length.trans otherText.length.symm) sameFraction⟩

/-- The magnitude of a double, if it is finite. -/
def magnitude? (number : Float) : Option ℚ :=
  match Double.ofFloat number with
  | .finite _ significand exponent => some (scaled significand exponent)
  | _ => none

theorem magnitude?_of_infinite {number : Float} {negative : Bool}
    (isInfinite : Double.ofFloat number = .infinite negative) : magnitude? number = none := by
  rw [magnitude?, isInfinite]

/-- What stands before and behind the point in the text of a double. -/
inductive FixedText (places : Nat) (number : Float) : List Char → List Char → Prop where
  | finite {magnitude : ℚ} {whole fraction : List Char} (isMagnitude : magnitude? number = some magnitude)
      (isText : IsFixedPoint places magnitude whole fraction) : FixedText places number whole fraction
  /-- An infinity has its name in place of digits. -/
  | infinite {negative : Bool} (isInfinite : Double.ofFloat number = .infinite negative) :
      FixedText places number "inf".toList []

theorem ofFloat_ne_nan {number : Float} (defined : number.isNaN = false) : Double.ofFloat number ≠ .nan := by
  rw [Float.isNaN_eq_decide_eq_nan, decide_eq_false_iff_not] at defined
  intro undefined
  rw [Double.ofFloat_eq] at undefined
  have whole := ofModel_pack_unpack number
  rcases unpacked : number.toModel.unpack with sign | _ | sign | ⟨sign, significand, exponent, positive⟩
  · rw [unpacked] at undefined
    cases undefined
  · rw [unpacked] at whole
    exact defined (whole.symm.trans rfl)
  · rw [unpacked] at undefined
    cases undefined
  · rw [unpacked] at undefined
    cases undefined

theorem fixedText_fixedParts {number : Float} (defined : number.isNaN = false) (places : Nat) :
    FixedText places number (fixedParts places number).1 (fixedParts places number).2 := by
  unfold fixedParts
  cases value : Double.ofFloat number with
  | nan => exact absurd value (ofFloat_ne_nan defined)
  | infinite negative => exact .infinite value
  | finite negative significand exponent =>
      have isMagnitude : magnitude? number = some (scaled significand exponent) := by rw [magnitude?, value]
      refine .finite isMagnitude (isFixedPoint_insertPoint ?_)
      have quotient : scaled significand exponent * 10 ^ places =
          ((significand * twoTo exponent.toNat * tenTo places : Nat) : ℚ) / (twoTo (-exponent).toNat : Nat) := by
        have isTen : ((tenTo places : Nat) : ℚ) = 10 ^ places := by
          rw [tenTo, Nat.pow_eq]
          push_cast
          rfl
        rw [scaled, ← twoTo_div_twoTo, Nat.cast_mul, Nat.cast_mul, isTen]
        ring
      rw [quotient]
      exact nearestEven_divideToEven _ (twoTo_pos _)

theorem FixedText.unique {places : Nat} {number : Float} {whole fraction otherWhole otherFraction : List Char}
    (isText : FixedText places number whole fraction)
    (otherText : FixedText places number otherWhole otherFraction) :
    whole = otherWhole ∧ fraction = otherFraction := by
  cases isText with
  | finite isMagnitude isText =>
      cases otherText with
      | finite sameMagnitude otherText =>
          rw [isMagnitude, Option.some.injEq] at sameMagnitude
          subst sameMagnitude
          exact isText.unique otherText
      | infinite isInfinite =>
          rw [magnitude?_of_infinite isInfinite] at isMagnitude
          cases isMagnitude
  | infinite isInfinite =>
      cases otherText with
      | finite isMagnitude _ =>
          rw [magnitude?_of_infinite isInfinite] at isMagnitude
          cases isMagnitude
      | infinite => exact ⟨rfl, rfl⟩

/-! ## The sign -/

theorem Storable.neg {number : UnpackedFloat} (storable : Storable number) : Storable number.neg := by
  cases storable with
  | infinity sign => exact .infinity (-sign)
  | notANumber => exact .notANumber
  | zero sign => exact .zero (-sign)
  | finite sign canonical => exact .finite (-sign) canonical

theorem unpack_neg (number : Float) : (-number).toModel.unpack = number.toModel.unpack.neg := by
  change (Float.Model.pack number.toModel.unpack.neg).unpack = _
  exact unpack_pack (storable_unpack number.toModel).neg

/-- The sign of a number does not show in its digits. -/
theorem fixedParts_neg (places : Nat) (number : Float) :
    fixedParts places (-number) = fixedParts places number := by
  unfold fixedParts
  rw [Double.ofFloat_eq, Double.ofFloat_eq, unpack_neg]
  cases number.toModel.unpack <;> rfl

end Number
end TemplateCascade

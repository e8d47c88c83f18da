import Mathlib

namespace TemplateCascade
namespace Number

/-!
# Rounding to the nearest double

The arithmetic of doubles computes the leading bits of an exact result, keeps two more bits that say how the
rest compares with half a unit, and rounds by these.  Here the leading bits and the two others stand for a
rational number.  Whatever number lies close enough to a double, half a unit in the last place at most, is
rounded to that double.
-/

open Float.Model (Format totalExponent)
open Float.Model.UnpackedFloat (Accuracy ExtendedMantissa Sign accuracyOfFraction divCore roundWithAccuracy
  shiftToExponent shiftToTargetExponent)

/-! ## What a mantissa with its two bits stands for -/

/-- Leading bits, the bit behind them and the rest stand for a number. -/
structure Stands (extended : ExtendedMantissa) (number : ℚ) : Prop where
  le : (extended.mantissa : ℚ) ≤ number
  lt : number < extended.mantissa + 1
  half : extended.roundBit = true ↔ (extended.mantissa : ℚ) + 1 / 2 ≤ number
  rest : extended.stickyBit = true ↔
    number ≠ extended.mantissa ∧ number ≠ (extended.mantissa : ℚ) + 1 / 2

theorem stands_exact (mantissa : Nat) :
    Stands (ExtendedMantissa.ofMantissaAndAccuracy mantissa .exact) mantissa where
  le := le_refl _
  lt := lt_add_one _
  half := by simp [ExtendedMantissa.ofMantissaAndAccuracy]
  rest := by simp [ExtendedMantissa.ofMantissaAndAccuracy]

/-- A fraction behind the mantissa, and how it compares with a half. -/
theorem stands_inexact (mantissa : Nat) {fraction : ℚ} (positive : 0 < fraction) (below : fraction < 1) :
    Stands (ExtendedMantissa.ofMantissaAndAccuracy mantissa (.inexact (compare fraction (1 / 2))))
      (mantissa + fraction) := by
  cases comparison : compare fraction (1 / 2) with
  | lt =>
      have smaller := compare_lt_iff_lt.mp comparison
      refine ⟨?_, ?_, ?_, ?_⟩ <;> simp only [ExtendedMantissa.ofMantissaAndAccuracy]
      · linarith
      · linarith
      · exact iff_of_false Bool.false_ne_true (by linarith)
      · exact iff_of_true trivial ⟨by linarith, by linarith⟩
  | eq =>
      have half := compare_eq_iff_eq.mp comparison
      refine ⟨?_, ?_, ?_, ?_⟩ <;> simp only [ExtendedMantissa.ofMantissaAndAccuracy]
      · linarith
      · linarith
      · exact iff_of_true trivial (by linarith)
      · exact iff_of_false Bool.false_ne_true fun different => different.2 (by rw [half])
  | gt =>
      have larger := compare_gt_iff_gt.mp comparison
      refine ⟨?_, ?_, ?_, ?_⟩ <;> simp only [ExtendedMantissa.ofMantissaAndAccuracy]
      · linarith
      · linarith
      · exact iff_of_true trivial (by linarith)
      · exact iff_of_true trivial ⟨by linarith, by linarith⟩

/-- What a division leaves says how the quotient goes on. -/
theorem stands_quotient (numerator : Nat) {denominator : Nat} (positive : 0 < denominator) :
    Stands (ExtendedMantissa.ofMantissaAndAccuracy (numerator / denominator)
      (accuracyOfFraction (numerator % denominator) denominator)) (numerator / denominator : ℚ) := by
  have cast_positive : (0 : ℚ) < denominator := by exact_mod_cast positive
  have whole : ((numerator / denominator : Nat) : ℚ) + (numerator % denominator : Nat) / denominator =
      numerator / denominator := by
    rw [add_div_eq_mul_add_div _ _ cast_positive.ne']
    congr 1
    exact_mod_cast Nat.div_add_mod' numerator denominator
  have small := Nat.mod_lt numerator positive
  rw [← whole]
  generalize numerator % denominator = remainder at small
  unfold accuracyOfFraction
  split
  · next none_ =>
    rw [none_, Nat.cast_zero, zero_div, add_zero]
    exact stands_exact _
  · next some_ =>
    have comparison : compare (2 * remainder) denominator =
        compare ((remainder : ℚ) / denominator) (1 / 2) := by
      have doubled : (0 : ℚ) < 2 * denominator := by positivity
      rw [← cmp_eq_compare, ← cmp_eq_compare]
      calc
        cmp (2 * remainder) denominator = cmp ((2 * remainder : Nat) : ℚ) (denominator : ℚ) :=
          (Nat.strictMono_cast.cmp_map_eq _ _).symm
        _ = cmp ((remainder : ℚ) / denominator * (2 * denominator)) (1 / 2 * (2 * denominator)) := by
          congr 1
          · push_cast
            field_simp
          · ring
        _ = cmp ((remainder : ℚ) / denominator) (1 / 2) := cmp_mul_pos_right doubled _ _
    rw [comparison]
    refine stands_inexact _ (div_pos ?_ cast_positive) ((div_lt_one cast_positive).mpr ?_)
    · exact_mod_cast Nat.pos_of_ne_zero some_
    · exact_mod_cast small

theorem Stands.inexact_iff {extended : ExtendedMantissa} {number : ℚ} (stands : Stands extended number) :
    (extended.roundBit || extended.stickyBit) = true ↔ number ≠ extended.mantissa := by
  rw [Bool.or_eq_true, stands.half, stands.rest]
  constructor
  · rintro (above | ⟨different, _⟩) same
    · linarith
    · exact different same
  · intro different
    by_cases tie : number = (extended.mantissa : ℚ) + 1 / 2
    · exact .inl tie.ge
    · exact .inr ⟨different, tie⟩

/-- Bits that are shifted out are not forgotten. -/
theorem Stands.shiftRightOne {extended : ExtendedMantissa} {number : ℚ} (stands : Stands extended number) :
    Stands extended.shiftRightOne (number / 2) := by
  have inexact := stands.inexact_iff
  have le := stands.le
  have lt := stands.lt
  have parts : ((extended.mantissa / 2 : Nat) : ℚ) * 2 + ((extended.mantissa % 2 : Nat) : ℚ) =
      extended.mantissa := by
    exact_mod_cast Nat.div_add_mod' extended.mantissa 2
  unfold ExtendedMantissa.shiftRightOne
  rcases Nat.mod_two_eq_zero_or_one extended.mantissa with even | odd
  · rw [even, Nat.cast_zero, add_zero] at parts
    refine ⟨?_, ?_, ?_, ?_⟩
    · dsimp only; linarith
    · dsimp only; linarith
    · refine iff_of_false (by simp [even]) ?_
      dsimp only
      linarith
    · dsimp only
      rw [inexact, ← parts]
      constructor
      · intro different
        exact ⟨fun same => different (by linarith), fun tie => by linarith⟩
      · rintro ⟨different, _⟩ same
        exact different (by linarith)
  · rw [odd, Nat.cast_one] at parts
    refine ⟨?_, ?_, ?_, ?_⟩
    · dsimp only; linarith
    · dsimp only; linarith
    · refine iff_of_true (by simp [odd]) ?_
      dsimp only
      linarith
    · dsimp only
      rw [inexact, ← parts]
      constructor
      · intro different
        exact ⟨fun same => by linarith, fun tie => different (by linarith)⟩
      · rintro ⟨_, different⟩ same
        exact different (by linarith)

theorem Stands.shiftRight {extended : ExtendedMantissa} {number : ℚ} (stands : Stands extended number)
    (count : Nat) : Stands (extended >>> count) (number / 2 ^ count) := by
  change Stands (count.repeat ExtendedMantissa.shiftRightOne extended) _
  induction count with
  | zero => simpa [Nat.repeat] using stands
  | succ count inductionHypothesis =>
      rw [pow_succ, ← div_div]
      exact inductionHypothesis.shiftRightOne

/-- Where nothing but half a unit is cut off, a number lies in the middle between two mantissas. -/
theorem Stands.eq_half {extended : ExtendedMantissa} {number : ℚ} (stands : Stands extended number)
    (roundBit : extended.roundBit = true) (stickyBit : extended.stickyBit = false) :
    number = extended.mantissa + 1 / 2 := by
  have behind := stands.half.mp roundBit
  by_contra different
  have rest : extended.stickyBit = true := stands.rest.mpr ⟨by linarith, different⟩
  exact Bool.false_ne_true (stickyBit.symm.trans rest)

/-- The mantissa of a number and the next are the ones within half a unit. -/
theorem Stands.neighbours {extended : ExtendedMantissa} {number : ℚ} {mantissa : Nat}
    (stands : Stands extended number) (above : (mantissa : ℚ) - 1 / 2 ≤ number)
    (below : number ≤ mantissa + 1 / 2) : mantissa = extended.mantissa ∨ mantissa = extended.mantissa + 1 := by
  have le := stands.le
  have lt := stands.lt
  have notBelow : extended.mantissa < mantissa + 1 := by
    have : (extended.mantissa : ℚ) < mantissa + 1 := by linarith
    exact_mod_cast this
  have notAbove : mantissa < extended.mantissa + 1 + 1 := by
    have : (mantissa : ℚ) < extended.mantissa + 1 + 1 := by linarith
    exact_mod_cast this
  omega

/-- The mantissa that is rounded to is the one within half a unit, the even one of two. -/
theorem Stands.roundedMantissa_eq {extended : ExtendedMantissa} {number : ℚ} {mantissa : Nat}
    (stands : Stands extended number) (above : (mantissa : ℚ) - 1 / 2 ≤ number)
    (below : number ≤ mantissa + 1 / 2)
    (strict : mantissa % 2 = 1 → (mantissa : ℚ) - 1 / 2 < number ∧ number < mantissa + 1 / 2) :
    extended.roundedMantissa = mantissa := by
  have neighbours := stands.neighbours above below
  have tie := stands.eq_half
  have half := stands.half
  have rest := stands.rest
  rcases extended with ⟨found, roundBit, stickyBit⟩
  dsimp only at neighbours tie half rest
  cases roundBit with
  | false =>
      have before : number < found + 1 / 2 := not_le.mp fun above => Bool.false_ne_true (half.mpr above)
      have same : mantissa = found := by
        refine neighbours.resolve_right fun next => ?_
        rw [next] at above
        push_cast at above
        linarith
      cases stickyBit <;> exact same.symm
  | true =>
      have behind := half.mp rfl
      cases stickyBit with
      | false =>
          have middle := tie rfl rfl
          have even : mantissa % 2 = 0 := by
            by_contra odd
            rcases strict (by omega) with ⟨strictlyAbove, strictlyBelow⟩
            rcases neighbours with same | next
            · rw [same] at strictlyBelow
              linarith
            · rw [next] at strictlyAbove
              push_cast at strictlyAbove
              linarith
          change found + found % 2 = mantissa
          omega
      | true =>
          have different := (rest.mp rfl).2
          have next : mantissa = found + 1 := by
            refine neighbours.resolve_left fun same => ?_
            rw [same] at below
            exact different (le_antisymm below behind)
          exact next.symm

/-! ## Doubles and the numbers around them -/

/-- The significand and the exponent that a positive double is stored with. -/
structure Canonical (significand : Nat) (exponent : Int) : Prop where
  positive : 0 < significand
  lt : significand < 2 ^ 53
  least : -1074 ≤ exponent
  greatest : exponent ≤ 971
  normal : significand < 2 ^ 52 → exponent = -1074

/-- How far below a double the numbers lie that are rounded to it, in units of its last place. -/
def reachBelow (significand : Nat) (exponent : Int) : ℚ :=
  if significand = 2 ^ 52 ∧ -1074 < exponent then 1 / 4 else 1 / 2

/-- A number is rounded to a double rather than to its neighbours. -/
structure Nearest (significand : Nat) (exponent : Int) (number : ℚ) : Prop where
  above : (significand - reachBelow significand exponent) * 2 ^ exponent ≤ number
  below : number ≤ (significand + 1 / 2) * 2 ^ exponent
  strict : significand % 2 = 1 →
    (significand - reachBelow significand exponent) * 2 ^ exponent < number ∧
      number < (significand + 1 / 2) * 2 ^ exponent

theorem targetExponent_eq (total : Int) :
    Format.binary64.targetExponent total = max (total - 53) (-1074) := by
  simp [Format.targetExponent, Format.mantissaBits, Format.minExponent]

theorem mantissa_ofMantissaAndAccuracy (mantissa : Nat) (accuracy : Accuracy) :
    (ExtendedMantissa.ofMantissaAndAccuracy mantissa accuracy).mantissa = mantissa := by
  rcases accuracy with _ | _ | _ | _ <;> rfl

theorem twoPower_pos (exponent : Int) : (0 : ℚ) < 2 ^ exponent :=
  zpow_pos two_pos exponent

theorem twoPower_lt_iff {first second : Int} : (2 : ℚ) ^ first < 2 ^ second ↔ first < second :=
  zpow_lt_zpow_iff_right₀ one_lt_two

variable {mantissa significand : Nat} {exponent place : Int} {accuracy : Accuracy} {number : ℚ}

/-- The bits in front of the point bound a number by a power of two. -/
theorem Stands.lt_twoPower
    (stands : Stands (ExtendedMantissa.ofMantissaAndAccuracy mantissa accuracy) (number / 2 ^ exponent)) :
    number < 2 ^ totalExponent mantissa exponent := by
  have positive := twoPower_pos exponent
  have lt := stands.lt
  rw [mantissa_ofMantissaAndAccuracy, div_lt_iff₀ positive] at lt
  have greatest : (mantissa : ℚ) + 1 ≤ 2 ^ (mantissa.log2 + 1) := by exact_mod_cast Nat.lt_log2_self
  calc
    number < (mantissa + 1) * 2 ^ exponent := lt
    _ ≤ 2 ^ (mantissa.log2 + 1) * 2 ^ exponent := mul_le_mul_of_nonneg_right greatest positive.le
    _ = 2 ^ totalExponent mantissa exponent := by
      rw [← zpow_natCast, ← zpow_add₀ two_ne_zero, totalExponent]
      push_cast
      rfl

theorem Stands.twoPower_le
    (stands : Stands (ExtendedMantissa.ofMantissaAndAccuracy mantissa accuracy) (number / 2 ^ exponent))
    (some_ : mantissa ≠ 0) : (2 : ℚ) ^ (totalExponent mantissa exponent - 1) ≤ number := by
  have positive := twoPower_pos exponent
  have le := stands.le
  rw [mantissa_ofMantissaAndAccuracy, le_div_iff₀ positive] at le
  have least : (2 : ℚ) ^ mantissa.log2 ≤ mantissa := by exact_mod_cast Nat.log2_self_le some_
  calc
    (2 : ℚ) ^ (totalExponent mantissa exponent - 1) = 2 ^ mantissa.log2 * 2 ^ exponent := by
      rw [← zpow_natCast, ← zpow_add₀ two_ne_zero, totalExponent]
      congr 1
      ring
    _ ≤ mantissa * 2 ^ exponent := mul_le_mul_of_nonneg_right least positive.le
    _ ≤ number := le

theorem Canonical.significand_lt (canonical : Canonical significand exponent) :
    (significand : ℚ) + 1 ≤ 2 ^ (53 : Int) := by
  have lt := canonical.lt
  exact_mod_cast lt

theorem Nearest.lt_twoPower (canonical : Canonical significand place)
    (nearest : Nearest significand place number) : number < 2 ^ (53 + place) := by
  have positive := twoPower_pos place
  rw [zpow_add₀ two_ne_zero]
  refine nearest.below.trans_lt (mul_lt_mul_of_pos_right ?_ positive)
  linarith [canonical.significand_lt]

/-- Only below the least significand there are numbers with one bit less. -/
theorem Nearest.of_lt_twoPower (canonical : Canonical significand place)
    (nearest : Nearest significand place number) (above : -1074 < place)
    (smaller : number < 2 ^ (52 + place)) : significand = 2 ^ 52 ∧ (2 : ℚ) ^ (51 + place) ≤ number := by
  have positive := twoPower_pos place
  have normal : 2 ^ 52 ≤ significand := by
    by_contra subnormal
    have := canonical.normal (not_le.mp subnormal)
    omega
  have reached := nearest.above.trans_lt smaller
  rw [zpow_add₀ two_ne_zero] at reached
  have least : significand = 2 ^ 52 := by
    by_contra different
    have next : (2 ^ 52 + 1 : ℚ) ≤ significand := by
      exact_mod_cast (by omega : 2 ^ 52 + 1 ≤ significand)
    have beyond := lt_of_mul_lt_mul_right reached positive.le
    rw [reachBelow, if_neg fun both => different both.1] at beyond
    linarith
  refine ⟨least, ?_⟩
  rw [zpow_add₀ two_ne_zero]
  refine le_trans (mul_le_mul_of_nonneg_right ?_ positive.le) nearest.above
  rw [least, reachBelow, if_pos ⟨rfl, above⟩]
  norm_num

/--
The exponent that a number is rounded at is that of the nearest double, or one less for numbers below the
least significand, which is where the exponents change.
-/
theorem target_of_nearest
    (stands : Stands (ExtendedMantissa.ofMantissaAndAccuracy mantissa accuracy) (number / 2 ^ exponent))
    (fine : exponent ≤ max (totalExponent mantissa exponent - 53) (-1074))
    (canonical : Canonical significand place) (nearest : Nearest significand place number) :
    max (totalExponent mantissa exponent - 53) (-1074) = place ∨
      (significand = 2 ^ 52 ∧ -1074 < place ∧
        max (totalExponent mantissa exponent - 53) (-1074) = place - 1 ∧ number < 2 ^ (52 + place)) := by
  have least := canonical.least
  have lt_total := stands.lt_twoPower
  have none_ : mantissa = 0 → totalExponent mantissa exponent ≤ -1073 := by
    rintro rfl
    have : totalExponent 0 exponent = 1 + exponent := by simp [totalExponent]
    omega
  have under : totalExponent mantissa exponent ≤ 53 + place := by
    by_cases some_ : mantissa = 0
    · have := none_ some_
      omega
    · have between := (stands.twoPower_le some_).trans_lt (nearest.lt_twoPower canonical)
      have := twoPower_lt_iff.mp between
      omega
  rcases least.eq_or_lt with same | above
  · left
    omega
  rcases le_or_gt ((2 : ℚ) ^ (52 + place)) number with enough | smaller
  · left
    have := twoPower_lt_iff.mp (enough.trans_lt lt_total)
    omega
  · right
    rcases nearest.of_lt_twoPower canonical above smaller with ⟨isLeast, atLeast⟩
    have atLeastBits := twoPower_lt_iff.mp (atLeast.trans_lt lt_total)
    have some_ : mantissa ≠ 0 := fun is_zero => by
      have := none_ is_zero
      omega
    have strictly := twoPower_lt_iff.mp ((stands.twoPower_le some_).trans_lt smaller)
    exact ⟨isLeast, above, by omega, smaller⟩

theorem shiftToTargetExponent_eq (mantissa : Nat) {exponent : Int} (accuracy : Accuracy)
    (fine : exponent ≤ max (totalExponent mantissa exponent - 53) (-1074)) :
    shiftToTargetExponent Format.binary64 mantissa exponent accuracy =
      (ExtendedMantissa.ofMantissaAndAccuracy mantissa accuracy >>>
        (max (totalExponent mantissa exponent - 53) (-1074) - exponent).toNat,
        max (totalExponent mantissa exponent - 53) (-1074)) := by
  unfold shiftToTargetExponent shiftToExponent
  rw [targetExponent_eq]
  dsimp only
  congr 1
  omega

/-- The total exponent of a double in its canonical form, cut to the places of doubles, is its own. -/
theorem Canonical.target_eq (canonical : Canonical significand place) :
    max (totalExponent significand place - 53) (-1074) = place := by
  have some_ := canonical.positive.ne'
  have most := (Nat.log2_lt some_).mpr canonical.lt
  have least := canonical.least
  rcases Nat.lt_or_ge significand (2 ^ 52) with subnormal | normal
  · have := canonical.normal subnormal
    rw [totalExponent]
    omega
  · have := (Nat.le_log2 some_).mpr normal
    rw [totalExponent]
    omega

theorem reachBelow_pos (significand : Nat) (place : Int) : 0 < reachBelow significand place := by
  unfold reachBelow
  split <;> norm_num

theorem reachBelow_le (significand : Nat) (place : Int) : reachBelow significand place ≤ 1 / 2 := by
  unfold reachBelow
  split <;> norm_num

/-- In units of its last place, a double is the integer nearest to the numbers that are rounded to it. -/
theorem Nearest.roundedMantissa_eq {extended : ExtendedMantissa}
    (nearest : Nearest significand place number) (stands : Stands extended (number / 2 ^ place)) :
    extended.roundedMantissa = significand := by
  have positive := twoPower_pos place
  have reach := reachBelow_le significand place
  apply stands.roundedMantissa_eq
  · rw [le_div_iff₀ positive]
    refine le_trans (mul_le_mul_of_nonneg_right ?_ positive.le) nearest.above
    linarith
  · rw [div_le_iff₀ positive]
    exact nearest.below
  · intro odd
    rcases nearest.strict odd with ⟨above, below⟩
    rw [lt_div_iff₀ positive, div_lt_iff₀ positive]
    refine ⟨lt_of_le_of_lt (mul_le_mul_of_nonneg_right ?_ positive.le) above, below⟩
    linarith

/-- Right below the least significand, numbers are rounded up to it at the place below. -/
theorem Nearest.roundedMantissa_eq_of_lt {extended : ExtendedMantissa}
    (nearest : Nearest (2 ^ 52) place number) (above : -1074 < place)
    (smaller : number < 2 ^ (52 + place)) (stands : Stands extended (number / 2 ^ (place - 1))) :
    extended.roundedMantissa = 2 ^ 53 := by
  have positive := twoPower_pos (place - 1)
  have scale : (2 : ℚ) ^ place = 2 * 2 ^ (place - 1) := by
    rw [← zpow_one_add₀ two_ne_zero]
    congr 1
    ring
  have atLeast := nearest.above
  rw [reachBelow, if_pos ⟨rfl, above⟩, scale] at atLeast
  rw [zpow_add₀ two_ne_zero, scale] at smaller
  apply stands.roundedMantissa_eq
  · rw [le_div_iff₀ positive]
    push_cast at atLeast ⊢
    linarith
  · rw [div_le_iff₀ positive]
    push_cast
    linarith
  · intro odd
    exact absurd odd (by decide)

/-- A number that stands there with enough bits is rounded to the double next to it. -/
theorem roundWithAccuracy_eq (sign : Sign)
    (stands : Stands (ExtendedMantissa.ofMantissaAndAccuracy mantissa accuracy) (number / 2 ^ exponent))
    (fine : exponent ≤ max (totalExponent mantissa exponent - 53) (-1074))
    (canonical : Canonical significand place) (nearest : Nearest significand place number) :
    roundWithAccuracy Format.binary64 sign mantissa exponent accuracy =
      .finite sign significand place canonical.positive := by
  have shifted := stands.shiftRight (max (totalExponent mantissa exponent - 53) (-1074) - exponent).toNat
  have scaled : number / 2 ^ exponent /
      2 ^ (max (totalExponent mantissa exponent - 53) (-1074) - exponent).toNat =
        number / 2 ^ max (totalExponent mantissa exponent - 53) (-1074) := by
    rw [div_div, ← zpow_natCast, ← zpow_add₀ two_ne_zero]
    congr 2
    omega
  rw [scaled] at shifted
  unfold roundWithAccuracy
  rw [shiftToTargetExponent_eq mantissa accuracy fine]
  generalize ExtendedMantissa.ofMantissaAndAccuracy mantissa accuracy >>>
    (max (totalExponent mantissa exponent - 53) (-1074) - exponent).toNat = extended at shifted
  dsimp only
  rcases target_of_nearest stands fine canonical nearest with same | ⟨isLeast, above, oneLess, smaller⟩
  · rw [same] at shifted ⊢
    rw [nearest.roundedMantissa_eq shifted,
      shiftToTargetExponent_eq significand .exact canonical.target_eq.ge, canonical.target_eq, sub_self]
    exact dif_neg canonical.positive.ne'
  · subst isLeast
    rw [oneLess] at shifted ⊢
    have total : max (totalExponent (2 ^ 53) (place - 1) - 53) (-1074) = place := by
      rw [totalExponent, Nat.log2_two_pow]
      push_cast
      omega
    have one_ : (place - (place - 1)).toNat = 1 := by omega
    rw [nearest.roundedMantissa_eq_of_lt above smaller shifted,
      shiftToTargetExponent_eq (2 ^ 53) .exact (by omega), total, one_]
    rfl

/-! ## Products and quotients -/

/-- The value of a significand at an exponent. -/
def scaled (significand : Nat) (exponent : Int) : ℚ :=
  significand * 2 ^ exponent

variable {left right : Nat} {leftExponent rightExponent : Int} {leftPositive : 0 < left}
  {rightPositive : 0 < right}

/-- A product with enough bits is rounded to the nearest double. -/
theorem mul_eq
    (fine : leftExponent + rightExponent ≤
      max (totalExponent (left * right) (leftExponent + rightExponent) - 53) (-1074))
    (canonical : Canonical significand place)
    (nearest : Nearest significand place (scaled left leftExponent * scaled right rightExponent)) :
    Float.Model.UnpackedFloat.mul Format.binary64 (.finite .positive left leftExponent leftPositive)
        (.finite .positive right rightExponent rightPositive) =
      .finite .positive significand place canonical.positive := by
  refine roundWithAccuracy_eq .positive ?_ fine canonical nearest
  have same : scaled left leftExponent * scaled right rightExponent / 2 ^ (leftExponent + rightExponent) =
      (left * right : Nat) := by
    rw [div_eq_iff (twoPower_pos _).ne', scaled, scaled, zpow_add₀ two_ne_zero]
    push_cast
    ring
  rw [same]
  exact stands_exact (left * right)

/-- The place that a division starts to round at. -/
def quotientPlace (left right : Nat) (leftExponent rightExponent : Int) : Int :=
  min (leftExponent - rightExponent)
    (max (totalExponent left leftExponent - totalExponent right rightExponent - 53) (-1074))

/-- The dividend in units of that place, as a multiple of the divisor's significand. -/
def raised (left right : Nat) (leftExponent rightExponent : Int) : Nat :=
  left <<< (leftExponent - rightExponent - quotientPlace left right leftExponent rightExponent).toNat

theorem divCore_eq (left right : Nat) (leftExponent rightExponent : Int) :
    divCore Format.binary64 left leftExponent right rightExponent =
      (raised left right leftExponent rightExponent / right,
        quotientPlace left right leftExponent rightExponent,
        accuracyOfFraction (raised left right leftExponent rightExponent % right) right) := by
  unfold divCore
  rw [targetExponent_eq]
  rfl

/-- That place is low enough for all the bits that rounding looks at. -/
theorem quotientPlace_le (some_ : left ≠ 0) (divisor : right ≠ 0) :
    quotientPlace left right leftExponent rightExponent ≤
      max (totalExponent (raised left right leftExponent rightExponent / right)
        (quotientPlace left right leftExponent rightExponent) - 53) (-1074) := by
  generalize isPlace : quotientPlace left right leftExponent rightExponent = place
  rcases le_or_gt place (-1074) with low | high
  · exact low.trans (le_max_right _ _)
  unfold quotientPlace totalExponent at isPlace
  have enough : 2 ^ 52 ≤ raised left right leftExponent rightExponent / right := by
    rw [Nat.le_div_iff_mul_le (Nat.pos_of_ne_zero divisor), raised, Nat.shiftLeft_eq]
    calc
      2 ^ 52 * right ≤ 2 ^ 52 * 2 ^ (right.log2 + 1) := Nat.mul_le_mul_left _ Nat.lt_log2_self.le
      _ = 2 ^ (right.log2 + 53) := by
        rw [← pow_add]
        congr 1
        omega
      _ ≤ 2 ^ (left.log2 +
          (leftExponent - rightExponent - quotientPlace left right leftExponent rightExponent).toNat) := by
        refine Nat.pow_le_pow_right two_pos ?_
        unfold quotientPlace totalExponent
        omega
      _ ≤ left * 2 ^ (leftExponent - rightExponent -
          quotientPlace left right leftExponent rightExponent).toNat := by
        rw [pow_add]
        exact Nat.mul_le_mul_right _ (Nat.log2_self_le some_)
  have bits := (Nat.le_log2 (by omega)).mpr enough
  rw [totalExponent]
  omega

/-- A quotient is rounded to the nearest double. -/
theorem div_eq (canonical : Canonical significand place)
    (nearest : Nearest significand place (scaled left leftExponent / scaled right rightExponent)) :
    Float.Model.UnpackedFloat.div Format.binary64 (.finite .positive left leftExponent leftPositive)
        (.finite .positive right rightExponent rightPositive) =
      .finite .positive significand place canonical.positive := by
  change roundWithAccuracy Format.binary64 .positive
    (divCore Format.binary64 left leftExponent right rightExponent).1
    (divCore Format.binary64 left leftExponent right rightExponent).2.1
    (divCore Format.binary64 left leftExponent right rightExponent).2.2 = _
  rw [divCore_eq]
  refine roundWithAccuracy_eq .positive ?_ (quotientPlace_le leftPositive.ne' rightPositive.ne')
    canonical nearest
  have same : scaled left leftExponent / scaled right rightExponent /
      2 ^ quotientPlace left right leftExponent rightExponent =
        raised left right leftExponent rightExponent / (right : ℚ) := by
    have divisor : (right : ℚ) ≠ 0 := by exact_mod_cast rightPositive.ne'
    have shift : ((leftExponent - rightExponent -
        quotientPlace left right leftExponent rightExponent).toNat : Int) =
          leftExponent - rightExponent - quotientPlace left right leftExponent rightExponent := by
      unfold quotientPlace
      omega
    rw [raised, Nat.shiftLeft_eq]
    push_cast
    rw [← zpow_natCast, shift, scaled, scaled, zpow_sub₀ two_ne_zero, zpow_sub₀ two_ne_zero]
    field_simp
  rw [same]
  exact stands_quotient _ rightPositive

end Number
end TemplateCascade

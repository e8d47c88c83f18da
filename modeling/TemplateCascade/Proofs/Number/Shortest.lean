import TemplateCascade.Number.Decimal
import TemplateCascade.Proofs.Number.Rounding

namespace TemplateCascade
namespace Number

/-!
# The shortest decimal of a double

The search for a short decimal goes from coarse powers of ten to fine ones and stops at the first that has a
multiple close enough to the double.  What it finds is rounded back to the double, and it always finds one:
sixteen places below the leading digit, the powers of ten are closer to one another than the doubles are.
-/

/-- The value of a decimal. -/
def Decimal.value (decimal : Decimal) : ℚ :=
  decimal.coefficient * 10 ^ decimal.exponent

theorem tenPower_pos (exponent : Int) : (0 : ℚ) < 10 ^ exponent :=
  zpow_pos (by norm_num) exponent

theorem natCast_tenPower {count : Nat} {exponent : Int} (same : (count : Int) = exponent) :
    ((10 ^ count : Nat) : ℚ) = 10 ^ exponent := by
  rw [← same, zpow_natCast, Nat.cast_pow]
  rfl

theorem twoTo_div_twoTo (exponent : Int) :
    (twoTo exponent.toNat : ℚ) / twoTo (-exponent).toNat = 2 ^ exponent := by
  have power (count : Nat) : (twoTo count : ℚ) = 2 ^ (count : Int) := by
    rw [zpow_natCast]
    exact Nat.cast_pow 2 count
  rw [power, power, ← zpow_sub₀ two_ne_zero]
  congr 1
  omega

theorem tenTo_div_tenTo (exponent : Int) :
    (tenTo exponent.toNat : ℚ) / tenTo (-exponent).toNat = 10 ^ exponent := by
  have power (count : Nat) : (tenTo count : ℚ) = 10 ^ (count : Int) := natCast_tenPower rfl
  rw [power, power, ← zpow_sub₀ (by norm_num)]
  congr 1
  omega

theorem lt_tenPower_length (number : Nat) : number < 10 ^ (digits number).length :=
  (Nat.length_toDigits_le_iff (by decide) Nat.length_toDigits_pos).mp (le_refl _)

theorem tenPower_length_le {number : Nat} (some_ : number ≠ 0) :
    10 ^ ((digits number).length - 1) ≤ number := by
  rcases Nat.eq_zero_or_pos ((digits number).length - 1) with single | more
  · rw [single]
    exact Nat.pos_of_ne_zero some_
  · by_contra below
    have shorter : (digits number).length ≤ (digits number).length - 1 :=
      (Nat.length_toDigits_le_iff (by decide) more).mpr (not_le.mp below)
    omega

/-- The power of ten that a search starts with is not above the number. -/
theorem tenPower_decimalExponent_le {numerator denominator : Nat} (positive : 0 < numerator)
    (denominator_pos : 0 < denominator) :
    (10 : ℚ) ^ decimalExponent numerator denominator ≤ numerator / denominator := by
  have cast_positive : (0 : ℚ) < numerator := by exact_mod_cast positive
  have cast_denominator_pos : (0 : ℚ) < denominator := by exact_mod_cast denominator_pos
  unfold decimalExponent
  split
  · next whole =>
    have some_ : numerator / denominator ≠ 0 := (Nat.div_pos whole denominator_pos).ne'
    have length_pos : 1 ≤ (digits (numerator / denominator)).length := Nat.length_toDigits_pos
    calc
      (10 : ℚ) ^ (((digits (numerator / denominator)).length : Int) - 1) ≤
          (numerator / denominator : Nat) := by
        rw [← natCast_tenPower (Nat.cast_pred length_pos)]
        exact_mod_cast tenPower_length_le some_
      _ ≤ numerator / denominator := Nat.cast_div_le
  · next fraction =>
    -- The quotient the other way round is above one, and rounded up it is at most this power.
    have above : (denominator + numerator - 1) / numerator ≤
        10 ^ (digits ((denominator + numerator - 1) / numerator - 1)).length := by
      have := lt_tenPower_length ((denominator + numerator - 1) / numerator - 1)
      omega
    have covers : denominator ≤
        10 ^ (digits ((denominator + numerator - 1) / numerator - 1)).length * numerator := by
      have whole := Nat.lt_mul_div_succ (denominator + numerator - 1) positive
      calc
        denominator ≤ (denominator + numerator - 1) / numerator * numerator := by
          rw [Nat.mul_add, Nat.mul_one, Nat.mul_comm] at whole
          omega
        _ ≤ 10 ^ (digits ((denominator + numerator - 1) / numerator - 1)).length * numerator :=
          Nat.mul_le_mul_right _ above
    rw [zpow_neg, zpow_natCast, inv_le_comm₀ (by positivity) (by positivity), inv_div,
      div_le_iff₀ cast_positive]
    exact_mod_cast covers

namespace RoundingInterval

variable {interval : RoundingInterval}

/-- A number lies in an interval. -/
def Contains (interval : RoundingInterval) (number : ℚ) : Prop :=
  if interval.closed then
    interval.low ≤ number * interval.denominator ∧ number * interval.denominator ≤ interval.high
  else interval.low < number * interval.denominator ∧ number * interval.denominator < interval.high

theorem holds_iff (exponent : Int) (coefficient : Nat) :
    interval.holds (tenTo (-exponent).toNat) (interval.denominator * tenTo exponent.toNat) coefficient =
      true ↔ interval.Contains (coefficient * 10 ^ exponent) := by
  have factor_pos : (0 : ℚ) < tenTo (-exponent).toNat := by exact_mod_cast tenTo_pos _
  have scale : (coefficient : ℚ) * 10 ^ exponent * interval.denominator =
      coefficient * (interval.denominator * tenTo exponent.toNat) / tenTo (-exponent).toNat := by
    rw [← tenTo_div_tenTo]
    ring
  unfold holds Contains
  rw [scale]
  split
  · rw [Bool.and_eq_true, decide_eq_true_iff, decide_eq_true_iff, le_div_iff₀ factor_pos,
      div_le_iff₀ factor_pos]
    exact_mod_cast Iff.rfl
  · rw [Bool.and_eq_true, decide_eq_true_iff, decide_eq_true_iff, lt_div_iff₀ factor_pos,
      div_lt_iff₀ factor_pos]
    exact_mod_cast Iff.rfl

theorem contains_of_nearest? {exponent : Int} {coefficient : Nat}
    (found : interval.nearest? exponent = some coefficient) :
    interval.Contains (coefficient * 10 ^ exponent) := by
  unfold nearest? at found
  dsimp only at found
  rw [← holds_iff]
  split at found
  · next lower upper =>
    split at found <;> cases found
    · exact lower
    · exact upper
  · next lower _ =>
    cases found
    exact lower
  · next _ upper =>
    cases found
    exact upper
  · contradiction

/-- Of two neighbouring multiples around the middle, one lies in an interval that is wider than they are apart. -/
theorem holds_or_holds {factor unit : Nat} (factor_pos : 0 < factor) (unit_pos : 0 < unit)
    (low_le : interval.low ≤ interval.middle) (middle_lt : interval.middle < interval.high)
    (fine : unit + interval.low * factor < interval.high * factor) :
    interval.holds factor unit (interval.middle * factor / unit) = true ∨
      interval.holds factor unit (interval.middle * factor / unit + 1) = true := by
  have below := Nat.div_mul_le_self (interval.middle * factor) unit
  have above := Nat.lt_mul_div_succ (interval.middle * factor) unit_pos
  have low_scaled := Nat.mul_le_mul_right factor low_le
  have high_scaled := Nat.mul_lt_mul_of_pos_right middle_lt factor_pos
  rw [Nat.mul_comm unit] at above
  unfold holds
  rw [Nat.add_mul, Nat.one_mul] at above ⊢
  generalize interval.middle * factor / unit * unit = lower at *
  generalize interval.low * factor = low at *
  generalize interval.high * factor = high at *
  split
  · simp only [Bool.and_eq_true, decide_eq_true_iff]
    omega
  · simp only [Bool.and_eq_true, decide_eq_true_iff]
    omega

/-- Powers of ten that are closer to one another than the ends of an interval have a multiple in it. -/
theorem nearest?_ne_none {exponent : Int} (denominator_pos : 0 < interval.denominator)
    (low_le : interval.low ≤ interval.middle) (middle_lt : interval.middle < interval.high)
    (fine : (10 : ℚ) ^ exponent * interval.denominator < interval.high - interval.low) :
    interval.nearest? exponent ≠ none := by
  have factor_pos := tenTo_pos (-exponent).toNat
  have unit_pos := Nat.mul_pos denominator_pos (tenTo_pos exponent.toNat)
  have units : interval.denominator * tenTo exponent.toNat + interval.low * tenTo (-exponent).toNat <
      interval.high * tenTo (-exponent).toNat := by
    have cast_factor_pos : (0 : ℚ) < tenTo (-exponent).toNat := by exact_mod_cast factor_pos
    rw [← tenTo_div_tenTo, div_mul_eq_mul_div, div_lt_iff₀ cast_factor_pos, sub_mul,
      lt_sub_iff_add_lt, mul_comm (tenTo exponent.toNat : ℚ)] at fine
    exact_mod_cast fine
  intro notFound
  unfold nearest? at notFound
  dsimp only at notFound
  split at notFound
  · split at notFound <;> contradiction
  · contradiction
  · contradiction
  · next lower upper =>
    rcases holds_or_holds factor_pos unit_pos low_le middle_lt units with holds | holds
    · rw [lower] at holds
      contradiction
    · rw [upper] at holds
      contradiction

/-- A search that comes to a fine enough power of ten finds a number in the interval. -/
theorem contains_search (denominator_pos : 0 < interval.denominator)
    (low_le : interval.low ≤ interval.middle) (middle_lt : interval.middle < interval.high)
    (remaining : Nat) (exponent : Int)
    (fine : (10 : ℚ) ^ (exponent - remaining) * interval.denominator < interval.high - interval.low) :
    interval.Contains (interval.search exponent (remaining + 1)).value := by
  induction remaining generalizing exponent with
  | zero =>
      rw [Nat.cast_zero, sub_zero] at fine
      rw [search]
      split
      · next coefficient isFound => exact contains_of_nearest? isFound
      · next notFound =>
        exact absurd notFound (nearest?_ne_none denominator_pos low_le middle_lt fine)
  | succ remaining inductionHypothesis =>
      rw [search]
      split
      · next coefficient isFound => exact contains_of_nearest? isFound
      · refine inductionHypothesis (exponent - 1) ?_
        convert fine using 3
        push_cast
        ring

/-! ## The interval around a double -/

variable {significand : Nat} {exponent : Int}

theorem denominator_ofDouble_pos : 0 < (ofDouble significand exponent).denominator :=
  twoTo_pos _

theorem low_le_middle : (ofDouble significand exponent).low ≤ (ofDouble significand exponent).middle :=
  Nat.mul_le_mul_right _ (Nat.sub_le _ _)

theorem middle_lt_high : (ofDouble significand exponent).middle < (ofDouble significand exponent).high :=
  Nat.mul_lt_mul_of_pos_right (Nat.lt_add_of_pos_right two_pos) (twoTo_pos _)

theorem factor_ofDouble :
    (twoTo (exponent - 2).toNat : ℚ) = 2 ^ exponent / 4 * (ofDouble significand exponent).denominator := by
  have denominator_pos : (0 : ℚ) < twoTo (-(exponent - 2)).toNat := by exact_mod_cast twoTo_pos _
  have power := twoTo_div_twoTo (exponent - 2)
  rw [div_eq_iff denominator_pos.ne', zpow_sub₀ two_ne_zero] at power
  rw [power]
  norm_num [ofDouble]

theorem below_ofDouble :
    ((if significand = twoTo 52 && -1074 < exponent then 1 else 2 : Nat) : ℚ) =
      4 * reachBelow significand exponent := by
  have same : (significand = twoTo 52 && -1074 < exponent) = true ↔
      significand = 2 ^ 52 ∧ -1074 < exponent := by
    rw [Bool.and_eq_true, decide_eq_true_iff, decide_eq_true_iff]
    rfl
  unfold reachBelow
  by_cases least : significand = 2 ^ 52 ∧ -1074 < exponent
  · rw [if_pos least, if_pos (same.mpr least)]
    norm_num
  · rw [if_neg least, if_neg fun isLeast => least (same.mp isLeast)]
    norm_num

theorem low_ofDouble (positive : 0 < significand) :
    ((ofDouble significand exponent).low : ℚ) =
      (significand - reachBelow significand exponent) * 2 ^ exponent *
        (ofDouble significand exponent).denominator := by
  have below_le : (if significand = twoTo 52 && -1074 < exponent then 1 else 2 : Nat) ≤ 4 * significand := by
    split <;> omega
  change (((4 * significand - if significand = twoTo 52 && -1074 < exponent then 1 else 2) *
    twoTo (exponent - 2).toNat : Nat) : ℚ) = _
  rw [Nat.cast_mul, Nat.cast_sub below_le, below_ofDouble, factor_ofDouble]
  push_cast
  ring

theorem middle_ofDouble :
    ((ofDouble significand exponent).middle : ℚ) =
      significand * 2 ^ exponent * (ofDouble significand exponent).denominator := by
  change ((4 * significand * twoTo (exponent - 2).toNat : Nat) : ℚ) = _
  rw [Nat.cast_mul, factor_ofDouble]
  push_cast
  ring

theorem high_ofDouble :
    ((ofDouble significand exponent).high : ℚ) =
      (significand + 1 / 2) * 2 ^ exponent * (ofDouble significand exponent).denominator := by
  change (((4 * significand + 2) * twoTo (exponent - 2).toNat : Nat) : ℚ) = _
  rw [Nat.cast_mul, factor_ofDouble]
  push_cast
  ring

theorem width_ofDouble (positive : 0 < significand) :
    ((ofDouble significand exponent).high : ℚ) - (ofDouble significand exponent).low =
      (1 / 2 + reachBelow significand exponent) * 2 ^ exponent *
        (ofDouble significand exponent).denominator := by
  rw [high_ofDouble, low_ofDouble positive]
  ring

/-- A search around a double starts with a power of ten that is not above it. -/
theorem start_ofDouble_le (positive : 0 < significand) :
    (10 : ℚ) ^ decimalExponent (ofDouble significand exponent).middle
      (ofDouble significand exponent).denominator ≤ significand * 2 ^ exponent := by
  have denominator_pos : (0 : ℚ) < (ofDouble significand exponent).denominator := by
    exact_mod_cast denominator_ofDouble_pos
  have middle_pos : 0 < (ofDouble significand exponent).middle :=
    Nat.mul_pos (by omega) (twoTo_pos _)
  calc
    (10 : ℚ) ^ decimalExponent (ofDouble significand exponent).middle
        (ofDouble significand exponent).denominator ≤
        (ofDouble significand exponent).middle / (ofDouble significand exponent).denominator :=
      tenPower_decimalExponent_le middle_pos denominator_ofDouble_pos
    _ = significand * 2 ^ exponent := by
      rw [middle_ofDouble, mul_div_cancel_right₀ _ denominator_pos.ne']

/-- The interval around a double holds the numbers that are rounded to it. -/
theorem Contains.nearest {number : ℚ} (positive : 0 < significand)
    (contains : (ofDouble significand exponent).Contains number) :
    Nearest significand exponent number := by
  have denominator_pos : (0 : ℚ) < (ofDouble significand exponent).denominator := by
    exact_mod_cast denominator_ofDouble_pos
  unfold Contains at contains
  rw [low_ofDouble positive, high_ofDouble] at contains
  split at contains
  · next even =>
    rw [mul_le_mul_iff_left₀ denominator_pos, mul_le_mul_iff_left₀ denominator_pos] at contains
    have isEven : significand % 2 = 0 := beq_iff_eq.mp even
    exact ⟨contains.1, contains.2, by omega⟩
  · rw [mul_lt_mul_iff_left₀ denominator_pos, mul_lt_mul_iff_left₀ denominator_pos] at contains
    exact ⟨contains.1.le, contains.2.le, fun _ => contains⟩

end RoundingInterval

variable {significand : Nat} {exponent : Int}

/-- Sixteen places below its leading digit, decimals are closer to one another than doubles. -/
theorem Canonical.significand_lt_tenPower (canonical : Canonical significand exponent) :
    (significand : ℚ) < 10 ^ 16 * (1 / 2 + reachBelow significand exponent) := by
  unfold reachBelow
  split
  · next least =>
    rw [least.1]
    norm_num
  · have lt : (significand : ℚ) < 2 ^ 53 := by exact_mod_cast canonical.lt
    exact lt.trans (by norm_num)

/-- The shortest decimal of a double is rounded to it. -/
theorem nearest_shortest (canonical : Canonical significand exponent) :
    Nearest significand exponent (shortest significand exponent).value := by
  have positive := canonical.positive
  apply RoundingInterval.Contains.nearest positive
  apply RoundingInterval.contains_search RoundingInterval.denominator_ofDouble_pos
    RoundingInterval.low_le_middle RoundingInterval.middle_lt_high
  have denominator_pos : (0 : ℚ) < (RoundingInterval.ofDouble significand exponent).denominator := by
    exact_mod_cast RoundingInterval.denominator_ofDouble_pos
  rw [RoundingInterval.width_ofDouble positive, mul_lt_mul_iff_left₀ denominator_pos,
    zpow_sub₀ (by norm_num), div_lt_iff₀ (by positivity)]
  calc
    (10 : ℚ) ^ decimalExponent (RoundingInterval.ofDouble significand exponent).middle
        (RoundingInterval.ofDouble significand exponent).denominator ≤ significand * 2 ^ exponent :=
      RoundingInterval.start_ofDouble_le positive
    _ < 10 ^ 16 * (1 / 2 + reachBelow significand exponent) * 2 ^ exponent :=
      mul_lt_mul_of_pos_right canonical.significand_lt_tenPower (twoPower_pos exponent)
    _ = (1 / 2 + reachBelow significand exponent) * 2 ^ exponent * 10 ^ ((16 : Nat) : Int) := by
      rw [zpow_natCast]
      ring

end Number
end TemplateCascade

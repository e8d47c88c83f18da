import TemplateCascade.Number.Reading
import TemplateCascade.Proofs.Number.Representation
import TemplateCascade.Proofs.Number.Shortest

namespace TemplateCascade
namespace Number

/-!
# Reading decimals back

A decimal is read as the double that it is nearest to.  Small numbers take a short way, by one multiplication
or division of doubles that are exact; all others are multiplied out or divided first and rounded once.
-/

open Float.Model (Format UnpackedFloat totalExponent)
open Float.Model.UnpackedFloat (Sign)

variable {significand : Nat} {exponent : Int} {number : ℚ}

/-- The positive double of a significand and an exponent. -/
def Canonical.double (canonical : Canonical significand exponent) : Float :=
  Float.ofModel (Float.Model.pack (.finite .positive significand exponent canonical.positive))

theorem Canonical.unpack_double (canonical : Canonical significand exponent) :
    canonical.double.toModel.unpack = .finite .positive significand exponent canonical.positive :=
  unpack_pack (.finite .positive canonical)

/-! ## The size of numbers near a double -/

theorem Nearest.least_le (canonical : Canonical significand exponent)
    (nearest : Nearest significand exponent number) : (2 : ℚ) ^ (-1075 : Int) ≤ number := by
  have atLeast : (1 : ℚ) ≤ significand := by exact_mod_cast canonical.positive
  have reach := reachBelow_le significand exponent
  calc
    (2 : ℚ) ^ (-1075 : Int) = 1 / 2 * 2 ^ (-1074 : Int) := by
      rw [one_div, ← zpow_neg_one, ← zpow_add₀ two_ne_zero]
      rfl
    _ ≤ (significand - reachBelow significand exponent) * 2 ^ exponent :=
      mul_le_mul (by linarith) (zpow_le_zpow_right₀ one_le_two canonical.least)
        (twoPower_pos _).le (by linarith)
    _ ≤ number := nearest.above

theorem Nearest.pos (canonical : Canonical significand exponent)
    (nearest : Nearest significand exponent number) : 0 < number :=
  (twoPower_pos _).trans_le (nearest.least_le canonical)

theorem Nearest.lt_greatest (canonical : Canonical significand exponent)
    (nearest : Nearest significand exponent number) : number < 2 ^ (1024 : Int) := by
  have greatest := canonical.greatest
  exact (nearest.lt_twoPower canonical).trans_le (zpow_le_zpow_right₀ one_le_two (by omega))

theorem tenPower_lt_iff {first second : Int} : (10 : ℚ) ^ first < 10 ^ second ↔ first < second :=
  zpow_lt_zpow_iff_right₀ (by norm_num)

theorem twoPower_1024_lt : 2 ^ 1024 < 10 ^ 309 := by decide +kernel

theorem twoPower_1075_lt : 2 ^ 1075 < 10 ^ 324 := by decide +kernel

variable {coefficient : Nat} {place : Int}

theorem Nearest.coefficient_ne (canonical : Canonical significand exponent)
    (nearest : Nearest significand exponent (coefficient * 10 ^ place)) : coefficient ≠ 0 := by
  rintro rfl
  have positive := nearest.pos canonical
  rw [Nat.cast_zero, zero_mul] at positive
  exact lt_irrefl _ positive

/-- The digits of a number near a double reach to at most 309 places before the point. -/
theorem Nearest.length_lt (canonical : Canonical significand exponent)
    (nearest : Nearest significand exponent (coefficient * 10 ^ place)) :
    (digits coefficient).length + place < 310 := by
  have some_ := nearest.coefficient_ne canonical
  have length_pos : 1 ≤ (digits coefficient).length := Nat.length_toDigits_pos
  have leading : (10 : ℚ) ^ (((digits coefficient).length - 1 : Nat) : Int) ≤ coefficient := by
    rw [zpow_natCast]
    exact_mod_cast tenPower_length_le some_
  have below : (10 : ℚ) ^ (((digits coefficient).length - 1 : Nat) + place : Int) < 10 ^ (309 : Int) := by
    calc
      (10 : ℚ) ^ (((digits coefficient).length - 1 : Nat) + place : Int) ≤ coefficient * 10 ^ place := by
        rw [zpow_add₀ (by norm_num)]
        exact mul_le_mul_of_nonneg_right leading (tenPower_pos place).le
      _ < 2 ^ (1024 : Int) := nearest.lt_greatest canonical
      _ < 10 ^ (309 : Int) := by exact_mod_cast twoPower_1024_lt
  have := tenPower_lt_iff.mp below
  omega

theorem Nearest.lt_length (canonical : Canonical significand exponent)
    (nearest : Nearest significand exponent (coefficient * 10 ^ place)) :
    -324 < (digits coefficient).length + place := by
  have leading : (coefficient : ℚ) < 10 ^ ((digits coefficient).length : Int) := by
    rw [zpow_natCast]
    exact_mod_cast lt_tenPower_length coefficient
  refine tenPower_lt_iff.mp ?_
  calc
    (10 : ℚ) ^ (-324 : Int) < 2 ^ (-1075 : Int) := by
      rw [zpow_neg, zpow_neg, inv_lt_inv₀ (tenPower_pos 324) (twoPower_pos 1075)]
      exact_mod_cast twoPower_1075_lt
    _ ≤ coefficient * 10 ^ place := nearest.least_le canonical
    _ < 10 ^ ((digits coefficient).length + place : Int) := by
      rw [zpow_add₀ (by norm_num)]
      exact mul_lt_mul_of_pos_right leading (tenPower_pos place)

/-! ## Multiplying out and dividing first -/

theorem scaled_zero (significand : Nat) : scaled significand 0 = significand := by
  rw [scaled, zpow_zero, mul_one]

/-- The power of ten that a number near a double is written with is neither very large nor very small. -/
theorem Nearest.place_bounds (canonical : Canonical significand exponent)
    (nearest : Nearest significand exponent (coefficient * 10 ^ place)) :
    place < 2048 ∧ -(2048 + coefficient.log2 : Int) ≤ place := by
  have length_lt := nearest.length_lt canonical
  have lt_length := nearest.lt_length canonical
  have length_le : (digits coefficient).length ≤ coefficient.log2 + 1 := by
    apply (Nat.length_toDigits_le_iff (by decide) (Nat.succ_pos _)).mpr
    exact Nat.lt_log2_self.trans_le (Nat.pow_le_pow_left (by decide) _)
  omega

/-- Shifted digits fifty-three places further down are the digits. -/
theorem scaled_shiftLeft (coefficient : Nat) : scaled (coefficient <<< 53) (-53) = coefficient := by
  rw [scaled, Nat.shiftLeft_eq, Nat.cast_mul, mul_assoc, zpow_neg]
  norm_num

/-- A product of shifted digits has bits enough. -/
theorem shifted_fine (some_ : coefficient ≠ 0) {factor : Nat} (positive : 0 < factor) :
    (-53 + 0 : Int) ≤ max (totalExponent (coefficient <<< 53 * factor) (-53 + 0) - 53) (-1074) := by
  have wide : 2 ^ 53 ≤ coefficient <<< 53 * factor := by
    rw [Nat.shiftLeft_eq]
    calc
      2 ^ 53 = 1 * 2 ^ 53 * 1 := by norm_num
      _ ≤ coefficient * 2 ^ 53 * factor :=
        Nat.mul_le_mul (Nat.mul_le_mul_right _ (Nat.pos_of_ne_zero some_)) positive
  have bits := (Nat.le_log2 (by omega)).mpr wide
  unfold totalExponent
  omega

theorem unpacked_ofScientific_eq (canonical : Canonical significand exponent)
    (nearest : Nearest significand exponent (coefficient * 10 ^ place)) :
    UnpackedFloat.ofScientific .binary64 coefficient place =
      .finite .positive significand exponent canonical.positive := by
  have some_ := nearest.coefficient_ne canonical
  have bounds := nearest.place_bounds canonical
  have most : ¬ place > 2 ^ Format.binary64.exponentBits := by
    change ¬ place > 2048
    omega
  have fewest : ¬ place < -((2 ^ Format.binary64.exponentBits : Int) + coefficient.log2) := by
    change ¬ place < -(2048 + (coefficient.log2 : Int))
    omega
  unfold UnpackedFloat.ofScientific
  rw [dif_neg some_, if_neg most, if_neg fewest]
  split
  · next whole =>
    -- The coefficient is multiplied by a power of two beforehand, so that there are bits enough.
    refine mul_eq (shifted_fine some_ (Nat.pow_pos (by decide))) canonical ?_
    convert nearest using 1
    change scaled (coefficient <<< 53) (-53) * scaled (10 ^ place.toNat) 0 = _
    rw [scaled_shiftLeft, scaled_zero, natCast_tenPower (Int.toNat_of_nonneg whole)]
  · next fraction =>
    refine div_eq canonical ?_
    convert nearest using 1
    have power : ((-place).toNat : Int) = -place := Int.toNat_of_nonneg (by omega)
    rw [scaled_zero, scaled_zero, natCast_tenPower power, zpow_neg, div_inv_eq_mul]

/-! ## The short way -/

/-- The value of a double is nearest to it. -/
theorem nearest_scaled (significand : Nat) (exponent : Int) :
    Nearest significand exponent (scaled significand exponent) := by
  have positive := twoPower_pos exponent
  have reach_pos := reachBelow_pos significand exponent
  have above : (significand - reachBelow significand exponent) * 2 ^ exponent <
      scaled significand exponent := mul_lt_mul_of_pos_right (by linarith) positive
  have below : scaled significand exponent < (significand + 1 / 2) * 2 ^ exponent :=
    mul_lt_mul_of_pos_right (by linarith) positive
  exact ⟨above.le, below.le, fun _ => ⟨above, below⟩⟩

/-- A number that is shifted to fifty-three bits has a canonical form. -/
theorem canonical_shiftLeft (some_ : coefficient ≠ 0) (small : coefficient < 2 ^ 53) :
    2 ^ 52 ≤ coefficient <<< (52 - coefficient.log2) ∧
      Canonical (coefficient <<< (52 - coefficient.log2)) (0 - (52 - coefficient.log2 : Nat)) := by
  have bits : coefficient.log2 < 53 := (Nat.log2_lt some_).mpr small
  have least : 2 ^ 52 ≤ coefficient * 2 ^ (52 - coefficient.log2) := by
    calc
      2 ^ 52 = 2 ^ coefficient.log2 * 2 ^ (52 - coefficient.log2) := by
        rw [← pow_add]
        congr 1
        omega
      _ ≤ coefficient * 2 ^ (52 - coefficient.log2) :=
        Nat.mul_le_mul_right _ (Nat.log2_self_le some_)
  have most : coefficient * 2 ^ (52 - coefficient.log2) < 2 ^ 53 := by
    calc
      coefficient * 2 ^ (52 - coefficient.log2) < 2 ^ (coefficient.log2 + 1) * 2 ^ (52 - coefficient.log2) :=
        Nat.mul_lt_mul_of_pos_right Nat.lt_log2_self (Nat.two_pow_pos _)
      _ = 2 ^ 53 := by
        rw [← pow_add]
        congr 1
        omega
  rw [Nat.shiftLeft_eq]
  exact ⟨least, by omega, most, by omega, by omega, by omega⟩

theorem round_eq (some_ : coefficient ≠ 0) (small : coefficient < 2 ^ 53) :
    UnpackedFloat.round .binary64 .positive coefficient 0 =
      .finite .positive (coefficient <<< (52 - coefficient.log2)) (0 - (52 - coefficient.log2 : Nat))
        (canonical_shiftLeft some_ small).2.positive := by
  have canonical := (canonical_shiftLeft some_ small).2
  have shift : (0 - max (totalExponent coefficient 0 - 53) (-1074)).toNat = 52 - coefficient.log2 := by
    have bits : coefficient.log2 < 53 := (Nat.log2_lt some_).mpr small
    unfold totalExponent
    omega
  unfold UnpackedFloat.round UnpackedFloat.decreaseExponent
  rw [targetExponent_eq]
  dsimp only
  rw [shift]
  refine roundWithAccuracy_eq .positive ?_ canonical.target_eq.ge canonical (nearest_scaled _ _)
  rw [scaled, mul_div_cancel_right₀ _ (twoPower_pos _).ne']
  exact stands_exact _

/-- A natural number of at most fifty-three bits is a double. -/
theorem exists_toFloat (some_ : coefficient ≠ 0) (small : coefficient < 2 ^ 53) :
    ∃ significand exponent, ∃ canonical : Canonical significand exponent,
      2 ^ 52 ≤ significand ∧ scaled significand exponent = coefficient ∧
        coefficient.toUInt64.toFloat = canonical.double := by
  have normal := canonical_shiftLeft some_ small
  refine ⟨_, _, normal.2, normal.1, ?_, ?_⟩
  · rw [scaled, Nat.shiftLeft_eq, Nat.cast_mul, mul_assoc, zero_sub, zpow_neg, zpow_natCast]
    push_cast
    field_simp
  · have whole : coefficient.toUInt64.toNat = coefficient := by
      rw [Nat.toUInt64_eq, UInt64.toNat_ofNat']
      omega
    have positive : compare (coefficient : Int) 0 = .gt := compare_gt_iff_gt.mpr (by omega)
    unfold UInt64.toFloat Float.Model.ofUInt64 UnpackedFloat.ofUInt64 UnpackedFloat.ofNat
      UnpackedFloat.ofInt UnpackedFloat.normalize Canonical.double
    rw [whole, ← round_eq some_ small, positive]
    rfl

/-- A double stands for a power of ten and has all its bits. -/
def Double.isPowerOfTen (count : Nat) : Double → Bool
  | .finite false significand exponent =>
      2 ^ 52 ≤ significand && significand * twoTo exponent.toNat == 10 ^ count * twoTo (-exponent).toNat
  | _ => false

/-- The table of powers of ten is right. -/
theorem isPowerOfTen_table : ∀ count : Fin Float.exactlyRepresentablePowersOfTen.size,
    (Double.ofFloat Float.exactlyRepresentablePowersOfTen[count]).isPowerOfTen count = true := by
  decide +kernel

theorem exists_powerOfTen {power : Float} {count : Nat}
    (is_power : (Double.ofFloat power).isPowerOfTen count = true) :
    ∃ significand exponent, ∃ canonical : Canonical significand exponent,
      2 ^ 52 ≤ significand ∧ scaled significand exponent = 10 ^ count ∧ power = canonical.double := by
  have storable := storable_unpack power.toModel
  have whole := (ofModel_pack_unpack power).symm
  rw [Double.ofFloat_eq] at is_power
  generalize power.toModel.unpack = unpacked at *
  rcases storable with _ | _ | (_ | _) | ⟨_ | _, canonical⟩
  · contradiction
  · contradiction
  · contradiction
  · contradiction
  · contradiction
  · next significand exponent =>
    change (2 ^ 52 ≤ significand &&
      significand * twoTo exponent.toNat == 10 ^ count * twoTo (-exponent).toNat) = true at is_power
    rw [Bool.and_eq_true, decide_eq_true_iff, beq_iff_eq] at is_power
    refine ⟨significand, exponent, canonical, is_power.1, ?_, whole⟩
    have divisor_pos : (0 : ℚ) < twoTo (-exponent).toNat := by exact_mod_cast twoTo_pos _
    rw [scaled, ← twoTo_div_twoTo, mul_div_assoc', div_eq_iff divisor_pos.ne']
    exact_mod_cast is_power.2

section Operations

variable {left right : Nat} {leftExponent rightExponent : Int}

theorem Canonical.double_mul_double (first : Canonical left leftExponent)
    (second : Canonical right rightExponent) (leftNormal : 2 ^ 52 ≤ left) (rightNormal : 2 ^ 52 ≤ right)
    (canonical : Canonical significand exponent)
    (nearest : Nearest significand exponent (scaled left leftExponent * scaled right rightExponent)) :
    first.double * second.double = canonical.double := by
  have bits : 104 ≤ (left * right).log2 := by
    apply (Nat.le_log2 (Nat.mul_pos first.positive second.positive).ne').mpr
    calc
      2 ^ 104 = 2 ^ 52 * 2 ^ 52 := by norm_num
      _ ≤ left * right := Nat.mul_le_mul leftNormal rightNormal
  have fine : leftExponent + rightExponent ≤
      max (totalExponent (left * right) (leftExponent + rightExponent) - 53) (-1074) := by
    unfold totalExponent
    omega
  change Float.ofModel (Float.Model.pack
    (UnpackedFloat.mul .binary64 first.double.toModel.unpack second.double.toModel.unpack)) = _
  rw [first.unpack_double, second.unpack_double, mul_eq fine canonical nearest]
  rfl

theorem Canonical.double_div_double (first : Canonical left leftExponent)
    (second : Canonical right rightExponent) (canonical : Canonical significand exponent)
    (nearest : Nearest significand exponent (scaled left leftExponent / scaled right rightExponent)) :
    first.double / second.double = canonical.double := by
  change Float.ofModel (Float.Model.pack
    (UnpackedFloat.div .binary64 first.double.toModel.unpack second.double.toModel.unpack)) = _
  rw [first.unpack_double, second.unpack_double, div_eq canonical nearest]
  rfl

end Operations

/-! ## Reading -/

theorem signed_natAbs (place : Int) :
    (if decide (place < 0) = true then Int.negOfNat place.natAbs else Int.ofNat place.natAbs) = place := by
  rw [Int.negOfNat_eq, Int.ofNat_eq_natCast]
  split
  · next fraction =>
    have := of_decide_eq_true fraction
    omega
  · next whole =>
    have := mt decide_eq_true whole
    omega

theorem ofScientific_eq (canonical : Canonical significand exponent)
    (nearest : Nearest significand exponent (coefficient * 10 ^ place)) :
    Float.ofScientific coefficient (place < 0) place.natAbs = canonical.double := by
  have some_ := nearest.coefficient_ne canonical
  unfold Float.ofScientific
  split
  · next short =>
    have bound : place.natAbs < Float.exactlyRepresentablePowersOfTen.size := Nat.lt_succ_of_le short.2
    rcases exists_toFloat some_ short.1 with ⟨left, leftExponent, first, leftNormal, isLeft, leftSame⟩
    rcases exists_powerOfTen (isPowerOfTen_table ⟨place.natAbs, bound⟩) with
      ⟨right, rightExponent, second, rightNormal, isRight, rightSame⟩
    change Float.exactlyRepresentablePowersOfTen[place.natAbs] = second.double at rightSame
    change scaled right rightExponent = 10 ^ place.natAbs at isRight
    simp only [leftSame, rightSame]
    split
    · next fraction =>
      apply first.double_div_double second canonical
      have power : (10 : ℚ) ^ place = (10 ^ place.natAbs)⁻¹ := by
        rw [← zpow_natCast, ← zpow_neg]
        congr 1
        have := of_decide_eq_true fraction
        omega
      rwa [isLeft, isRight, div_eq_mul_inv, ← power]
    · next whole =>
      apply first.double_mul_double second leftNormal rightNormal canonical
      have power : (10 : ℚ) ^ place = 10 ^ place.natAbs := by
        rw [← zpow_natCast]
        congr 1
        have := mt decide_eq_true whole
        omega
      rwa [isLeft, isRight, ← power]
  · next long =>
    simp only [signed_natAbs]
    exact congrArg (fun unpacked => Float.ofModel (Float.Model.pack unpacked))
      (unpacked_ofScientific_eq canonical nearest)

/-- A decimal is read as the double that it is nearest to. -/
theorem scientific_eq (canonical : Canonical significand exponent)
    (nearest : Nearest significand exponent (coefficient * 10 ^ place)) :
    scientific coefficient place = canonical.double := by
  have lt := nearest.length_lt canonical
  have gt := nearest.lt_length canonical
  unfold digits at lt gt
  unfold scientific
  dsimp only
  rw [if_neg (nearest.coefficient_ne canonical), if_neg (by omega), if_neg (by omega),
    ← ofScientific_eq canonical nearest]
  split
  · next fraction => rw [decide_eq_true fraction]
  · next whole => rw [decide_eq_false whole]

end Number
end TemplateCascade

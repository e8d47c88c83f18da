import TemplateCascade.Number.Decimal
import TemplateCascade.Proofs.Number.Rounding

namespace TemplateCascade
namespace Number

/-!
# The bits of a double

The bits of a double are a sign, an exponent and a mantissa, which stand for one unpacked number each.  Packing
and unpacking are inverse to one another, on the numbers that doubles have room for, so a double is determined
by what it stands for.
-/

open Float.Model (Format UnpackedFloat)
open Float.Model.UnpackedFloat

/-! ## Signs, exponents and mantissas -/

section Components

variable (sign : Sign) (mantissa : BitVec 52)

theorem packComponents_toNat (exponent : BitVec 11) :
    (packComponents .binary64 sign exponent mantissa).toNat =
      sign.toBitVec.toNat * 2 ^ 63 + exponent.toNat * 2 ^ 52 + mantissa.toNat := by
  unfold packComponents
  rw [BitVec.toNat_append, ← Nat.shiftLeft_add_eq_or_of_lt mantissa.isLt, BitVec.toNat_append,
    ← Nat.shiftLeft_add_eq_or_of_lt exponent.isLt, Nat.shiftLeft_eq, Nat.shiftLeft_eq]
  ring

theorem appendOne_toNat : (1#1 ++ mantissa).toNat = 2 ^ 52 + mantissa.toNat := by
  rw [BitVec.toNat_append, ← Nat.shiftLeft_add_eq_or_of_lt mantissa.isLt]
  rfl

/-! What the three parts stand for: the greatest exponent is that of infinity and of the undefined number. -/

theorem unpack_infinity :
    UnpackedFloat.unpack .binary64 (packedInfinity .binary64 sign) = .infinity sign := by
  unfold UnpackedFloat.unpack packedInfinity
  simp only [unpackMantissa_packComponents, unpackExponent_packComponents, unpackSign_packComponents,
    Sign.ofBitVec_toBitVec]
  rfl

theorem unpack_notANumber {mantissa : BitVec 52} (some_ : mantissa ≠ 0#52) :
    UnpackedFloat.unpack .binary64 (packComponents .binary64 sign (-1#11) mantissa) = .notANumber := by
  unfold UnpackedFloat.unpack
  simp only [unpackMantissa_packComponents, unpackExponent_packComponents, unpackSign_packComponents,
    Sign.ofBitVec_toBitVec]
  exact if_neg some_

theorem unpack_subnormal {mantissa : BitVec 52} (positive : 0 < mantissa.toNat) :
    UnpackedFloat.unpack .binary64 (packComponents .binary64 sign 0#11 mantissa) =
      .finite sign mantissa.toNat (-1074) positive := by
  unfold UnpackedFloat.unpack
  simp only [unpackMantissa_packComponents, unpackExponent_packComponents, unpackSign_packComponents,
    Sign.ofBitVec_toBitVec]
  exact dif_neg fun none_ => positive.ne' (congrArg BitVec.toNat none_)

theorem unpack_normal {exponent : BitVec 11} (finite : exponent ≠ -1#11) (normal : exponent ≠ 0#11)
    (positive : 0 < 2 ^ 52 + mantissa.toNat) :
    UnpackedFloat.unpack .binary64 (packComponents .binary64 sign exponent mantissa) =
      .finite sign (2 ^ 52 + mantissa.toNat) (exponent.toNat - 1075) positive := by
  unfold UnpackedFloat.unpack
  simp only [unpackMantissa_packComponents, unpackExponent_packComponents, unpackSign_packComponents,
    Sign.ofBitVec_toBitVec, appendOne_toNat]
  exact (if_neg finite).trans (if_neg normal)

end Components

/-! ## Packing and unpacking -/

/-- A double has room for an unpacked number. -/
inductive Storable : UnpackedFloat → Prop
  | infinity (sign : Sign) : Storable (.infinity sign)
  | notANumber : Storable .notANumber
  | zero (sign : Sign) : Storable (.zero sign)
  | finite (sign : Sign) {significand : Nat} {exponent : Int} (canonical : Canonical significand exponent) :
      Storable (.finite sign significand exponent canonical.positive)

theorem pack_normal (sign : Sign) {significand : Nat} {exponent : Int}
    (canonical : Canonical significand exponent) (normal : 2 ^ 52 ≤ significand) :
    UnpackedFloat.pack .binary64 (.finite sign significand exponent canonical.positive) =
      packComponents .binary64 sign (BitVec.ofNat 11 (exponent + 1075).toNat)
        (BitVec.ofNat 52 significand) := by
  have some_ := canonical.positive.ne'
  have least := canonical.least
  have greatest := canonical.greatest
  have bits : significand.log2 + 1 = Format.binary64.mantissaBits := by
    have most := (Nat.log2_lt some_).mpr canonical.lt
    have fewest := (Nat.le_log2 some_).mpr normal
    change significand.log2 + 1 = 53
    omega
  have biased : exponent + Format.binary64.exponentBias + (52 : Nat) = exponent + 1075 := by
    change exponent + (1023 : Nat) + (52 : Nat) = exponent + 1075
    omega
  unfold UnpackedFloat.pack
  dsimp only
  rw [biased, if_neg (by omega), if_pos bits]

theorem pack_subnormal (sign : Sign) {significand : Nat} (positive : 0 < significand)
    (subnormal : significand < 2 ^ 52) :
    UnpackedFloat.pack .binary64 (.finite sign significand (-1074) positive) =
      packComponents .binary64 sign 0#11 (BitVec.ofNat 52 significand) := by
  have bits : ¬ significand.log2 + 1 = Format.binary64.mantissaBits := by
    have most := (Nat.log2_lt positive.ne').mpr subnormal
    change ¬ significand.log2 + 1 = 53
    omega
  unfold UnpackedFloat.pack
  dsimp only
  rw [if_neg (by decide), if_neg bits]

theorem ofNat_ne {width number : Nat} {vector : BitVec width} (lt : number < 2 ^ width)
    (different : number ≠ vector.toNat) : BitVec.ofNat width number ≠ vector := by
  intro same
  apply different
  rw [← same, BitVec.toNat_ofNat, Nat.mod_eq_of_lt lt]

/-- What a double has room for comes out of it again. -/
theorem unpack_pack {number : UnpackedFloat} (storable : Storable number) :
    (Float.Model.pack number).unpack = number := by
  change UnpackedFloat.unpack .binary64 (UnpackedFloat.pack .binary64 number) = number
  cases storable with
  | infinity sign => exact unpack_infinity sign
  | notANumber => exact unpack_notANumber .positive (by decide)
  | zero sign => exact unpack_packedZero
  | @finite sign significand exponent canonical =>
      have positive := canonical.positive
      have lt := canonical.lt
      have least := canonical.least
      have greatest := canonical.greatest
      rcases Nat.lt_or_ge significand (2 ^ 52) with subnormal | normal
      · cases canonical.normal subnormal
        have mantissa : (BitVec.ofNat 52 significand).toNat = significand :=
          Nat.mod_eq_of_lt subnormal
        rw [pack_subnormal sign positive subnormal, unpack_subnormal sign (by rwa [mantissa])]
        simp only [mantissa]
      · have mantissa : 2 ^ 52 + (BitVec.ofNat 52 significand).toNat = significand := by
          rw [BitVec.toNat_ofNat]
          omega
        have biased : ((BitVec.ofNat 11 (exponent + 1075).toNat).toNat : Int) - 1075 = exponent := by
          rw [BitVec.toNat_ofNat]
          omega
        rw [pack_normal sign canonical normal,
          unpack_normal sign _ (ofNat_ne (by omega) (by change _ ≠ 2047; omega))
            (ofNat_ne (by omega) (by change _ ≠ 0; omega)) (by rwa [mantissa])]
        simp only [mantissa, biased]

/-- The forms that bits take, with what they stand for. -/
inductive Encodes : BitVec Format.binary64.numBits → UnpackedFloat → Prop
  | infinity (sign : Sign) : Encodes (packedInfinity .binary64 sign) (.infinity sign)
  | notANumber (sign : Sign) (mantissa : BitVec 52) (some_ : mantissa ≠ 0#52) :
      Encodes (packComponents .binary64 sign (-1#11) mantissa) .notANumber
  | zero (sign : Sign) : Encodes (packedZero .binary64 sign) (.zero sign)
  | subnormal (sign : Sign) (mantissa : BitVec 52) (positive : 0 < mantissa.toNat) :
      Encodes (packComponents .binary64 sign 0#11 mantissa)
        (.finite sign mantissa.toNat (-1074) positive)
  | normal (sign : Sign) (exponent : BitVec 11) (mantissa : BitVec 52) (finite : exponent ≠ -1#11)
      (normal : exponent ≠ 0#11) (positive : 0 < 2 ^ 52 + mantissa.toNat) :
      Encodes (packComponents .binary64 sign exponent mantissa)
        (.finite sign (2 ^ 52 + mantissa.toNat) (exponent.toNat - 1075) positive)

theorem encodes_unpack (bits : BitVec Format.binary64.numBits) :
    Encodes bits (UnpackedFloat.unpack .binary64 bits) := by
  rw [← packComponents_unpackSign_unpackExponent_unpackMantissa bits]
  generalize Sign.ofBitVec (unpackSign bits) = sign
  generalize (unpackExponent bits : BitVec 11) = exponent
  generalize (unpackMantissa bits : BitVec 52) = mantissa
  by_cases infinite : exponent = -1#11
  · subst infinite
    by_cases none_ : mantissa = 0#52
    · subst none_
      exact unpack_infinity sign ▸ .infinity sign
    · exact unpack_notANumber sign none_ ▸ .notANumber sign mantissa none_
  · by_cases small : exponent = 0#11
    · subst small
      by_cases none_ : mantissa = 0#52
      · subst none_
        rw [show packComponents .binary64 sign 0#11 0#52 = packedZero .binary64 sign from rfl,
          unpack_packedZero]
        exact .zero sign
      · have positive : 0 < mantissa.toNat :=
          Nat.pos_of_ne_zero fun is_zero => none_ (BitVec.eq_of_toNat_eq is_zero)
        exact unpack_subnormal sign positive ▸ .subnormal sign mantissa positive
    · have positive : 0 < 2 ^ 52 + mantissa.toNat := by positivity
      exact unpack_normal sign mantissa infinite small positive ▸
        .normal sign exponent mantissa infinite small positive

theorem exponent_lt {exponent : BitVec 11} (finite : exponent ≠ -1#11) : exponent.toNat < 2047 := by
  have lt := exponent.isLt
  have different : exponent.toNat ≠ 2047 := fun same => finite (BitVec.eq_of_toNat_eq same)
  omega

theorem exponent_pos {exponent : BitVec 11} (normal : exponent ≠ 0#11) : 0 < exponent.toNat :=
  Nat.pos_of_ne_zero fun is_zero => normal (BitVec.eq_of_toNat_eq is_zero)

variable {bits : BitVec Format.binary64.numBits} {number : UnpackedFloat}

theorem Encodes.storable (encodes : Encodes bits number) : Storable number := by
  cases encodes with
  | infinity sign => exact .infinity sign
  | notANumber => exact .notANumber
  | zero sign => exact .zero sign
  | subnormal sign mantissa positive =>
      exact .finite sign ⟨positive, by omega, by omega, by omega, fun _ => rfl⟩
  | normal sign exponent mantissa finite normal positive =>
      have lt := exponent_lt finite
      have some_ := exponent_pos normal
      exact .finite sign ⟨positive, by omega, by omega, by omega, by omega⟩

/-- Whatever comes out of a double has room in it. -/
theorem storable_unpack (number : Float.Model) : Storable number.unpack :=
  (encodes_unpack number.toBits.toBitVec).storable

/-- A double is what it stands for. -/
theorem ofModel_pack_unpack (number : Float) :
    Float.ofModel (Float.Model.pack number.toModel.unpack) = number :=
  Float.ofBits_toBits number

theorem neg_ofModel_pack {number : UnpackedFloat} (storable : Storable number) :
    -Float.ofModel (Float.Model.pack number) = Float.ofModel (Float.Model.pack number.neg) := by
  change Float.ofModel (Float.Model.pack (Float.Model.pack number).unpack.neg) = _
  rw [unpack_pack storable]

theorem zero_eq : (0 : Float) = Float.ofModel (Float.Model.pack (.zero .positive)) := by decide +kernel

theorem unpack_zero : (0 : Float).toModel.unpack = .zero .positive := by
  rw [zero_eq]
  exact unpack_pack (.zero .positive)

theorem unpack_neg_zero : (-0 : Float).toModel.unpack = .zero .negative := by
  rw [zero_eq, neg_ofModel_pack (.zero .positive)]
  exact unpack_pack (.zero .negative)

/-! ## The value of a double -/

/-- What an unpacked number stands for. -/
def Double.ofUnpacked : UnpackedFloat → Double
  | .notANumber => .nan
  | .infinity sign => .infinite (sign == .negative)
  | .zero sign => .finite (sign == .negative) 0 (-1074)
  | .finite sign significand exponent _ => .finite (sign == .negative) significand exponent

theorem Double.ofFloat_of_components {number : Float} {sign : Sign} {exponent : BitVec 11}
    {mantissa : BitVec 52}
    (bits : number.toBits.toBitVec = packComponents .binary64 sign exponent mantissa) :
    Double.ofFloat number =
      if exponent.toNat = 2047 then
        if mantissa.toNat = 0 then .infinite (sign == .negative) else .nan
      else if exponent.toNat = 0 then .finite (sign == .negative) mantissa.toNat (-1074)
      else .finite (sign == .negative) (2 ^ 52 + mantissa.toNat) (exponent.toNat - 1075) := by
  have exponent_bound := exponent.isLt
  have mantissa_bound := mantissa.isLt
  have whole : number.toBits.toNat =
      sign.toBitVec.toNat * 2 ^ 63 + exponent.toNat * 2 ^ 52 + mantissa.toNat :=
    (congrArg BitVec.toNat bits).trans (packComponents_toNat sign mantissa exponent)
  have mantissaPart : number.toBits.toNat % twoTo 52 = mantissa.toNat := by
    change _ % 2 ^ 52 = _
    omega
  have exponentPart : number.toBits.toNat / twoTo 52 % twoTo 11 = exponent.toNat := by
    change _ / 2 ^ 52 % 2 ^ 11 = _
    omega
  have signPart : (number.toBits.toNat / twoTo 63 == 1) = (sign == .negative) := by
    have part : number.toBits.toNat / twoTo 63 = sign.toBitVec.toNat := by
      change _ / 2 ^ 63 = _
      omega
    rw [part]
    cases sign <;> rfl
  unfold Double.ofFloat
  dsimp only
  rw [mantissaPart, exponentPart, signPart]
  rfl

/-- The value of a double is that of its unpacked number. -/
theorem Double.ofFloat_eq (number : Float) :
    Double.ofFloat number = Double.ofUnpacked number.toModel.unpack := by
  have encodes := encodes_unpack number.toBits.toBitVec
  change Double.ofFloat number = Double.ofUnpacked (UnpackedFloat.unpack .binary64 number.toBits.toBitVec)
  generalize isBits : number.toBits.toBitVec = bits at encodes ⊢
  generalize UnpackedFloat.unpack .binary64 bits = unpacked at encodes ⊢
  cases encodes with
  | infinity | zero => exact Double.ofFloat_of_components isBits
  | notANumber sign mantissa some_ =>
      have positive : mantissa.toNat ≠ 0 := fun is_zero => some_ (BitVec.eq_of_toNat_eq is_zero)
      exact (Double.ofFloat_of_components isBits).trans (if_neg positive)
  | subnormal sign mantissa positive => exact Double.ofFloat_of_components isBits
  | normal sign exponent mantissa finite normal positive =>
      rw [Double.ofFloat_of_components isBits, if_neg (exponent_lt finite).ne,
        if_neg (exponent_pos normal).ne']
      rfl

end Number
end TemplateCascade

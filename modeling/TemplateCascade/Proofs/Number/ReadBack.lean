import TemplateCascade.Proofs.Number.Scientific
import TemplateCascade.Proofs.Text.Trimming
import TemplateCascade.Value.Basic

namespace TemplateCascade
namespace Number

/-!
# Numbers read back from their text

Reading the text of a double gives the double, whatever it is: the digits of a decimal are read as its value,
with the point wherever it stands and without the zeros at the end, and the shortest decimal of a double is
rounded to it.  Only the sign of zero is lost.
-/

open Text (isAsciiDigit isBlank asciiLower trimBlanks dropLeadingBlanks dropTrailingBlanks)

/-! ## Digits -/

theorem ofDigits_eq (characters : List Char) : ofDigits characters = Nat.ofDigitChars 10 characters 0 := by
  simp only [ofDigits, Nat.ofDigitChars, Nat.mul_comm]

theorem ofDigits_digits (number : Nat) : ofDigits (digits number) = number := by
  rw [ofDigits_eq]
  exact Nat.ofDigitChars_ten_toDigits

theorem ofDigits_append (front rest : List Char) :
    ofDigits (front ++ rest) = 10 ^ rest.length * ofDigits front + ofDigits rest := by
  rw [ofDigits_eq, ofDigits_eq, ofDigits_eq, Nat.ofDigitChars_append, Nat.ofDigitChars_eq_ofDigitChars_zero]

theorem ofDigits_zeros (count : Nat) : ofDigits (List.replicate count '0') = 0 := by
  rw [ofDigits_eq, Nat.ofDigitChars_replicate_zero, Nat.mul_zero]

theorem isAsciiDigit_of_mem_digits {number : Nat} {character : Char} (member : character ∈ digits number) :
    isAsciiDigit character = true :=
  Nat.isDigit_of_mem_toDigits (by decide) (by decide) member

/-- The zeros at the end of a fraction are all that is dropped. -/
theorem exists_dropTrailingZeros_append (fraction : List Char) :
    ∃ count, dropTrailingZeros fraction ++ List.replicate count '0' = fraction := by
  obtain ⟨count, same⟩ := Text.exists_rdropWhile_append_replicate '0' fraction
  exact ⟨count, same.symm⟩

/-! ## Decimals -/

variable {whole fraction : List Char}

/-- A text of digits is read as a natural number. -/
theorem readDecimal?_digits (some_ : whole ≠ []) (isDigit : ∀ digit ∈ whole, isAsciiDigit digit = true) :
    readDecimal? whole = some (scientific (ofDigits whole) 0) := by
  have taken : whole.takeWhile isAsciiDigit = whole := List.takeWhile_eq_self_iff.mpr isDigit
  have dropped : whole.dropWhile isAsciiDigit = [] := List.dropWhile_eq_nil_iff.mpr isDigit
  have notEmpty : whole.isEmpty = false := List.isEmpty_eq_false_iff.mpr some_
  simp only [readDecimal?, taken, dropped, notEmpty, Bool.false_and, Bool.false_eq_true, if_false,
    readExponent?, Option.map_some, List.append_nil]
  rfl

/-- A text of digits with a point is read as all its digits, moved by the places behind the point. -/
theorem readDecimal?_point (some_ : whole ≠ []) (wholeDigits : ∀ digit ∈ whole, isAsciiDigit digit = true)
    (fractionDigits : ∀ digit ∈ fraction, isAsciiDigit digit = true) :
    readDecimal? (whole ++ '.' :: fraction) =
      some (scientific (ofDigits (whole ++ fraction)) (-(fraction.length : Int))) := by
  have wholeTaken : (whole ++ '.' :: fraction).takeWhile isAsciiDigit = whole := by
    rw [List.takeWhile_append_of_pos wholeDigits]
    exact List.append_nil whole
  have wholeDropped : (whole ++ '.' :: fraction).dropWhile isAsciiDigit = '.' :: fraction := by
    rw [List.dropWhile_append_of_pos wholeDigits]
    rfl
  have taken : fraction.takeWhile isAsciiDigit = fraction :=
    List.takeWhile_eq_self_iff.mpr fractionDigits
  have dropped : fraction.dropWhile isAsciiDigit = [] := List.dropWhile_eq_nil_iff.mpr fractionDigits
  have notEmpty : whole.isEmpty = false := List.isEmpty_eq_false_iff.mpr some_
  simp only [readDecimal?, wholeTaken, wholeDropped, taken, dropped, notEmpty, Bool.false_and,
    Bool.false_eq_true, if_false, readExponent?, Option.map_some, zero_sub]

/-- A text of digits, perhaps with a point among them, that is read as a number. -/
structure Decimal.Spells (text : List Char) (number : ℚ) : Prop where
  starts : ∃ first rest, text = first :: rest ∧ isAsciiDigit first = true
  plain : ∀ character ∈ text, isAsciiDigit character = true ∨ character = '.'
  value : ∃ coefficient : Nat, ∃ place : Int, readDecimal? text = some (scientific coefficient place) ∧
    coefficient * 10 ^ place = number

theorem spells_digits (some_ : whole ≠ []) (isDigit : ∀ digit ∈ whole, isAsciiDigit digit = true) :
    Decimal.Spells whole (ofDigits whole) where
  starts := by
    obtain ⟨first, rest, rfl⟩ := List.exists_cons_of_ne_nil some_
    exact ⟨first, rest, rfl, isDigit first (.head _)⟩
  plain := fun character member => .inl (isDigit character member)
  value := ⟨_, 0, readDecimal?_digits some_ isDigit, by rw [zpow_zero, mul_one]⟩

theorem spells_point (some_ : whole ≠ []) (wholeDigits : ∀ digit ∈ whole, isAsciiDigit digit = true)
    (fractionDigits : ∀ digit ∈ fraction, isAsciiDigit digit = true) :
    Decimal.Spells (whole ++ '.' :: fraction)
      (ofDigits (whole ++ fraction) * 10 ^ (-(fraction.length : Int))) where
  starts := by
    obtain ⟨first, rest, rfl⟩ := List.exists_cons_of_ne_nil some_
    exact ⟨first, _, rfl, wholeDigits first (.head _)⟩
  plain := by
    intro character member
    rcases List.mem_append.mp member with inWhole | inRest
    · exact .inl (wholeDigits character inWhole)
    · rcases List.mem_cons.mp inRest with point | inFraction
      · exact .inr point
      · exact .inl (fractionDigits character inFraction)
  value := ⟨_, _, readDecimal?_point some_ wholeDigits fractionDigits, rfl⟩

/-! The two parts around a point are the digits of the coefficient, behind zeros that fill the space. -/

theorem insertPoint_append (coefficient places : Nat) :
    (insertPoint coefficient places).1 ++ (insertPoint coefficient places).2 =
      List.replicate (places + 1 - (digits coefficient).length) '0' ++ digits coefficient :=
  List.take_append_drop _ _

theorem length_insertPoint (coefficient places : Nat) :
    (insertPoint coefficient places).1 ≠ [] ∧ (insertPoint coefficient places).2.length = places := by
  have length : (List.replicate (places + 1 - (digits coefficient).length) '0' ++ digits coefficient).length =
      max (places + 1) (digits coefficient).length := by
    rw [List.length_append, List.length_replicate]
    omega
  constructor
  · apply List.ne_nil_of_length_pos
    simp only [insertPoint, List.length_take, length]
    omega
  · simp only [insertPoint, List.length_drop, length]
    omega

theorem ofDigits_insertPoint (coefficient places : Nat) :
    ofDigits ((insertPoint coefficient places).1 ++ (insertPoint coefficient places).2) = coefficient := by
  rw [insertPoint_append, ofDigits_append, ofDigits_zeros, ofDigits_digits, Nat.mul_zero, Nat.zero_add]

theorem isAsciiDigit_of_mem_insertPoint {coefficient places : Nat} {digit : Char}
    (member : digit ∈ (insertPoint coefficient places).1 ++ (insertPoint coefficient places).2) :
    isAsciiDigit digit = true := by
  rw [insertPoint_append] at member
  rcases List.mem_append.mp member with zero | inDigits
  · rw [List.eq_of_mem_replicate zero]
    rfl
  · exact isAsciiDigit_of_mem_digits inDigits

/-- What stands before the zeros that are dropped has the value of the whole decimal. -/
theorem Decimal.value_eq_of_zeros {decimal : Decimal} {front kept : List Char} {count : Nat}
    (coefficient : ofDigits (front ++ (kept ++ List.replicate count '0')) = decimal.coefficient)
    (exponent : decimal.exponent = -(kept.length + count : Nat)) :
    decimal.value = ofDigits (front ++ kept) * 10 ^ (-(kept.length : Int)) := by
  rw [← List.append_assoc, ofDigits_append, ofDigits_zeros, List.length_replicate, Nat.add_zero] at coefficient
  rw [Decimal.value, ← coefficient, exponent, Nat.cast_mul, Nat.cast_add, neg_add,
    zpow_add₀ (by norm_num), zpow_neg 10 (count : Int), zpow_natCast]
  push_cast
  field_simp

/-- The text of a decimal spells its value. -/
theorem Decimal.spells_text (decimal : Decimal) : Decimal.Spells decimal.text decimal.value := by
  unfold Decimal.text
  split
  · next whole =>
    have power : (tenTo decimal.exponent.toNat : ℚ) = 10 ^ decimal.exponent := by
      rw [← tenTo_div_tenTo, Int.toNat_of_nonpos (Int.neg_nonpos_of_nonneg whole), tenTo_zero,
        Nat.cast_one, div_one]
    have some_ : digits (decimal.coefficient * tenTo decimal.exponent.toNat) ≠ [] :=
      Nat.toDigits_ne_nil
    have spells := spells_digits some_ fun _ => isAsciiDigit_of_mem_digits
    rw [ofDigits_digits, Nat.cast_mul, power] at spells
    exact spells
  · next fraction =>
    have places : ((-decimal.exponent).toNat : Int) = -decimal.exponent :=
      Int.toNat_of_nonneg (by omega)
    generalize (-decimal.exponent).toNat = count at places ⊢
    obtain ⟨some_, length⟩ := length_insertPoint decimal.coefficient count
    have coefficient := ofDigits_insertPoint decimal.coefficient count
    have isDigit : ∀ digit ∈ (insertPoint decimal.coefficient count).1 ++
        (insertPoint decimal.coefficient count).2, isAsciiDigit digit = true :=
      fun _ => isAsciiDigit_of_mem_insertPoint
    generalize insertPoint decimal.coefficient count = parts at *
    obtain ⟨front, behind⟩ := parts
    obtain ⟨dropped, restored⟩ := exists_dropTrailingZeros_append behind
    dsimp only at *
    generalize dropTrailingZeros behind = kept at *
    rw [← restored] at length coefficient isDigit
    rw [List.length_append, List.length_replicate] at length
    rw [Decimal.value_eq_of_zeros coefficient (by omega)]
    simp only [List.forall_mem_append] at isDigit
    cases kept with
    | nil =>
        rw [List.append_nil, List.length_nil, Nat.cast_zero, neg_zero, zpow_zero, mul_one]
        exact spells_digits some_ isDigit.1
    | cons digit rest => exact spells_point some_ isDigit.1 isDigit.2.1

/-! ## Numbers -/

theorem isBlank_of_isAsciiDigit {character : Char} (isDigit : isAsciiDigit character = true) :
    isBlank character = false := by
  have bounds : 48 ≤ character.toNat ∧ character.toNat ≤ 57 := by
    rw [isAsciiDigit, Bool.and_eq_true, decide_eq_true_iff, decide_eq_true_iff] at isDigit
    exact isDigit
  simp only [isBlank, Bool.or_eq_false_iff, Bool.and_eq_false_iff, decide_eq_false_iff_not,
    beq_eq_false_iff_ne]
  omega

/-- A text without blanks has no blank margins. -/
theorem trimBlanks_eq_self {text : List Char} (plain : ∀ character ∈ text, isBlank character = false) :
    trimBlanks text = text := by
  have unchanged {characters : List Char} (plain : ∀ character ∈ characters, isBlank character = false) :
      characters.dropWhile isBlank = characters := by
    cases characters with
    | nil => rfl
    | cons first rest => exact List.dropWhile_cons_of_neg (by rw [plain first (.head _)]; decide)
  have reversed : ∀ character ∈ text.reverse, isBlank character = false :=
    fun character member => plain character (List.mem_reverse.mp member)
  rw [trimBlanks, dropLeadingBlanks, dropTrailingBlanks, unchanged plain, unchanged reversed,
    List.reverse_reverse]

/-- A text that starts with a digit is no word. -/
theorem readUnsigned?_of_isAsciiDigit {first : Char} {rest : List Char}
    (isDigit : isAsciiDigit first = true) :
    readUnsigned? (first :: rest) = readDecimal? (first :: rest) := by
  have lower : asciiLower first = first := by
    rw [isAsciiDigit, Bool.and_eq_true, decide_eq_true_iff, decide_eq_true_iff] at isDigit
    refine if_neg fun upper => ?_
    rw [Bool.and_eq_true, decide_eq_true_iff, decide_eq_true_iff] at upper
    exact absurd (upper.1.trans isDigit.2) (by decide)
  have noWord (letter : Char) (letters : List Char) (isLetter : isAsciiDigit letter = false) :
      String.ofList ((first :: rest).map asciiLower) ≠ String.ofList (letter :: letters) := by
    intro same
    have characters := String.ofList_injective same
    rw [List.map_cons, lower, List.cons.injEq] at characters
    rw [← characters.1, isDigit] at isLetter
    contradiction
  unfold readUnsigned?
  split
  · next word => exact absurd word (noWord 'i' ['n', 'f'] (by decide))
  · next word => exact absurd word (noWord 'i' "nfinity".toList (by decide))
  · next word => exact absurd word (noWord 'n' ['a', 'n'] (by decide))
  · rfl

theorem splitSign_of_isAsciiDigit {first : Char} {rest : List Char} (isDigit : isAsciiDigit first = true) :
    splitSign (first :: rest) = (false, first :: rest) := by
  unfold splitSign
  split
  · next minus =>
    rw [(List.cons.inj minus).1] at isDigit
    contradiction
  · next plus =>
    rw [(List.cons.inj plus).1] at isDigit
    contradiction
  · rfl

variable {text : List Char} {number : ℚ} {significand : Nat} {exponent : Int}

/-- What spells a number near a double is read as the double, and with a sign as its negative. -/
theorem Decimal.Spells.read?_eq (spells : Decimal.Spells text number)
    (canonical : Canonical significand exponent) (nearest : Nearest significand exponent number)
    (negative : Bool) :
    read? (signText negative ++ text) =
      some (if negative then -canonical.double else canonical.double) := by
  obtain ⟨first, rest, rfl, isDigit⟩ := spells.starts
  obtain ⟨coefficient, place, reads, value⟩ := spells.value
  rw [← value] at nearest
  rw [scientific_eq canonical nearest, ← readUnsigned?_of_isAsciiDigit isDigit] at reads
  have signed : splitSign (signText negative ++ first :: rest) = (negative, first :: rest) := by
    cases negative with
    | true => rfl
    | false => exact splitSign_of_isAsciiDigit isDigit
  rw [read?, signed]
  dsimp only
  rw [reads]
  rfl

/-- Neither the sign nor the digits nor the point are blank. -/
theorem Decimal.Spells.trimBlanks_eq (spells : Decimal.Spells text number) (negative : Bool) :
    trimBlanks (signText negative ++ text) = signText negative ++ text := by
  apply trimBlanks_eq_self
  rw [List.forall_mem_append]
  constructor
  · intro character member
    cases negative with
    | true =>
        rw [List.mem_singleton.mp member]
        rfl
    | false => contradiction
  · intro character member
    rcases spells.plain character member with isDigit | rfl
    · exact isBlank_of_isAsciiDigit isDigit
    · rfl

theorem Canonical.signed_eq (canonical : Canonical significand exponent) (sign : Float.Model.UnpackedFloat.Sign) :
    (if sign == .negative then -canonical.double else canonical.double) =
      Float.ofModel (Float.Model.pack (.finite sign significand exponent canonical.positive)) := by
  cases sign with
  | negative => exact neg_ofModel_pack (.finite .positive canonical)
  | positive => rfl

end Number

namespace Value

open Number

/-- A number without the sign of zero. -/
def unsigned (number : Float) : Float :=
  if number == 0 then 0 else number

/-- The number that is read from the text of a number is the number, save for the sign of zero. -/
theorem numberOf?_numberText (number : Float) :
    numberOf? (numberText number) = some (unsigned number) := by
  unfold unsigned
  have storable := storable_unpack number.toModel
  have isDouble := Double.ofFloat_eq number
  have whole := ofModel_pack_unpack number
  generalize isUnpacked : number.toModel.unpack = unpacked at storable isDouble whole
  cases storable with
  | infinity sign =>
      subst whole
      cases sign <;> decide +kernel
  | notANumber =>
      subst whole
      decide +kernel
  | zero sign =>
      subst whole
      cases sign <;> decide +kernel
  | @finite sign significand exponent canonical =>
      have different : (number == 0) = false := by
        have comparison : (number == 0) = number.toModel.unpack.beq (0 : Float).toModel.unpack := rfl
        rw [comparison, isUnpacked, unpack_zero]
        cases sign <;> rfl
      have spells := (shortest significand exponent).spells_text
      have nearest := nearest_shortest canonical
      have text : numberText number =
          String.ofList (signText (sign == .negative) ++ (shortest significand exponent).text) := by
        rw [numberText, different, shortestText, shortestCharacters, isDouble]
        simp only [Double.ofUnpacked, Bool.false_eq_true, if_false, if_neg canonical.positive.ne']
      rw [text, different, numberOf?, String.toList_ofList, spells.trimBlanks_eq,
        spells.read?_eq canonical nearest, canonical.signed_eq, whole]
      rfl

end Value
end TemplateCascade

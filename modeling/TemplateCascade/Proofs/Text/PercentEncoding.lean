import Mathlib
import TemplateCascade.Proofs.Text.Entities

namespace TemplateCascade
namespace Text

/-!
# Percent-encoding

A component of a URL is made of unreserved characters and of bytes written as a percent sign with two digits to
base sixteen.  Decoding it gives the bytes of the text that was escaped.
-/

/-! ## Reading -/

/-- The characters of a URL that never stand for anything but themselves. -/
def IsUnreservedCharacter (character : Char) : Prop :=
  character.isAlphanum = true ∨ character ∈ ['-', '.', '_', '~']

instance (character : Char) : Decidable (IsUnreservedCharacter character) :=
  inferInstanceAs (Decidable (_ ∨ _))

/-- A digit to base sixteen that is no small letter. -/
def IsUpperHexDigit (character : Char) : Prop :=
  character.isDigit = true ∨ character ∈ ['A', 'B', 'C', 'D', 'E', 'F']

instance (character : Char) : Decidable (IsUpperHexDigit character) :=
  inferInstanceAs (Decidable (_ ∨ _))

/-- Unreserved characters, and bytes with a percent sign and two digits in upper case. -/
inductive IsUrlComponent : List Char → Prop where
  | nil : IsUrlComponent []
  | unreserved {character : Char} {rest : List Char} (isUnreserved : IsUnreservedCharacter character)
      (more : IsUrlComponent rest) : IsUrlComponent (character :: rest)
  | byte {high low : Char} {rest : List Char} (isHigh : IsUpperHexDigit high) (isLow : IsUpperHexDigit low)
      (more : IsUrlComponent rest) : IsUrlComponent ('%' :: high :: low :: rest)

/-- What a digit to base sixteen stands for, in either case. -/
def hexDigit? (digit : Char) : Option Nat :=
  if digit.isDigit then some (digit.toNat - '0'.toNat)
  else if 'A' ≤ digit ∧ digit ≤ 'F' then some (digit.toNat - 'A'.toNat + 10)
  else if 'a' ≤ digit ∧ digit ≤ 'f' then some (digit.toNat - 'a'.toNat + 10)
  else none

/-- What some digits to base sixteen stand for. -/
def hexNumber? (digits : List Char) : Option Nat :=
  (digits.mapM hexDigit?).map fun values => Nat.ofDigits 16 values.reverse

/-- The bytes of a text in which a percent sign with two digits stands for a byte.  Any other percent sign
stands for itself. -/
def percentDecode : List Char → List UInt8
  | '%' :: high :: low :: rest =>
      match hexNumber? [high, low] with
      | some byte => UInt8.ofNat byte :: percentDecode rest
      | none => String.utf8EncodeChar '%' ++ percentDecode (high :: low :: rest)
  | first :: rest => String.utf8EncodeChar first ++ percentDecode rest
  | [] => []

/-- The text whose bytes a component of a URL stands for, if they are those of a text. -/
def decodeComponent? (component : List Char) : Option String :=
  String.fromUTF8? (percentDecode component).toByteArray

theorem IsUpperHexDigit.isUnreservedCharacter {digit : Char} (isDigit : IsUpperHexDigit digit) :
    IsUnreservedCharacter digit := by
  rcases isDigit with isDigit | isLetter
  · exact .inl (Bool.or_eq_true _ _ ▸ .inr isDigit)
  · revert isLetter
    simp only [List.mem_cons, List.not_mem_nil, or_false]
    rintro (rfl | rfl | rfl | rfl | rfl | rfl) <;> decide

theorem IsUrlComponent.isUnreservedCharacter {component : List Char} (isComponent : IsUrlComponent component) :
    ∀ character ∈ component, character = '%' ∨ IsUnreservedCharacter character := by
  induction isComponent with
  | nil => exact fun _ member => absurd member List.not_mem_nil
  | unreserved isUnreserved _ inductionHypothesis =>
      exact List.forall_mem_cons.mpr ⟨.inr isUnreserved, inductionHypothesis⟩
  | byte isHigh isLow _ inductionHypothesis =>
      have later := List.forall_mem_cons.mpr ⟨.inr isLow.isUnreservedCharacter, inductionHypothesis⟩
      exact List.forall_mem_cons.mpr
        ⟨.inl rfl, List.forall_mem_cons.mpr ⟨.inr isHigh.isUnreservedCharacter, later⟩⟩

theorem percentDecode_cons {first : Char} (plain : first ≠ '%') (rest : List Char) :
    percentDecode (first :: rest) = String.utf8EncodeChar first ++ percentDecode rest := by
  rw [percentDecode]
  simp [plain]

/-! ## Bytes -/

theorem isUpperHexDigit_upperHexDigit {value : Nat} (digit : value < 16) :
    IsUpperHexDigit (upperHexDigit value) := by
  revert value
  decide

theorem hexDigit?_upperHexDigit {value : Nat} (digit : value < 16) :
    hexDigit? (upperHexDigit value) = some value := by
  revert value
  decide

theorem hexNumber?_byte (byte : UInt8) :
    hexNumber? [upperHexDigit (byte.toNat / 16), upperHexDigit (byte.toNat % 16)] = some byte.toNat := by
  have small : byte.toNat < 256 := byte.toNat_lt
  have high : hexDigit? (upperHexDigit (byte.toNat / 16)) = some (byte.toNat / 16) :=
    hexDigit?_upperHexDigit (by omega)
  have low : hexDigit? (upperHexDigit (byte.toNat % 16)) = some (byte.toNat % 16) :=
    hexDigit?_upperHexDigit (by omega)
  simp only [hexNumber?, List.mapM_cons, List.mapM_nil, high, low]
  simp [Nat.ofDigits]
  omega

/-- A byte that is written as it is stands for an unreserved character of ASCII. -/
theorem isUnreservedCharacter_ofNat {code : Nat} (ascii : code < 128)
    (unreserved : isUnreserved (UInt8.ofNat code) = true) :
    IsUnreservedCharacter (Char.ofNat code) ∧ Char.ofNat code ≠ '%' := by
  revert code
  decide

theorem utf8EncodeChar_ofNat {code : Nat} (ascii : code < 128) :
    String.utf8EncodeChar (Char.ofNat code) = [UInt8.ofNat code] := by
  revert code
  decide

/-- A byte is written as itself if that is an unreserved character, and as its number otherwise. -/
theorem urlByte_cases (byte : UInt8) :
    (∃ character, urlByte byte = [character] ∧ IsUnreservedCharacter character ∧ character ≠ '%' ∧
        String.utf8EncodeChar character = [byte]) ∨
      urlByte byte = ['%', upperHexDigit (byte.toNat / 16), upperHexDigit (byte.toNat % 16)] := by
  by_cases unreserved : isUnreserved byte = true
  · have ascii : byte.toNat < 128 := by
      by_contra large
      have reserved := isUnreserved_ofNat_eq_false (Nat.not_lt.mp large) byte.toNat_lt
      rw [UInt8.ofNat_toNat, unreserved] at reserved
      cases reserved
    have isSame : UInt8.ofNat byte.toNat = byte := UInt8.ofNat_toNat
    rcases isUnreservedCharacter_ofNat ascii (isSame.symm ▸ unreserved) with ⟨isCharacter, notPercent⟩
    refine .inl ⟨_, if_pos unreserved, isCharacter, notPercent, ?_⟩
    rw [utf8EncodeChar_ofNat ascii, isSame]
  · exact .inr (if_neg unreserved)

theorem percentDecode_urlByte (byte : UInt8) (rest : List Char) :
    percentDecode (urlByte byte ++ rest) = byte :: percentDecode rest := by
  rcases urlByte_cases byte with ⟨character, isSingle, _, notPercent, isEncoded⟩ | isNumber
  · rw [isSingle, List.singleton_append, percentDecode_cons notPercent, isEncoded, List.singleton_append]
  · rw [isNumber]
    simp only [List.cons_append, List.nil_append, percentDecode, hexNumber?_byte, UInt8.ofNat_toNat]

theorem isUrlComponent_urlByte (byte : UInt8) {rest : List Char} (more : IsUrlComponent rest) :
    IsUrlComponent (urlByte byte ++ rest) := by
  have small : byte.toNat < 256 := byte.toNat_lt
  rcases urlByte_cases byte with ⟨character, isSingle, isUnreserved, _⟩ | isNumber
  · rw [isSingle]
    exact .unreserved isUnreserved more
  · rw [isNumber]
    exact .byte (isUpperHexDigit_upperHexDigit (by omega)) (isUpperHexDigit_upperHexDigit (by omega)) more

theorem percentDecode_flatMap_urlByte (bytes : List UInt8) :
    percentDecode (bytes.flatMap urlByte) = bytes := by
  induction bytes with
  | nil => rfl
  | cons byte bytes inductionHypothesis =>
      rw [List.flatMap_cons, percentDecode_urlByte, inductionHypothesis]

theorem isUrlComponent_flatMap_urlByte (bytes : List UInt8) : IsUrlComponent (bytes.flatMap urlByte) := by
  induction bytes with
  | nil => exact .nil
  | cons byte bytes inductionHypothesis => exact isUrlComponent_urlByte byte inductionHypothesis

/-! ## Escaped text -/

/-- Escaping a text as a component of a URL is writing its bytes one by one. -/
theorem applyTo_url (text : List Char) :
    Escaping.url.applyTo text = (text.flatMap String.utf8EncodeChar).flatMap urlByte :=
  List.flatMap_assoc.symm

/-- A component of a URL for a text: it has the form of one, and its bytes are those of the text in UTF-8. -/
structure IsUrlFor (text output : List Char) : Prop where
  component : IsUrlComponent output
  decoded : (percentDecode output).toByteArray = (String.ofList text).toUTF8

theorem isUrlFor_applyTo (text : List Char) : IsUrlFor text (Escaping.url.applyTo text) where
  component := applyTo_url text ▸ isUrlComponent_flatMap_urlByte (text.flatMap String.utf8EncodeChar)
  decoded := by
    rw [applyTo_url, percentDecode_flatMap_urlByte]
    exact String.toByteArray_ofList.symm

/-- A component of a URL for a text is read as that text. -/
theorem IsUrlFor.decodeComponent?_eq {text : String} {output : List Char}
    (written : IsUrlFor text.toList output) : decodeComponent? output = some text := by
  have decoded : (percentDecode output).toByteArray = text.toByteArray := by
    rw [written.decoded, String.ofList_toList]
    rfl
  rw [decodeComponent?, decoded, String.fromUTF8?, dif_pos text.isValidUTF8]
  rfl

end Text
end TemplateCascade

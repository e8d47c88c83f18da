import Mathlib
import TemplateCascade.Text.Escaping
import TemplateCascade.Value.Basic

namespace TemplateCascade

/-!
# Text without angle brackets

Text in which no tag can begin or end.  Every way of escaping yields such text, whatever it is given, and
so does writing a number.
-/

namespace Text

/-- A character that neither opens nor closes a tag. -/
def IsHarmless (character : Char) : Prop :=
  character ≠ '<' ∧ character ≠ '>'

instance (character : Char) : Decidable (IsHarmless character) :=
  inferInstanceAs (Decidable (character ≠ '<' ∧ character ≠ '>'))

/-- Text of harmless characters. -/
def MarkupFree (text : String) : Prop :=
  ∀ character ∈ text.toList, IsHarmless character

theorem MarkupFree.empty : MarkupFree "" :=
  nofun

theorem MarkupFree.append {left right : String} (first : MarkupFree left) (second : MarkupFree right) :
    MarkupFree (left ++ right) := by
  intro character member
  rw [String.toList_append, List.mem_append] at member
  rcases member with inLeft | inRight
  · exact first character inLeft
  · exact second character inRight

/-! ## Escaping -/

theorem htmlCharacter_harmless (plain : Char) : ∀ written ∈ htmlCharacter plain, IsHarmless written := by
  unfold htmlCharacter
  split
  · simp [IsHarmless]
  split
  · simp [IsHarmless]
  split
  · simp [IsHarmless]
  split
  · simp [IsHarmless]
  split
  · simp [IsHarmless]
  · next notOpen notClose _ _ =>
      intro written member
      rw [List.mem_singleton] at member
      exact member ▸ ⟨notOpen, notClose⟩

theorem scriptCharacter_harmless (plain : Char) :
    ∀ written ∈ scriptCharacter plain, IsHarmless written := by
  unfold scriptCharacter
  split
  · simp [IsHarmless]
  split
  · simp [IsHarmless]
  split
  · simp [IsHarmless]
  split
  · simp [IsHarmless]
  split
  · simp [IsHarmless]
  split
  · simp [IsHarmless]
  split
  · simp [IsHarmless]
  split
  · simp [IsHarmless]
  split
  · simp [IsHarmless]
  · next notOpen notClose _ _ =>
      intro written member
      rw [List.mem_singleton] at member
      exact member ▸ ⟨notOpen, notClose⟩

theorem upperHexDigit_harmless : ∀ value < 16, IsHarmless (upperHexDigit value) := by
  decide

/-- An unreserved byte stands for the character of its own code. -/
theorem toNat_ofNat_byte (byte : UInt8) : (Char.ofNat byte.toNat).toNat = byte.toNat := by
  have small : byte.toNat < 256 := byte.toNat_lt
  exact (Char.toNat_ofNat _).trans (if_pos (Or.inl (by omega)))

/-- Neither bracket is unreserved, and no digit is one. -/
theorem urlByte_harmless (byte : UInt8) : ∀ written ∈ urlByte byte, IsHarmless written := by
  have small : byte.toNat < 256 := byte.toNat_lt
  unfold urlByte
  split
  · next unreserved =>
      intro written member
      rw [List.mem_singleton.mp member]
      have isItsCode {bracket : Char} (same : Char.ofNat byte.toNat = bracket) :
          byte = UInt8.ofNat bracket.toNat := by
        rw [← same, toNat_ofNat_byte, UInt8.ofNat_toNat]
      constructor
      · intro isOpen
        rw [isItsCode isOpen] at unreserved
        exact absurd unreserved (by decide)
      · intro isClose
        rw [isItsCode isClose] at unreserved
        exact absurd unreserved (by decide)
  · simp only [List.mem_cons, List.not_mem_nil, or_false, forall_eq_or_imp, forall_eq]
    exact ⟨by decide, upperHexDigit_harmless _ (by omega), upperHexDigit_harmless _ (by omega)⟩

theorem urlCharacter_harmless (plain : Char) : ∀ written ∈ urlCharacter plain, IsHarmless written := by
  intro written member
  rcases List.mem_flatMap.mp member with ⟨byte, _, inByte⟩
  exact urlByte_harmless byte written inByte

/-- Escaped text holds no angle bracket. -/
theorem markupFree_apply {mode : Escaping} (escapes : mode ≠ .raw) (text : String) :
    MarkupFree (mode.apply text) := by
  intro written member
  rw [Escaping.toList_apply, Escaping.applyTo, List.mem_flatMap] at member
  rcases member with ⟨plain, _, inPlain⟩
  cases mode with
  | raw => exact absurd rfl escapes
  | html => exact htmlCharacter_harmless plain written inPlain
  | url => exact urlCharacter_harmless plain written inPlain
  | script => exact scriptCharacter_harmless plain written inPlain

end Text

/-! ## Numbers -/

namespace Number

open Text (IsHarmless MarkupFree)

theorem digits_harmless (number : Nat) : ∀ digit ∈ digits number, IsHarmless digit := by
  intro digit member
  have isDigit := Nat.isDigit_of_mem_toDigits (by decide) (by decide) member
  constructor
  · rintro rfl
    exact absurd isDigit (by decide)
  · rintro rfl
    exact absurd isDigit (by decide)

theorem insertPoint_harmless (coefficient places : Nat) :
    (∀ digit ∈ (insertPoint coefficient places).1, IsHarmless digit) ∧
      ∀ digit ∈ (insertPoint coefficient places).2, IsHarmless digit := by
  have padded : ∀ digit ∈ List.replicate (places + 1 - (digits coefficient).length) '0' ++
      digits coefficient, IsHarmless digit := by
    intro digit member
    rcases List.mem_append.mp member with isZero | isWritten
    · rw [List.eq_of_mem_replicate isZero]
      decide
    · exact digits_harmless coefficient digit isWritten
  exact ⟨fun digit member => padded digit (List.mem_of_mem_take member),
    fun digit member => padded digit (List.mem_of_mem_drop member)⟩

theorem dropTrailingZeros_subset (fraction : List Char) : dropTrailingZeros fraction ⊆ fraction := by
  intro digit member
  rw [dropTrailingZeros, List.mem_reverse] at member
  exact List.mem_reverse.mp ((List.dropWhile_suffix _).subset member)

theorem decimalText_harmless (decimal : Decimal) : ∀ written ∈ decimal.text, IsHarmless written := by
  unfold Decimal.text
  split
  · exact digits_harmless _
  · have parts := insertPoint_harmless decimal.coefficient (-decimal.exponent).toNat
    dsimp only
    split
    · exact parts.1
    · intro written member
      rcases List.mem_append.mp member with inWhole | behind
      · exact parts.1 written inWhole
      · rcases List.mem_cons.mp behind with isPoint | inFraction
        · rw [isPoint]
          decide
        · exact parts.2 written (dropTrailingZeros_subset _ inFraction)

theorem signText_harmless (negative : Bool) : ∀ written ∈ signText negative, IsHarmless written := by
  cases negative <;> simp [signText, IsHarmless]

theorem shortestCharacters_harmless (number : Float) :
    ∀ written ∈ shortestCharacters number, IsHarmless written := by
  unfold shortestCharacters
  split
  · simp [IsHarmless]
  · next negative _ =>
      exact List.forall_mem_append.mpr ⟨signText_harmless negative, by simp [IsHarmless]⟩
  · next negative significand exponent _ =>
      refine List.forall_mem_append.mpr ⟨signText_harmless negative, ?_⟩
      split
      · simp [IsHarmless]
      · exact decimalText_harmless _

/-- The text of a number holds no angle bracket. -/
theorem markupFree_numberText (number : Float) : MarkupFree (Value.numberText number) := by
  intro written member
  unfold Value.numberText at member
  split at member
  · revert written
    simp [IsHarmless]
  · rw [shortestText, String.toList_ofList] at member
    exact shortestCharacters_harmless number written member

end Number
end TemplateCascade

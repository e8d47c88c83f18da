import Mathlib
import TemplateCascade.Text.Escaping

namespace TemplateCascade
namespace Text

/-!
# Entities

What is escaped as HTML has none of the characters of markup left in it but the ampersands of entities, and
putting the characters back for their entities gives the text that was escaped.

What holds of every way of escaping comes first: reading goes character by character as writing does, and
whatever stands somewhere in escaped text was written for one character.
-/

namespace Escaping

/-- What reads the writing of one character in front of anything reads the writing of a text. -/
theorem read_applyTo {Result : Type} {mode : Escaping} {read : List Char → Result}
    {put : Char → Result → Result}
    (step : ∀ plain rest, read (mode.character plain ++ rest) = put plain (read rest)) (text : List Char) :
    read (mode.applyTo text) = text.foldr put (read []) := by
  induction text with
  | nil => rfl
  | cons first rest inductionHypothesis =>
      rw [applyTo, List.flatMap_cons, step, ← applyTo, inductionHypothesis, List.foldr_cons]

/-- A character of escaped text stands in what was written for one character of the text. -/
theorem exists_of_applyTo_eq {mode : Escaping} {text front rest : List Char} {written : Char}
    (split : mode.applyTo text = front ++ written :: rest) :
    ∃ before plain after seen left, text = before ++ plain :: after ∧
      mode.character plain = seen ++ written :: left ∧
      front = mode.applyTo before ++ seen ∧ rest = left ++ mode.applyTo after := by
  induction text generalizing front with
  | nil => cases front <;> cases split
  | cons first others inductionHypothesis =>
      rw [applyTo, List.flatMap_cons, ← applyTo] at split
      rcases List.append_eq_append_iff.mp split with ⟨seen, isFront, later⟩ | ⟨left, isFirst, isRest⟩
      · rcases inductionHypothesis later with
          ⟨before, plain, after, inside, behind, rfl, isPlain, rfl, rfl⟩
        refine ⟨first :: before, plain, after, inside, behind, rfl, isPlain, ?_, rfl⟩
        rw [isFront, ← List.append_assoc]
        rfl
      · cases left with
        | nil =>
            have later : mode.applyTo others = [] ++ written :: rest := isRest.symm
            rcases inductionHypothesis later with
              ⟨before, plain, after, inside, behind, rfl, isPlain, isNothing, rfl⟩
            refine ⟨first :: before, plain, after, inside, behind, rfl, isPlain, ?_, rfl⟩
            rw [applyTo, List.flatMap_cons, List.append_assoc, ← applyTo, ← isNothing, isFirst]
            simp
        | cons head left =>
            cases isRest
            exact ⟨[], first, others, front, left, rfl, isFirst, rfl, rfl⟩

end Escaping

/-! ## Reading -/

/-- The entities that stand for the characters of markup. -/
def entities : List (List Char) :=
  [['&', 'a', 'm', 'p', ';'], ['&', 'l', 't', ';'], ['&', 'g', 't', ';'], ['&', 'q', 'u', 'o', 't', ';'],
    ['&', '#', '0', '3', '9', ';']]

/-- A text with the entities of markup replaced by what they stand for. -/
def decodeEntities : List Char → List Char
  | '&' :: 'a' :: 'm' :: 'p' :: ';' :: rest => '&' :: decodeEntities rest
  | '&' :: 'l' :: 't' :: ';' :: rest => '<' :: decodeEntities rest
  | '&' :: 'g' :: 't' :: ';' :: rest => '>' :: decodeEntities rest
  | '&' :: 'q' :: 'u' :: 'o' :: 't' :: ';' :: rest => '"' :: decodeEntities rest
  | '&' :: '#' :: '0' :: '3' :: '9' :: ';' :: rest => '\'' :: decodeEntities rest
  | first :: rest => first :: decodeEntities rest
  | [] => []

theorem decodeEntities_cons {first : Char} (plain : first ≠ '&') (rest : List Char) :
    decodeEntities (first :: rest) = first :: decodeEntities rest := by
  rw [decodeEntities] <;> simp [plain]

/-- A character of markup is written as its entity, any other as itself. -/
theorem htmlCharacter_cases (plain : Char) :
    (plain ∉ markupCharacters ∧ htmlCharacter plain = [plain]) ∨
      ∃ entity ∈ entities, htmlCharacter plain = entity ∧
        ∀ rest, decodeEntities (entity ++ rest) = plain :: decodeEntities rest := by
  by_cases special : plain ∈ markupCharacters
  · refine .inr ?_
    simp only [markupCharacters, List.mem_cons, List.not_mem_nil, or_false] at special
    rcases special with rfl | rfl | rfl | rfl | rfl
    · exact ⟨_, .head _, rfl, fun rest => rfl⟩
    · exact ⟨_, .tail _ (.head _), rfl, fun rest => rfl⟩
    · exact ⟨_, .tail _ (.tail _ (.head _)), rfl, fun rest => rfl⟩
    · exact ⟨_, .tail _ (.tail _ (.tail _ (.head _))), rfl, fun rest => rfl⟩
    · exact ⟨_, .tail _ (.tail _ (.tail _ (.tail _ (.head _)))), rfl, fun rest => rfl⟩
  · exact .inl ⟨special, htmlCharacter_of_not_mem special⟩

/-- No entity has an ampersand inside. -/
theorem eq_nil_of_entity_eq {entity seen left : List Char} (listed : entity ∈ entities)
    (split : entity = seen ++ '&' :: left) : seen = [] := by
  have noneInside : '&' ∉ entity.tail := by
    clear split
    revert entity
    decide
  cases seen with
  | nil => rfl
  | cons head seen =>
      rw [split, List.cons_append, List.tail_cons] at noneInside
      exact absurd (List.mem_append_right seen List.mem_cons_self) noneInside

theorem decodeEntities_htmlCharacter (plain : Char) (rest : List Char) :
    decodeEntities (htmlCharacter plain ++ rest) = plain :: decodeEntities rest := by
  rcases htmlCharacter_cases plain with ⟨ordinary, isPlain⟩ | ⟨entity, _, isEntity, decoded⟩
  · rw [isPlain, List.singleton_append, decodeEntities_cons]
    rintro rfl
    exact ordinary (by decide)
  · rw [isEntity, decoded]

/-! ## Escaped text -/

/-- Escaped HTML for a text: its only characters of markup are the ampersands of entities, and it is read as
the text. -/
structure IsHtmlFor (text output : List Char) : Prop where
  unmarked : ∀ written ∈ output, written ≠ '<' ∧ written ≠ '>' ∧ written ≠ '"' ∧ written ≠ '\''
  ampersand : ∀ front rest, output = front ++ '&' :: rest → ∃ entity ∈ entities, entity <+: '&' :: rest
  decoded : decodeEntities output = text

theorem isHtmlFor_applyTo (text : List Char) : IsHtmlFor text (Escaping.html.applyTo text) where
  unmarked := by
    intro written member
    rcases List.mem_flatMap.mp member with ⟨plain, _, inPlain⟩
    rcases htmlCharacter_cases plain with ⟨ordinary, isPlain⟩ | ⟨entity, isListed, isEntity, _⟩
    · rw [Escaping.character, isPlain, List.mem_singleton] at inPlain
      subst inPlain
      refine ⟨?_, ?_, ?_, ?_⟩ <;>
        · rintro rfl
          exact ordinary (by decide)
    · rw [Escaping.character, isEntity] at inPlain
      have unmarked : ∀ entity ∈ entities, ∀ written ∈ entity,
          written ≠ '<' ∧ written ≠ '>' ∧ written ≠ '"' ∧ written ≠ '\'' := by simp [entities]
      exact unmarked entity isListed written inPlain
  ampersand := by
    intro front rest split
    rcases Escaping.exists_of_applyTo_eq split with
      ⟨before, plain, after, seen, left, _, isPlain, _, rfl⟩
    rw [Escaping.character] at isPlain
    rcases htmlCharacter_cases plain with ⟨ordinary, isSingle⟩ | ⟨entity, listed, isEntity, _⟩
    · have member : '&' ∈ [plain] := by
        rw [← isSingle, isPlain]
        exact List.mem_append_right seen List.mem_cons_self
      rw [← List.mem_singleton.mp member] at ordinary
      exact absurd (by decide) ordinary
    · rw [isEntity] at isPlain
      have nothing := eq_nil_of_entity_eq listed isPlain
      rw [nothing, List.nil_append] at isPlain
      exact ⟨entity, listed, isPlain ▸ List.prefix_append ('&' :: left) _⟩
  decoded := (Escaping.read_applyTo decodeEntities_htmlCharacter text).trans List.foldr_cons_nil

end Text
end TemplateCascade

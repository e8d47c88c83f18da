import Mathlib
import TemplateCascade.Proofs.Markup.Nodes

namespace TemplateCascade
namespace Markup

/-!
# Escapes

Quoted text stands for one character after the other, each written as itself or behind a backslash.  So there
is a place in the source for every place in the text, and the two are equally far from the start exactly if
nothing in front of them is escaped.
-/

open Text

/-- How a character may be written in quotes. -/
inductive IsSpelling (character : Char) : List Char → Prop where
  | itself : IsSpelling character [character]
  | escaped (notBreak : character ≠ '\n') : IsSpelling character ['\\', character]

/-- Quoted text, cut into the characters of each character that it stands for. -/
def spellings : List Char → List (List Char)
  | [] => []
  | [last] => [[last]]
  | first :: second :: rest =>
      if first = '\\' && (second = '\\' || second = '"' || second = '\'') then
        [first, second] :: spellings rest
      else [first] :: spellings (second :: rest)

theorem flatten_spellings (written : List Char) : (spellings written).flatten = written := by
  fun_induction spellings written with
  | case1 => rfl
  | case2 => rfl
  | case3 first second rest escapes inductionHypothesis =>
      rw [List.flatten_cons, inductionHypothesis]
      rfl
  | case4 first second rest plain inductionHypothesis =>
      rw [List.flatten_cons, inductionHypothesis]
      rfl

theorem isSpelling_spellings (written : List Char) :
    List.Forall₂ IsSpelling (unescape written) (spellings written) := by
  fun_induction spellings written with
  | case1 => exact .nil
  | case2 last => exact .cons .itself .nil
  | case3 first second rest escapes inductionHypothesis =>
      rw [unescape, if_pos escapes]
      refine .cons ?_ inductionHypothesis
      rw [Bool.and_eq_true, decide_eq_true_iff] at escapes
      rcases escapes with ⟨rfl, isEscaped⟩
      refine .escaped ?_
      rintro rfl
      cases isEscaped
  | case4 first second rest plain inductionHypothesis =>
      rw [unescape, if_neg plain]
      exact .cons .itself inductionHypothesis

/-- The text of a literal in an argument, cut into the characters of each character that it stands for. -/
def Setting.spellings : Setting → List Char → List (List Char)
  | .quoted, written => Markup.spellings written
  | .plain, written | .body, written => written.map fun character => [character]

/-- The characters of the source that the first characters of a text are written with. -/
def Setting.opening (setting : Setting) (written : List Char) (count : Nat) : List Char :=
  ((setting.spellings written).take count).flatten

section Openings

variable {setting : Setting} {written before rest : List Char}

theorem Setting.spelled (isArgument : setting ≠ .body) {text : List Char} (spells : setting.Spells written text) :
    (setting.spellings written).flatten = written ∧
      List.Forall₂ IsSpelling text (setting.spellings written) := by
  cases setting with
  | body => exact absurd rfl isArgument
  | quoted =>
      cases spells
      exact ⟨flatten_spellings written, isSpelling_spellings written⟩
  | plain =>
      cases spells
      refine ⟨?_, ?_⟩
      · rw [Setting.spellings, ← List.flatMap_def, List.flatMap_singleton']
      · rw [Setting.spellings, List.forall₂_map_right_iff]
        exact List.forall₂_same.mpr fun _ _ => .itself

/-- What stands in the source in front of a place in a text spells what stands in the text in front of it. -/
theorem Setting.spelled_opening (isArgument : setting ≠ .body) (spells : setting.Spells written (before ++ rest)) :
    (∃ behind, written = setting.opening written before.length ++ behind) ∧
      List.Forall₂ IsSpelling before ((setting.spellings written).take before.length) := by
  rcases setting.spelled isArgument spells with ⟨whole, spelled⟩
  refine ⟨⟨((setting.spellings written).drop before.length).flatten, ?_⟩, ?_⟩
  · rw [Setting.opening, ← List.flatten_append, List.take_append_drop, whole]
  · have first := List.forall₂_take before.length spelled
    rwa [List.take_left] at first

theorem count_break_of_spelled {text : List Char} {spelled : List (List Char)}
    (isSpelled : List.Forall₂ IsSpelling text spelled) : spelled.flatten.count '\n' = text.count '\n' := by
  induction isSpelled with
  | nil => rfl
  | cons first more inductionHypothesis =>
      rw [List.flatten_cons, List.count_append, inductionHypothesis]
      cases first with
      | itself => rw [← List.count_append, List.singleton_append]
      | escaped notBreak =>
          rw [List.count_cons_of_ne notBreak, List.count_cons_of_ne (by decide), List.count_singleton,
            if_neg (by simpa using notBreak), Nat.zero_add]

/-- Every escape takes a byte more, so there are as many bytes exactly if there is no escape. -/
theorem byteLength_of_spelled {text : List Char} {spelled : List (List Char)}
    (isSpelled : List.Forall₂ IsSpelling text spelled) : byteLength text ≤ byteLength spelled.flatten ∧
      (byteLength spelled.flatten = byteLength text ↔ spelled.flatten = text) := by
  induction isSpelled with
  | nil => exact ⟨le_rfl, iff_of_true rfl rfl⟩
  | cons first more inductionHypothesis =>
      rename_i character written text spelled
      rcases inductionHypothesis with ⟨fewer, same⟩
      rw [List.flatten_cons, byteLength_append, byteLength]
      cases first with
      | itself =>
          rw [List.singleton_append, List.cons_inj_right, ← same, byteLength, byteLength]
          omega
      | escaped notBreak =>
          have longer : character.utf8Size + byteLength text <
              byteLength ['\\', character] + byteLength spelled.flatten := by
            have single : '\\'.utf8Size = 1 := rfl
            simp only [byteLength, single]
            omega
          refine ⟨longer.le, iff_of_false longer.ne' fun isSame => longer.ne' ?_⟩
          rw [← byteLength_append, isSame, byteLength]

end Openings

end Markup
end TemplateCascade

import Mathlib

namespace TemplateCascade
namespace Text

/-!
# Trimmed text

Dropping a character from the ends of a text leaves the rest as it is, and leaves none at the ends.
-/

variable (character : Char) (text : List Char)

theorem exists_replicate_append_dropWhile :
    ∃ count, text = List.replicate count character ++ text.dropWhile (· == character) := by
  refine ⟨(text.takeWhile (· == character)).length, ?_⟩
  have repeated : text.takeWhile (· == character) =
      List.replicate (text.takeWhile (· == character)).length character := by
    apply List.eq_replicate_of_mem
    intro other member
    exact beq_iff_eq.mp (@List.mem_takeWhile_imp Char (· == character) text other member)
  rw [← repeated, List.takeWhile_append_dropWhile]

theorem exists_rdropWhile_append_replicate :
    ∃ count, text = text.rdropWhile (· == character) ++ List.replicate count character := by
  obtain ⟨count, same⟩ := exists_replicate_append_dropWhile character text.reverse
  refine ⟨count, ?_⟩
  rw [List.reverse_eq_append_iff, List.reverse_replicate] at same
  exact same

theorem head?_dropWhile_ne : (text.dropWhile (· == character)).head? ≠ some character := by
  intro isFirst
  have other := List.head?_dropWhile_not (· == character) text
  rw [isFirst] at other
  exact bne_iff_ne.mp (congrArg not other) rfl

theorem getLast?_rdropWhile_ne : (text.rdropWhile (· == character)).getLast? ≠ some character := by
  rw [List.rdropWhile, List.getLast?_reverse]
  exact head?_dropWhile_ne character text.reverse

variable {character text} {kept : List Char}

/-- What is left of a text without a character at its end. -/
structure IsTrimmedEnd (character : Char) (text kept : List Char) : Prop where
  whole : ∃ count, text = kept ++ List.replicate count character
  last : kept.getLast? ≠ some character

/-- What is left of a text without a character at its ends. -/
structure IsTrimmed (character : Char) (text kept : List Char) : Prop where
  whole : ∃ before behind,
    text = List.replicate before character ++ kept ++ List.replicate behind character
  first : kept.head? ≠ some character
  last : kept.getLast? ≠ some character

theorem isTrimmedEnd_rdropWhile (character : Char) (text : List Char) :
    IsTrimmedEnd character text (text.rdropWhile (· == character)) :=
  ⟨exists_rdropWhile_append_replicate character text, getLast?_rdropWhile_ne character text⟩

theorem isTrimmed_rdropWhile_dropWhile (character : Char) (text : List Char) :
    IsTrimmed character text ((text.dropWhile (· == character)).rdropWhile (· == character)) where
  whole := by
    obtain ⟨before, front⟩ := exists_replicate_append_dropWhile character text
    obtain ⟨behind, back⟩ := exists_rdropWhile_append_replicate character (text.dropWhile (· == character))
    refine ⟨before, behind, ?_⟩
    rw [List.append_assoc, ← back, ← front]
  first := by
    obtain ⟨dropped, same⟩ := List.rdropWhile_prefix (· == character) (text.dropWhile (· == character))
    intro isFirst
    apply head?_dropWhile_ne character text
    rw [← same, List.head?_append, isFirst]
    rfl
  last := getLast?_rdropWhile_ne character (text.dropWhile (· == character))

end Text
end TemplateCascade

import Mathlib
import TemplateCascade.Code.Basic

namespace TemplateCascade
namespace Code

/-!
# Concatenations

`Code.concatenate` flattens one level of concatenation and joins adjacent text.  Code whose parts are no
concatenations themselves is flat; concatenating flat codes gives flat code, and codes that are
concatenated in two steps give what they give in one.
-/

/-- The parts of some codes in a row, with adjacent text joined. -/
def joined (codes : List Code) : List Code :=
  (codes.flatMap parts).foldr consPart []

theorem concatenate_eq (codes : List Code) : concatenate codes = ofParts (joined codes) := rfl

@[simp]
theorem joined_nil : joined [] = [] := rfl

theorem joined_append (front behind : List Code) :
    joined (front ++ behind) = (front.flatMap parts).foldr consPart (joined behind) := by
  rw [joined, List.flatMap_append, List.foldr_append]
  rfl

/-! ## Putting parts in front -/

@[simp]
theorem consPart_empty (rest : List Code) : consPart (.text "") rest = rest := rfl

theorem consPart_text_text {content : String} (written : content ≠ "") (next : String)
    (more : List Code) :
    consPart (.text content) (.text next :: more) = .text (content ++ next) :: more := by
  rw [consPart, if_neg written]

/-- What can come of putting a part in front of others: empty text goes, a text is merged with a text that comes
next, and everything else stands by itself. -/
inductive PutsInFront (part : Code) : List Code → List Code → Prop where
  | nothing {rest : List Code} (isEmpty : part = .text "") : PutsInFront part rest rest
  | merged {content next : String} {more : List Code} (isText : part = .text content) (written : content ≠ "") :
      PutsInFront part (.text next :: more) (.text (content ++ next) :: more)
  | apart {rest : List Code} (written : part ≠ .text "")
      (isApart : ∀ next ∈ rest.head?, part.text? = none ∨ next.text? = none) :
      PutsInFront part rest (part :: rest)

theorem putsInFront_consPart (part : Code) (rest : List Code) : PutsInFront part rest (consPart part rest) := by
  cases part with
  | text content =>
      by_cases isEmpty : content = ""
      · rw [isEmpty]
        exact .nothing rfl
      unfold consPart
      dsimp only
      rw [if_neg isEmpty]
      split
      · exact .merged rfl isEmpty
      · next noText =>
          refine .apart (fun same => isEmpty (Code.text.inj same)) fun next isFirst => Or.inr ?_
          rcases List.head?_eq_some_iff.mp isFirst with ⟨more, rfl⟩
          cases next with
          | text other => exact absurd rfl (noText other more)
          | _ => rfl
  | _ => exact .apart (by simp) fun _ _ => Or.inl rfl

theorem consPart_eq_cons {part : Code} {rest : List Code} (written : part ≠ .text "")
    (isApart : ∀ next ∈ rest.head?, part.text? = none ∨ next.text? = none) :
    consPart part rest = part :: rest := by
  have put := putsInFront_consPart part rest
  generalize consPart part rest = all at put ⊢
  cases put with
  | nothing isEmpty => exact absurd isEmpty written
  | merged isText _ =>
      subst isText
      rcases isApart _ rfl with noText | noText <;> cases noText
  | apart => rfl

/-- Two texts can be put in front one after the other, or as one. -/
theorem consPart_append (first second : String) (rest : List Code) :
    consPart (.text first) (consPart (.text second) rest) = consPart (.text (first ++ second)) rest := by
  by_cases noFirst : first = ""
  · rw [noFirst, consPart_empty, String.empty_append]
  have written : first ++ second ≠ "" := fun nothing =>
    noFirst (String.append_eq_empty_iff.mp nothing).1
  have put := putsInFront_consPart (.text second) rest
  generalize consPart (.text second) rest = all at put ⊢
  cases put with
  | nothing isEmpty => rw [Code.text.inj isEmpty, String.append_empty]
  | merged isText _ =>
      cases isText
      rw [consPart_text_text noFirst, consPart_text_text written, String.append_assoc]
  | apart _ isApart =>
      rw [consPart_text_text noFirst, consPart_eq_cons (fun same => written (Code.text.inj same))]
      exact fun next isFirst => Or.inr ((isApart next isFirst).resolve_left nofun)

/-- Joining what has been joined already changes nothing. -/
theorem foldr_consPart_consPart (part : Code) (rest behind : List Code) :
    (consPart part rest).foldr consPart behind = consPart part (rest.foldr consPart behind) := by
  have put := putsInFront_consPart part rest
  generalize consPart part rest = all at put ⊢
  cases put with
  | nothing isEmpty => rw [isEmpty, consPart_empty]
  | merged isText _ => rw [isText, List.foldr_cons, List.foldr_cons, consPart_append]
  | apart => rw [List.foldr_cons]

theorem foldr_joined (parts behind : List Code) :
    (parts.foldr consPart []).foldr consPart behind = parts.foldr consPart behind := by
  induction parts with
  | nil => rfl
  | cons part rest inductionHypothesis =>
      rw [List.foldr_cons, foldr_consPart_consPart, inductionHypothesis, List.foldr_cons]

/-! ## Flat code -/

/-- No part is a concatenation itself. -/
def Flat (code : Code) : Prop :=
  ∀ part ∈ code.parts, part.parts = [part]

theorem flat_of_parts {code : Code} (single : code.parts = [code]) : code.Flat := by
  intro part member
  rw [single, List.mem_singleton] at member
  rw [member, single]

theorem flat_text (content : String) : (Code.text content).Flat :=
  flat_of_parts rfl

/-- Joining leaves the parts what they are, text aside. -/
theorem forall_mem_consPart {holds : Code → Prop} (texts : ∀ content, holds (.text content))
    {part : Code} {rest : List Code} (first : holds part) (others : ∀ other ∈ rest, holds other) :
    ∀ other ∈ consPart part rest, holds other := by
  have put := putsInFront_consPart part rest
  generalize consPart part rest = all at put ⊢
  cases put with
  | nothing => exact others
  | merged => exact List.forall_mem_cons.mpr ⟨texts _, (List.forall_mem_cons.mp others).2⟩
  | apart => exact List.forall_mem_cons.mpr ⟨first, others⟩

theorem single_of_mem_joined {codes : List Code} (flat : ∀ code ∈ codes, code.Flat) :
    ∀ part ∈ joined codes, part.parts = [part] := by
  have single : ∀ part ∈ codes.flatMap parts, part.parts = [part] := by
    intro part member
    rcases List.mem_flatMap.mp member with ⟨code, isCode, isPart⟩
    exact flat code isCode part isPart
  rw [joined]
  generalize codes.flatMap parts = all at single
  induction all with
  | nil => exact nofun
  | cons part rest inductionHypothesis =>
      rw [List.forall_mem_cons] at single
      exact forall_mem_consPart (fun _ => rfl) single.1 (inductionHypothesis single.2)

/-- The code for some joined parts has these parts, but for text that is not written. -/
theorem foldr_parts_concatenate {codes : List Code} (flat : ∀ code ∈ codes, code.Flat)
    (behind : List Code) :
    (concatenate codes).parts.foldr consPart behind = (joined codes).foldr consPart behind := by
  have single := single_of_mem_joined flat
  rw [concatenate_eq]
  generalize joined codes = all at single
  match all, single with
  | [], _ => rfl
  | [part], single =>
      change part.parts.foldr consPart behind = _
      rw [single part List.mem_cons_self]
  | _ :: _ :: _, _ => rfl

theorem flat_concatenate {codes : List Code} (flat : ∀ code ∈ codes, code.Flat) :
    (concatenate codes).Flat := by
  have single := single_of_mem_joined flat
  rw [concatenate_eq]
  generalize joined codes = all at single
  match all, single with
  | [], _ => exact flat_text ""
  | [part], single => exact flat_of_parts (single part List.mem_cons_self)
  | _ :: _ :: _, single => exact single

/-- A concatenation inside another one may be taken apart. -/
theorem joined_concatenate_append {inner : List Code} (flat : ∀ code ∈ inner, code.Flat)
    (behind : List Code) : joined (concatenate inner :: behind) = joined (inner ++ behind) := by
  rw [← List.singleton_append, joined_append, joined_append, List.flatMap_singleton,
    foldr_parts_concatenate flat]
  exact foldr_joined (inner.flatMap parts) (joined behind)

end Code

end TemplateCascade

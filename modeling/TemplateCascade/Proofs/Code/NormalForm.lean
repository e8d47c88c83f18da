import Mathlib
import TemplateCascade.Proofs.Code.Concatenation

namespace TemplateCascade

/-!
# Normal form

Code that can be rendered as it is has no inclusion left in it.  If it is put together by `Code.concatenate`
and `Code.escaped` only, then its concatenations are tight as well: none of them could be written shorter.

Both are said of every piece of code, wherever it stands: in a body, in a condition, in a calculation, as the
source of a loop or as what a function of the application is given.
-/

/-! ## Code inside code -/

mutual

/-- Code and all code inside it have a property. -/
def Code.Throughout (holds : Code → Prop) : Code → Prop
  | .text content => holds (.text content)
  | .constant value => holds (.constant value)
  | .reference path => holds (.reference path)
  | .concat parts => holds (.concat parts) ∧ Code.ThroughoutAll holds parts
  | .escape mode inner => holds (.escape mode inner) ∧ inner.Throughout holds
  | .conditional test body otherwise =>
      holds (.conditional test body otherwise) ∧
        test.Throughout holds ∧ body.Throughout holds ∧ otherwise.Throughout holds
  | .each source key value body =>
      holds (.each source key value body) ∧ source.Throughout holds ∧ body.Throughout holds
  | .arithmetic calculation => holds (.arithmetic calculation) ∧ calculation.Throughout holds
  | .format kind value option =>
      holds (.format kind value option) ∧ value.Throughout holds ∧ Code.ThroughoutOption holds option
  | .link kind data parameters =>
      holds (.link kind data parameters) ∧
        kind.Throughout holds ∧ Code.ThroughoutOption holds data ∧ Code.ThroughoutNamed holds parameters
  | .pageNavigation link data page perPage total parameters =>
      holds (.pageNavigation link data page perPage total parameters) ∧
        link.Throughout holds ∧ data.Throughout holds ∧ page.Throughout holds ∧
          perPage.Throughout holds ∧ total.Throughout holds ∧ Code.ThroughoutNamed holds parameters
  | .helper name arguments =>
      holds (.helper name arguments) ∧ name.Throughout holds ∧ Code.ThroughoutAll holds arguments
  | .inclusion name => holds (.inclusion name)

def Code.ThroughoutAll (holds : Code → Prop) : List Code → Prop
  | [] => True
  | code :: rest => code.Throughout holds ∧ Code.ThroughoutAll holds rest

def Code.ThroughoutOption (holds : Code → Prop) : Option Code → Prop
  | none => True
  | some code => code.Throughout holds

def Code.ThroughoutNamed (holds : Code → Prop) : List (String × Code) → Prop
  | [] => True
  | (_, code) :: rest => code.Throughout holds ∧ Code.ThroughoutNamed holds rest

/-- All code inside a condition has a property. -/
def Test.Throughout (holds : Code → Prop) : Test → Prop
  | .truthy code => code.Throughout holds
  | .not inner => inner.Throughout holds
  | .and left right => left.Throughout holds ∧ right.Throughout holds
  | .or left right => left.Throughout holds ∧ right.Throughout holds
  | .compare _ left right => left.Throughout holds ∧ right.Throughout holds

/-- All code inside a calculation has a property. -/
def Arithmetic.Throughout (holds : Code → Prop) : Arithmetic → Prop
  | .number _ => True
  | .value code => code.Throughout holds
  | .negate inner => inner.Throughout holds
  | .binary _ left right => left.Throughout holds ∧ right.Throughout holds
  | .function _ arguments => Arithmetic.ThroughoutAll holds arguments

def Arithmetic.ThroughoutAll (holds : Code → Prop) : List Arithmetic → Prop
  | [] => True
  | calculation :: rest => calculation.Throughout holds ∧ Arithmetic.ThroughoutAll holds rest

end

namespace Code

variable {holds : Code → Prop}

theorem throughoutAll_iff {codes : List Code} :
    ThroughoutAll holds codes ↔ ∀ code ∈ codes, code.Throughout holds := by
  induction codes with
  | nil => exact iff_of_true trivial nofun
  | cons code rest inductionHypothesis =>
      rw [List.forall_mem_cons, ← inductionHypothesis]
      rfl

/-! ## Tight concatenations -/

/-- Of two codes in a row, one at most is text. -/
def Apart (first second : Code) : Prop :=
  first.text? = none ∨ second.text? = none

/-- There are several parts, none is a concatenation itself, none is empty, and no two texts follow each
other. -/
structure Tight (parts : List Code) : Prop where
  several : 2 ≤ parts.length
  single : ∀ inner, .concat inner ∉ parts
  written : .text "" ∉ parts
  apart : parts.IsChain Apart

/-- Code is no inclusion, and a concatenation only if it is a tight one. -/
structure Proper (code : Code) : Prop where
  expanded : ∀ name, code ≠ .inclusion name
  tight : ∀ parts, code = .concat parts → Tight parts

/-- Code and all code inside it are proper. -/
abbrev InNormalForm (code : Code) : Prop :=
  code.Throughout Proper

theorem inNormalForm_text (content : String) : (Code.text content).InNormalForm :=
  ⟨nofun, nofun⟩

theorem inNormalForm_constant (value : Value) : (Code.constant value).InNormalForm :=
  ⟨nofun, nofun⟩

theorem inNormalForm_reference (path : List String) : (Code.reference path).InNormalForm :=
  ⟨nofun, nofun⟩

theorem Throughout.parts {code : Code} (held : code.Throughout holds) :
    ∀ part ∈ code.parts, part.Throughout holds := by
  cases code with
  | concat parts => exact throughoutAll_iff.mp held.2
  | _ => exact List.forall_mem_singleton.mpr held

/-- Code is its own single part exactly if it is no concatenation. -/
theorem parts_eq_singleton_iff {code : Code} : code.parts = [code] ↔ ∀ inner, code ≠ .concat inner := by
  cases code with
  | concat parts =>
      refine iff_of_false (fun same => ?_) fun single => single parts rfl
      have larger := congrArg sizeOf same
      simp only [Code.parts, List.cons.sizeOf_spec, List.nil.sizeOf_spec, Code.concat.sizeOf_spec] at larger
      omega
  | _ => exact iff_of_true rfl nofun

/-- What a property has to say for code to stay as tight as it is: of text nothing, and of a concatenation that
it is tight. -/
structure AsksTight (holds : Code → Prop) : Prop where
  text : ∀ content, holds (.text content)
  concat : ∀ parts, holds (.concat parts) ↔ Tight parts

theorem asksTight_proper : AsksTight Proper where
  text := inNormalForm_text
  concat := by
    intro parts
    constructor
    · exact fun proper => proper.tight parts rfl
    · intro tight
      refine ⟨nofun, ?_⟩
      rintro _ ⟨⟩
      exact tight

theorem AsksTight.throughout_text (asks : AsksTight holds) (content : String) :
    (Code.text content).Throughout holds :=
  asks.text content

theorem AsksTight.flat (asks : AsksTight holds) {code : Code} (held : code.Throughout holds) : code.Flat := by
  cases code with
  | concat parts =>
      intro part member
      rw [parts_eq_singleton_iff]
      rintro inner rfl
      exact ((asks.concat parts).mp held.1).single inner member
  | _ => exact flat_of_parts rfl

/-! ## Joining keeps texts apart -/

theorem isChain_consPart {part : Code} {rest : List Code} (chain : rest.IsChain Apart) :
    (consPart part rest).IsChain Apart := by
  have put := putsInFront_consPart part rest
  generalize consPart part rest = all at put ⊢
  cases put with
  | nothing => exact chain
  | merged =>
      rw [List.isChain_cons] at chain ⊢
      exact ⟨fun other first => Or.inr ((chain.1 other first).resolve_left nofun), chain.2⟩
  | apart _ isApart => exact chain.cons isApart

theorem written_consPart {part : Code} {rest : List Code} (written : .text "" ∉ rest) :
    .text "" ∉ consPart part rest := by
  have put := putsInFront_consPart part rest
  generalize consPart part rest = all at put ⊢
  cases put with
  | nothing => exact written
  | merged _ some_ =>
      rw [List.mem_cons, not_or] at written ⊢
      refine ⟨fun same => some_ ?_, written.2⟩
      exact (String.append_eq_empty_iff.mp (Code.text.inj same).symm).1
  | apart some_ =>
      rw [List.mem_cons, not_or]
      exact ⟨some_.symm, written⟩

theorem isChain_joined (codes : List Code) : (joined codes).IsChain Apart := by
  rw [joined]
  induction codes.flatMap parts with
  | nil => exact .nil
  | cons part rest inductionHypothesis => exact isChain_consPart inductionHypothesis

theorem written_joined (codes : List Code) : .text "" ∉ joined codes := by
  rw [joined]
  induction codes.flatMap parts with
  | nil => exact List.not_mem_nil
  | cons part rest inductionHypothesis => exact written_consPart inductionHypothesis

/-- Parts stay as they are if none is a concatenation, none is empty, and no two texts follow each other. -/
theorem joined_eq_self {codes : List Code} (single : ∀ code ∈ codes, code.parts = [code])
    (written : .text "" ∉ codes) (chain : codes.IsChain Apart) : joined codes = codes := by
  induction codes with
  | nil => rfl
  | cons code rest inductionHypothesis =>
      rw [List.forall_mem_cons] at single
      rw [List.mem_cons, not_or] at written
      have others := inductionHypothesis single.2 written.2 chain.tail
      rw [joined, List.flatMap_cons, single.1, List.singleton_append, List.foldr_cons, ← joined, others]
      refine consPart_eq_cons (Ne.symm written.1) fun next isFirst => ?_
      rw [List.isChain_cons] at chain
      exact chain.1 next isFirst

theorem AsksTight.of_mem_joined (asks : AsksTight holds) {codes : List Code}
    (held : ∀ code ∈ codes, code.Throughout holds) : ∀ part ∈ joined codes, part.Throughout holds := by
  have all : ∀ part ∈ codes.flatMap parts, part.Throughout holds := by
    intro part member
    rcases List.mem_flatMap.mp member with ⟨code, isCode, isPart⟩
    exact (held code isCode).parts part isPart
  rw [joined]
  generalize codes.flatMap parts = pieces at all
  induction pieces with
  | nil => exact fun part member => absurd member List.not_mem_nil
  | cons part rest inductionHypothesis =>
      rw [List.forall_mem_cons] at all
      exact forall_mem_consPart asks.throughout_text all.1 (inductionHypothesis all.2)

/-- A concatenation is as tight as the codes it is made from. -/
theorem AsksTight.concatenate (asks : AsksTight holds) {codes : List Code}
    (held : ∀ code ∈ codes, code.Throughout holds) : (concatenate codes).Throughout holds := by
  have all := asks.of_mem_joined held
  have single := single_of_mem_joined fun code member => asks.flat (held code member)
  have written := written_joined codes
  have chain := isChain_joined codes
  rw [concatenate_eq]
  generalize joined codes = parts at all single written chain
  match parts with
  | [] => exact asks.throughout_text ""
  | [part] => exact all part List.mem_cons_self
  | first :: second :: rest =>
      have tight : Tight (first :: second :: rest) := by
        refine ⟨Nat.le_add_left 2 _, fun inner member => ?_, written, chain⟩
        exact parts_eq_singleton_iff.mp (single _ member) inner rfl
      exact ⟨(asks.concat _).mpr tight, throughoutAll_iff.mpr all⟩

/-- Concatenating codes in normal form gives code in normal form. -/
theorem inNormalForm_concatenate {codes : List Code} (normal : ∀ code ∈ codes, code.InNormalForm) :
    (concatenate codes).InNormalForm :=
  asksTight_proper.concatenate normal

theorem inNormalForm_escaped {code : Code} (normal : code.InNormalForm) (mode : Text.Escaping) :
    (escaped mode code).InNormalForm := by
  cases isText : code.text? with
  | some content =>
      cases code with
      | text written => exact inNormalForm_text _
      | _ => cases isText
  | none =>
      have same : escaped mode code = if mode = .raw then code else .escape mode code := by
        cases code <;> first | rfl | cases isText
      rw [same]
      split
      · exact normal
      · exact ⟨⟨nofun, nofun⟩, normal⟩

end Code
end TemplateCascade

import Mathlib
import TemplateCascade.Proofs.Code.NormalForm
import TemplateCascade.Proofs.Render.Writing

namespace TemplateCascade

/-!
# Constructing code

The generator never builds a concatenation or an escape by hand, but lets `Code.concatenate` and `Code.escaped`
do it, which rewrite as they build.  None of that shows in what is written: a concatenation writes what its
codes write, and fails as the first of them that fails, and escaped code writes the escaped text.  Nor does it
matter in how many steps tight code is concatenated.
-/

namespace Code

/-! ## Concatenating in steps -/

/-- A concatenation among other codes may be taken apart. -/
theorem concatenate_within (front : List Code) {inner : List Code} (flat : ∀ code ∈ inner, code.Flat)
    (behind : List Code) :
    concatenate (front ++ concatenate inner :: behind) = concatenate (front ++ inner ++ behind) := by
  have same : joined (front ++ concatenate inner :: behind) = joined (front ++ inner ++ behind) := by
    rw [joined_append, joined_concatenate_append flat, ← joined_append, List.append_assoc]
  exact congrArg ofParts same

theorem concatenate_pair {front behind : List Code} (flatFront : ∀ code ∈ front, code.Flat)
    (flatBehind : ∀ code ∈ behind, code.Flat) :
    concatenate [concatenate front, concatenate behind] = concatenate (front ++ behind) := by
  calc
    concatenate [concatenate front, concatenate behind] = concatenate (front ++ [concatenate behind]) :=
      concatenate_within [] flatFront [concatenate behind]
    _ = concatenate (front ++ behind ++ []) := concatenate_within front flatBehind []
    _ = concatenate (front ++ behind) := by rw [List.append_nil]

theorem concatenate_assoc {first second third : Code} (flatFirst : first.Flat) (flatSecond : second.Flat)
    (flatThird : third.Flat) :
    concatenate [concatenate [first, second], third] = concatenate [first, concatenate [second, third]] := by
  have flatFront : ∀ code ∈ [first, second], code.Flat := by simp [flatFirst, flatSecond]
  have flatBehind : ∀ code ∈ [second, third], code.Flat := by simp [flatSecond, flatThird]
  calc
    concatenate [concatenate [first, second], third] = concatenate [first, second, third] :=
      concatenate_within [] flatFront [third]
    _ = concatenate [first, concatenate [second, third]] := (concatenate_within [first] flatBehind []).symm

/-! ## Tight code -/

/-- If code is a concatenation, then it is a tight one. -/
def TightIfConcat (code : Code) : Prop :=
  ∀ parts, code = .concat parts → Tight parts

/-- Every concatenation in code is tight, wherever it stands. -/
abbrev Compact (code : Code) : Prop :=
  code.Throughout TightIfConcat

theorem asksTight_tightIfConcat : AsksTight TightIfConcat where
  text := nofun
  concat := by
    intro parts
    constructor
    · exact fun tight => tight parts rfl
    · rintro tight _ ⟨⟩
      exact tight

theorem Compact.flat {code : Code} (compact : code.Compact) : code.Flat :=
  asksTight_tightIfConcat.flat compact

theorem compact_concatenate {codes : List Code} (compact : ∀ code ∈ codes, code.Compact) :
    (concatenate codes).Compact :=
  asksTight_tightIfConcat.concatenate compact

end Code

namespace Render

open Code (concatenate escaped)

variable {host : Host} {scope : Scope}

/-! ## What is written -/

/-- Codes in a row write their texts in a row, or fail as the first that fails. -/
theorem writeAll_eq_mapM (codes : List Code) :
    writeAll host scope codes = (codes.mapM (write host scope)).map String.join := by
  induction codes with
  | nil => rfl
  | cons code rest inductionHypothesis =>
      rw [writeAll_cons, List.mapM_cons, inductionHypothesis]
      cases write host scope code with
      | error error => rfl
      | ok text =>
          cases rest.mapM (write host scope) with
          | error error => rfl
          | ok texts => exact congrArg Except.ok String.join_cons.symm

/-- Code that is concatenated or escaped while it is generated writes as if that were done with what is written, in
every scope, and tight code can be concatenated in any number of steps. -/
theorem construction_transparent (host : Host) (scope : Scope) :
    (∀ code, render host scope.data code = write host ⟨scope.data, []⟩ code) ∧
      (∀ codes, write host scope (concatenate codes) = (codes.mapM (write host scope)).map String.join) ∧
      (∀ mode code, write host scope (escaped mode code) = (write host scope code).map mode.apply) ∧
      (∀ first second third : Code, first.Compact → second.Compact → third.Compact →
        concatenate [concatenate [first, second], third] = concatenate [first, concatenate [second, third]]) ∧
      (∀ front behind : List Code, (∀ code ∈ front, code.Compact) → (∀ code ∈ behind, code.Compact) →
        concatenate [concatenate front, concatenate behind] = concatenate (front ++ behind)) ∧
      ∀ codes : List Code, (∀ code ∈ codes, code.Compact) → (concatenate codes).Compact := by
  refine ⟨render_eq_write host scope.data, fun codes => ?_, write_escaped, ?_, ?_, ?_⟩
  · rw [write_concatenate, writeAll_eq_mapM]
  · intro first second third compactFirst compactSecond compactThird
    exact Code.concatenate_assoc compactFirst.flat compactSecond.flat compactThird.flat
  · intro front behind compactFront compactBehind
    exact Code.concatenate_pair (fun code member => (compactFront code member).flat)
      fun code member => (compactBehind code member).flat
  · exact fun codes => Code.compact_concatenate

/-- A text and a concatenation that starts with a text. -/
def greeting : List Code :=
  [.text "Hello ", .concat [.text "dear ", .reference ["name"]]]

/-- A text behind an empty one. -/
def farewell : List Code :=
  [.text "", .text "!"]

theorem construction_transparent_greeting :
    (∀ code ∈ greeting, code.Compact) ∧ (∀ code ∈ farewell, code.Compact) ∧
      concatenate [concatenate greeting, concatenate farewell] =
        .concat [.text "Hello dear ", .reference ["name"], .text "!"] := by
  have compact_text (content : String) : (Code.text content).Compact := nofun
  have compact_reference : (Code.reference ["name"]).Compact := nofun
  have tight : Code.Tight [.text "dear ", .reference ["name"]] :=
    ⟨by decide, by simp, by simp, by simp [Code.Apart, Code.text?]⟩
  have compact_concat : (Code.concat [.text "dear ", .reference ["name"]]).Compact := by
    refine ⟨?_, compact_text _, compact_reference, trivial⟩
    rintro _ ⟨⟩
    exact tight
  have compactGreeting : ∀ code ∈ greeting, code.Compact :=
    List.forall_mem_cons.mpr ⟨compact_text _, List.forall_mem_singleton.mpr compact_concat⟩
  have compactFarewell : ∀ code ∈ farewell, code.Compact :=
    List.forall_mem_cons.mpr ⟨compact_text _, List.forall_mem_singleton.mpr (compact_text _)⟩
  have transparent := construction_transparent (StandardHost.services ⟨{}, "", []⟩) ⟨.null, []⟩
  refine ⟨compactGreeting, compactFarewell, ?_⟩
  rw [transparent.2.2.2.2.1 greeting farewell compactGreeting compactFarewell]
  rfl

end Render
end TemplateCascade

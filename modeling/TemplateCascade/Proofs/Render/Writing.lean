import Mathlib
import TemplateCascade.Proofs.Code.Concatenation
import TemplateCascade.Render.Evaluation

namespace TemplateCascade
namespace Render

/-!
# What code writes

Code is evaluated to a value, and what is written is the text of the value.  For every kind of code that
templates are made of, this module says what it writes in terms of what its parts write.

Whatever is flattened and joined in a concatenation, the text that is written stays the same.
-/

open Code (joined)
open Text (Escaping)

variable {host : Host} {scope : Scope}

/-- The text that code writes. -/
def write (host : Host) (scope : Scope) (code : Code) : Except RenderError String :=
  (evaluate host scope code).map Value.text

theorem render_eq_write (host : Host) (data : Value) (code : Code) :
    render host data code = write host ⟨data, []⟩ code := by
  rw [render, write]
  cases evaluate host ⟨data, []⟩ code <;> rfl

/-! ## Single codes -/

theorem write_text (content : String) : write host scope (.text content) = .ok content := rfl

theorem write_reference (path : List String) :
    write host scope (.reference path) = .ok ((scope.lookup? path).getD .null).text := rfl

theorem write_number (amount : Float) :
    write host scope (.constant (.number amount)) = .ok (Value.numberText amount) := rfl

theorem write_arithmetic (calculation : Arithmetic) :
    write host scope (.arithmetic calculation) =
      (compute host scope calculation).map Value.numberText := by
  change Except.map Value.text (compute host scope calculation >>= _) = _
  cases compute host scope calculation <;> rfl

theorem write_escape (mode : Escaping) (inner : Code) :
    write host scope (.escape mode inner) = (write host scope inner).map mode.apply := by
  change Except.map Value.text (evaluate host scope inner >>= _) = _
  rw [write]
  cases evaluate host scope inner <;> rfl

/-- Escaping while code is generated, or when it has been evaluated, writes the same. -/
theorem write_escaped (mode : Escaping) (inner : Code) :
    write host scope (.escaped mode inner) = (write host scope inner).map mode.apply := by
  by_cases raw : mode = .raw
  · subst raw
    have same : Escaping.raw.apply = id := funext Escaping.apply_raw
    rw [Code.escaped_raw, same]
    cases write host scope inner <;> rfl
  cases isText : inner.text? with
  | some content =>
      cases inner with
      | text written =>
          rw [Code.escaped, write_text, write_text]
          rfl
      | _ => cases isText
  | none =>
      have escape : Code.escaped mode inner = .escape mode inner := by
        cases inner <;> first | exact if_neg raw | cases isText
      rw [escape, write_escape]

theorem write_conditional (test : Test) (body otherwise : Code) :
    write host scope (.conditional test body otherwise) = (do
      let holds ← testHolds host scope test
      if holds then write host scope body else write host scope otherwise) := by
  change Except.map Value.text (testHolds host scope test >>= _) = _
  rw [write, write]
  cases testHolds host scope test with
  | error error => rfl
  | ok holds =>
      cases holds with
      | true => cases evaluate host scope body <;> rfl
      | false => cases evaluate host scope otherwise <;> rfl

theorem write_each (source : Code) (key : Option String) (value : String) (body : Code) :
    write host scope (.each source key value body) = (do
      let collection ← evaluate host scope source
      writeEach (fun item => write host (scope.enter key value item) body) (itemsOf collection)) := by
  have step : (fun item => do
      let output ← evaluate host (scope.enter key value item) body
      .ok output.text) = fun item => write host (scope.enter key value item) body := by
    funext item
    rw [write]
    cases evaluate host (scope.enter key value item) body <;> rfl
  change Except.map Value.text (evaluate host scope source >>= _) = _
  rw [← step]
  cases evaluate host scope source with
  | error error => rfl
  | ok collection =>
      change Except.map Value.text (writeEach _ (itemsOf collection) >>= _) = writeEach _ (itemsOf collection)
      cases writeEach _ (itemsOf collection) <;> rfl

theorem write_inclusion (name : String) :
    write host scope (.inclusion name) = .error (.unexpandedInclude name) := rfl

/-! ## Codes in a row -/

theorem writeAll_nil : writeAll host scope [] = .ok "" := rfl

theorem writeAll_cons (code : Code) (rest : List Code) :
    writeAll host scope (code :: rest) = (do
      let text ← write host scope code
      let more ← writeAll host scope rest
      .ok (text ++ more)) := by
  change (evaluate host scope code >>= _) = _
  rw [write]
  cases evaluate host scope code <;> rfl

theorem writeAll_append (front behind : List Code) :
    writeAll host scope (front ++ behind) = (do
      let text ← writeAll host scope front
      let more ← writeAll host scope behind
      .ok (text ++ more)) := by
  induction front with
  | nil =>
      rw [List.nil_append, writeAll_nil]
      cases writeAll host scope behind with
      | error error => rfl
      | ok text => exact congrArg Except.ok (String.empty_append).symm
  | cons code rest inductionHypothesis =>
      rw [List.cons_append, writeAll_cons, writeAll_cons, inductionHypothesis]
      cases write host scope code with
      | error error => rfl
      | ok first =>
          cases writeAll host scope rest with
          | error error => rfl
          | ok second =>
              cases writeAll host scope behind with
              | error error => rfl
              | ok third => exact congrArg Except.ok (String.append_assoc).symm

theorem write_concat (parts : List Code) :
    write host scope (.concat parts) = writeAll host scope parts := by
  change Except.map Value.text (writeAll host scope parts >>= _) = _
  cases writeAll host scope parts <;> rfl

/-- Code writes what its parts write in a row. -/
theorem writeAll_parts (code : Code) : writeAll host scope code.parts = write host scope code := by
  have alone : writeAll host scope [code] = write host scope code := by
    rw [writeAll_cons, writeAll_nil]
    cases write host scope code with
    | error error => rfl
    | ok text => exact congrArg Except.ok String.append_empty
  cases code with
  | concat parts => exact (write_concat parts).symm
  | _ => exact alone

/-- Joining text writes the same text. -/
theorem writeAll_consPart (part : Code) (rest : List Code) :
    writeAll host scope (Code.consPart part rest) = writeAll host scope (part :: rest) := by
  have put := Code.putsInFront_consPart part rest
  generalize Code.consPart part rest = all at put ⊢
  cases put with
  | nothing isEmpty =>
      rw [isEmpty, writeAll_cons, write_text]
      cases writeAll host scope rest with
      | error error => rfl
      | ok text => exact congrArg Except.ok (String.empty_append).symm
  | @merged content next more isText _ =>
      rw [isText]
      simp only [writeAll_cons, write_text, bind, Except.bind]
      cases writeAll host scope more with
      | error error => rfl
      | ok text => exact congrArg Except.ok String.append_assoc
  | apart => rfl

theorem writeAll_joined (codes : List Code) :
    writeAll host scope (joined codes) = writeAll host scope codes := by
  have foldr : ∀ parts : List Code,
      writeAll host scope (parts.foldr Code.consPart []) = writeAll host scope parts := by
    intro parts
    induction parts with
    | nil => rfl
    | cons part rest inductionHypothesis =>
        rw [List.foldr_cons, writeAll_consPart, writeAll_cons, writeAll_cons, inductionHypothesis]
  rw [joined, foldr]
  induction codes with
  | nil => rfl
  | cons code rest inductionHypothesis =>
      rw [List.flatMap_cons, writeAll_append, writeAll_parts, inductionHypothesis, writeAll_cons]

/-- A concatenation writes the texts of the codes it was made from, one after the other. -/
theorem write_concatenate (codes : List Code) :
    write host scope (Code.concatenate codes) = writeAll host scope codes := by
  rw [← writeAll_joined, Code.concatenate_eq]
  match joined codes with
  | [] => exact write_text ""
  | [part] =>
      rw [writeAll_cons, writeAll_nil]
      change write host scope part = _
      cases write host scope part with
      | error error => rfl
      | ok text => exact congrArg Except.ok String.append_empty.symm
  | first :: second :: rest => exact write_concat _

end Render
end TemplateCascade

import Mathlib
import TemplateCascade.Proofs.Text.ScriptLiterals

namespace TemplateCascade
namespace Text

/-!
# Escaped strings

Whatever a string holds, what it is escaped to is safe in its place and can be read back there.  No string stands
for two, joined strings are escaped part by part, and a string that is handed on as it is would have come out the
same if it had been gone through.
-/

namespace Escaping

theorem apply_eq_ofList_applyTo (mode : Escaping) (text : String) :
    mode.apply text = String.ofList (mode.applyTo text.toList) :=
  String.toList_inj.mp ((toList_apply mode text).trans String.toList_ofList.symm)

theorem apply_append (mode : Escaping) (left right : String) :
    mode.apply (left ++ right) = mode.apply left ++ mode.apply right := by
  rw [apply_eq_ofList_applyTo, String.toList_append, applyTo_append, String.ofList_append,
    ← apply_eq_ofList_applyTo, ← apply_eq_ofList_applyTo]

/-- What each way of escaping has to make of a text. -/
def IsWritten : Escaping → List Char → List Char → Prop
  | raw => fun text output => output = text
  | html => IsHtmlFor
  | url => IsUrlFor
  | script => IsLiteralFor

theorem isWritten_applyTo (mode : Escaping) (text : List Char) : mode.IsWritten text (mode.applyTo text) := by
  cases mode with
  | raw => exact applyTo_raw text
  | html => exact isHtmlFor_applyTo text
  | url => exact isUrlFor_applyTo text
  | script => exact isLiteralFor_applyTo text

/-- The same output is not written for different texts. -/
theorem IsWritten.unique {mode : Escaping} {left right output : List Char} (first : mode.IsWritten left output)
    (second : mode.IsWritten right output) : left = right := by
  cases mode with
  | raw => exact Eq.trans (Eq.symm first) second
  | html => exact (IsHtmlFor.decoded first).symm.trans (IsHtmlFor.decoded second)
  | url =>
      have sameBytes := (IsUrlFor.decoded first).symm.trans (IsUrlFor.decoded second)
      exact String.ofList_inj.mp (String.toByteArray_inj.mp sameBytes)
  | script =>
      have read := (IsLiteralFor.decoded first '"' List.mem_cons_self).symm.trans
        (IsLiteralFor.decoded second '"' List.mem_cons_self)
      exact Option.some.inj read

/-- Every way of escaping can be undone. -/
theorem apply_injective (mode : Escaping) : Function.Injective mode.apply := by
  intro left right same
  have lists := congrArg String.toList same
  rw [toList_apply, toList_apply] at lists
  have written := isWritten_applyTo mode left.toList
  rw [lists] at written
  exact String.toList_inj.mp (written.unique (isWritten_applyTo mode right.toList))

end Escaping

/-- Escaped strings are safe in their place and are read back as what was escaped, part by part and whether or
not they were gone through. -/
theorem escaping_neutralizes (text : String) :
    IsHtmlFor text.toList (Escaping.html.apply text).toList ∧
      IsUrlFor text.toList (Escaping.url.apply text).toList ∧
      IsLiteralFor text.toList (Escaping.script.apply text).toList ∧
      ∀ mode : Escaping,
        (∀ other, mode.apply (text ++ other) = mode.apply text ++ mode.apply other) ∧
          mode.apply text = String.ofList (mode.applyTo text.toList) := by
  simp only [Escaping.toList_apply]
  exact ⟨isHtmlFor_applyTo text.toList, isUrlFor_applyTo text.toList, isLiteralFor_applyTo text.toList,
    fun mode => ⟨mode.apply_append text, mode.apply_eq_ofList_applyTo text⟩⟩

end Text
end TemplateCascade

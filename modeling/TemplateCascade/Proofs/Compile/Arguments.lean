import Mathlib
import TemplateCascade.Compile.BuiltIn

namespace TemplateCascade
namespace Compile
namespace BuiltIn

/-!
# Arguments that are related

Where the arguments of two calls are related one by one, and named ones under the same names, so are the
arguments that a function finds under a name or for a placeholder.
-/

variable {related : PendingArgument → PendingArgument → Prop}
  {entryRelated : String × PendingArgument → String × PendingArgument → Prop}
  (sameName : ∀ {one other}, entryRelated one other → one.1 = other.1 ∧ related one.2 other.2)
  {first second : List (String × PendingArgument)}

include sameName

theorem entryNamed_related (entries : List.Forall₂ entryRelated first second) (name : String) :
    Option.Rel related (entryNamed? first name) (entryNamed? second name) := by
  unfold entryNamed?
  induction entries with
  | nil => exact Option.Rel.none
  | @cons one other _ _ entry _ rest =>
      rcases one with ⟨known, argument⟩
      rcases other with ⟨known, otherArgument⟩
      rcases sameName entry with ⟨rfl, alike⟩
      rw [List.lookup_cons, List.lookup_cons]
      cases name == known with
      | true => exact Option.Rel.some alike
      | false => exact rest

/-- Leaving arguments out by their names keeps the others related. -/
theorem filter_related (entries : List.Forall₂ entryRelated first second) (keeps : String → Bool) :
    List.Forall₂ entryRelated (first.filter fun entry => keeps entry.1)
      (second.filter fun entry => keeps entry.1) := by
  refine List.rel_filter (fun one other entry => ?_) entries
  change keeps one.1 = true ↔ keeps other.1 = true
  rw [(sameName entry).1]

omit sameName in
theorem getElem_related {arguments otherArguments : List PendingArgument}
    (alike : List.Forall₂ related arguments otherArguments) (index : Nat) :
    Option.Rel related arguments[index]? otherArguments[index]? := by
  induction alike generalizing index with
  | nil => exact Option.Rel.none
  | cons argument _ rest =>
      cases index with
      | zero => exact Option.Rel.some argument
      | succ index => exact rest index

theorem fillerOf_related {call other : Call}
    (arguments : List.Forall₂ related call.arguments other.arguments)
    (named : List.Forall₂ entryRelated call.named other.named) (placeholder : List Char) :
    Option.Rel related (fillerOf? call placeholder) (fillerOf? other placeholder) := by
  unfold fillerOf?
  cases Number.readNatural? placeholder with
  | none => exact entryNamed_related sameName named _
  | some position =>
      cases position with
      | zero => exact Option.Rel.none
      | succ position => exact getElem_related arguments (position + 1)

end BuiltIn
end Compile
end TemplateCascade

import Mathlib
import TemplateCascade.Proofs.Compile.Expressions
import TemplateCascade.Proofs.Expression.ConditionGrammar
import TemplateCascade.Render.Evaluation

namespace TemplateCascade

/-!
# What decides a condition

For values of its operands a condition is true or false as Boolean logic has it.  Rendering finds the same,
but it does not look at all operands: once the left side of a conjunction is false, or that of alternatives
true, the right side is left alone.  So a condition fails to be decided exactly when one of the operands
fails that are looked at, with the failure of the first of them.
-/

/-- The truth of a condition for values of its operands. -/
def Test.truth (values : Code → Value) : Test → Bool
  | .truthy code => (values code).isTruthy
  | .not inner => !inner.truth values
  | .and left right => left.truth values && right.truth values
  | .or left right => left.truth values || right.truth values
  | .compare operator left right => Render.comparisonHolds operator (values left) (values right)

/-- The operands that have to be looked at to decide a condition, in order. -/
def Test.decisive (values : Code → Value) : Test → List Code
  | .truthy code => [code]
  | .not inner => inner.decisive values
  | .and left right =>
      left.decisive values ++ if left.truth values then right.decisive values else []
  | .or left right =>
      left.decisive values ++ if left.truth values then [] else right.decisive values
  | .compare _ left right => [left, right]

namespace Render

variable {host : Host} {scope : Scope}

/-- The value of code in a scope, null where it has none. -/
def valueIn (host : Host) (scope : Scope) (code : Code) : Value :=
  (evaluate host scope code).toOption.getD .null

theorem valueIn_of_ok {code : Code} {value : Value} (evaluated : evaluate host scope code = .ok value) :
    valueIn host scope code = value := by
  rw [valueIn, evaluated]
  rfl

theorem evaluateAll_append (codes others : List Code) :
    evaluateAll host scope (codes ++ others) = (do
      let values ← evaluateAll host scope codes
      let more ← evaluateAll host scope others
      .ok (values ++ more)) := by
  induction codes with
  | nil =>
      rw [List.nil_append, evaluateAll]
      cases evaluateAll host scope others <;> rfl
  | cons code codes inductionHypothesis =>
      rw [List.cons_append, evaluateAll, evaluateAll, inductionHypothesis]
      cases evaluate host scope code with
      | error error => rfl
      | ok value =>
          cases evaluateAll host scope codes with
          | error error => rfl
          | ok values => cases evaluateAll host scope others <;> rfl

/-- What comes of looking at some operands to find a truth. -/
def verdict (host : Host) (scope : Scope) (operands : List Code) (truth : Bool) :
    Except RenderError Bool :=
  (evaluateAll host scope operands).map fun _ => truth

/-- A verdict that is found and then handed on. -/
theorem verdict_bind (operands : List Code) (truth : Bool) (next : Bool → Except RenderError Bool) :
    verdict host scope operands truth >>= next =
      (evaluateAll host scope operands >>= fun _ => next truth) := by
  unfold verdict
  cases evaluateAll host scope operands <;> rfl

theorem verdict_append (operands others : List Code) (truth : Bool) :
    verdict host scope (operands ++ others) truth =
      (evaluateAll host scope operands >>= fun _ => verdict host scope others truth) := by
  unfold verdict
  rw [evaluateAll_append]
  cases evaluateAll host scope operands with
  | error error => rfl
  | ok values => cases evaluateAll host scope others <;> rfl

/-- Looking at nothing finds whatever it is. -/
theorem verdict_nil (truth : Bool) : verdict host scope [] truth = .ok truth := by
  rw [verdict, evaluateAll]
  rfl

/-- A condition is decided by its decisive operands, as Boolean logic has it. -/
theorem testHolds_eq_verdict (host : Host) (scope : Scope) :
    ∀ test : Test, testHolds host scope test =
      verdict host scope (test.decisive (valueIn host scope)) (test.truth (valueIn host scope))
  | .truthy code => by
      rw [testHolds, Test.decisive, Test.truth, verdict, evaluateAll, evaluateAll]
      cases evaluated : evaluate host scope code with
      | error error => rfl
      | ok value =>
          rw [valueIn_of_ok evaluated]
          rfl
  | .not inner => by
      rw [testHolds, testHolds_eq_verdict host scope inner, Test.decisive, Test.truth, verdict_bind, verdict]
      cases evaluateAll host scope (inner.decisive (valueIn host scope)) <;> rfl
  | .and left right => by
      rw [testHolds, testHolds_eq_verdict host scope left, testHolds_eq_verdict host scope right,
        Test.decisive, Test.truth, verdict_bind, verdict_append]
      cases left.truth (valueIn host scope) with
      | false =>
          rw [Bool.false_and, if_neg Bool.false_ne_true, if_neg Bool.false_ne_true, verdict_nil]
      | true => rw [Bool.true_and, if_pos rfl, if_pos rfl]
  | .or left right => by
      rw [testHolds, testHolds_eq_verdict host scope left, testHolds_eq_verdict host scope right,
        Test.decisive, Test.truth, verdict_bind, verdict_append]
      cases left.truth (valueIn host scope) with
      | false => rw [Bool.false_or, if_neg Bool.false_ne_true, if_neg Bool.false_ne_true]
      | true => rw [Bool.true_or, if_pos rfl, if_pos rfl, verdict_nil]
  | .compare operator left right => by
      rw [testHolds, Test.decisive, Test.truth, verdict, evaluateAll, evaluateAll, evaluateAll]
      cases evaluated : evaluate host scope left with
      | error error => rfl
      | ok value =>
          cases evaluatedRight : evaluate host scope right with
          | error error => rfl
          | ok other =>
              rw [valueIn_of_ok evaluated, valueIn_of_ok evaluatedRight]
              rfl

end Render

namespace Compile

open Expression (IsAlternatives parseCondition parseCondition_eq_ok_iff)
open Render (testHolds valueIn verdict testHolds_eq_verdict)

/--
Reading conditions implements their grammar, which derives nothing from no tokens at all; and what is
derived holds when it is true, as far as the operands that decide it have values.
-/
theorem condition_exact :
    Implements parseCondition PendingArgument.condition IsAlternatives ∧
      (∀ test, ¬ IsAlternatives [] test) ∧
      ∀ host scope test, testHolds host scope test =
        verdict host scope (test.decisive (valueIn host scope)) (test.truth (valueIn host scope)) :=
  ⟨.of_eq_ok_iff parseCondition_eq_ok_iff fun _ => rfl, fun _ written => written.ne_nil rfl,
    testHolds_eq_verdict⟩

end Compile
end TemplateCascade

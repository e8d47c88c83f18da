import Mathlib
import TemplateCascade.Proofs.Expression.ConditionGrammar

namespace TemplateCascade
namespace Expression

/-!
# What conditions mean

A condition over variables and constants is a tree, and a grammar says which tokens it can be written
with.  Conjunctions bind closer than alternatives, negations closer than conjunctions, and operators of one
level associate to the left.

What is written so is derived in the grammar of all conditions.  Hence reading is complete: whatever tokens
a condition is written with, reading them gives its test.  And no tokens stand for two conditions.
-/

open Text (Span)

/-! ## Conditions as trees -/

/-- A value that a condition looks at. -/
inductive Operand where
  | reference (path : List String)
  | constant (value : Value)

/-- A condition over variables and constants. -/
inductive Condition where
  /-- The value counts as true. -/
  | truthy (operand : Operand)
  | compare (operator : ComparisonOperator) (left right : Operand)
  | not (inner : Condition)
  | and (left right : Condition)
  | or (left right : Condition)

/-- The code of an operand. -/
def Operand.code : Operand → Code
  | .reference path => .reference path
  | .constant value => .constant value

/-- The test that a condition compiles to. -/
def Condition.test : Condition → Test
  | .truthy operand => .truthy operand.code
  | .compare operator left right => .compare operator left.code right.code
  | .not inner => .not inner.test
  | .and left right => .and left.test right.test
  | .or left right => .or left.test right.test

theorem Operand.code_injective : Function.Injective Operand.code := by
  rintro (path | value) (other | other) same <;> cases same <;> rfl

theorem Condition.test_injective : Function.Injective Condition.test := by
  intro first
  induction first with
  | truthy operand =>
      rintro (other | _ | _ | _ | _) same
      · exact congrArg Condition.truthy (Operand.code_injective (Test.truthy.inj same))
      all_goals cases same
  | compare operator left right =>
      rintro (_ | ⟨_, otherLeft, otherRight⟩ | _ | _ | _) same
      case compare =>
        rcases Test.compare.inj same with ⟨rfl, sameLeft, sameRight⟩
        rw [Operand.code_injective sameLeft, Operand.code_injective sameRight]
      all_goals cases same
  | not inner inductionHypothesis =>
      rintro (_ | _ | other | _ | _) same
      case not => exact congrArg Condition.not (inductionHypothesis (Test.not.inj same))
      all_goals cases same
  | and left right left_injective right_injective =>
      rintro (_ | _ | _ | ⟨otherLeft, otherRight⟩ | _) same
      case and =>
        rcases Test.and.inj same with ⟨sameLeft, sameRight⟩
        rw [left_injective sameLeft, right_injective sameRight]
      all_goals cases same
  | or left right left_injective right_injective =>
      rintro (_ | _ | _ | _ | ⟨otherLeft, otherRight⟩) same
      case or =>
        rcases Test.or.inj same with ⟨sameLeft, sameRight⟩
        rw [left_injective sameLeft, right_injective sameRight]
      all_goals cases same

/-! ## The grammar -/

/-- The tokens that an operand can be written with. -/
inductive WrittenOperand : List Item → Operand → Prop where
  | reference (path : List String) : WrittenOperand [.value (.reference path)] (.reference path)
  | number (amount : Float) : WrittenOperand [.number amount] (.constant (.number amount))
  | negative (amount : Float) :
      WrittenOperand [.symbol .minus, .number amount] (.constant (.number (-amount)))
  | string (content : String) : WrittenOperand [.string content] (.constant (.string content))
  | word {name : String} {value : Value} (known : wordValue? name = some value) :
      WrittenOperand [.word name] (.constant value)

/-- How much of a condition can stand without parentheses. -/
inductive Level where
  | alternatives
  | conjunction
  | negation
deriving DecidableEq, Repr

/-- The tokens that a condition can be written with at a level. -/
inductive Written : Level → List Item → Condition → Prop where
  | or {left right : List Item} {joint : Item} {first second : Condition}
      (front : Written .alternatives left first) (joins : joint.joinsAlternatives = true)
      (behind : Written .conjunction right second) :
      Written .alternatives (left ++ joint :: right) (.or first second)
  | conjunction {items : List Item} {condition : Condition}
      (written : Written .conjunction items condition) : Written .alternatives items condition
  | and {left right : List Item} {joint : Item} {first second : Condition}
      (front : Written .conjunction left first) (joins : joint.joinsConjunction = true)
      (behind : Written .negation right second) :
      Written .conjunction (left ++ joint :: right) (.and first second)
  | negation {items : List Item} {condition : Condition}
      (written : Written .negation items condition) : Written .conjunction items condition
  | not {mark : Item} {items : List Item} {inner : Condition} (negates : mark.negates = true)
      (written : Written .negation items inner) : Written .negation (mark :: items) (.not inner)
  | parentheses {items : List Item} {condition : Condition}
      (written : Written .alternatives items condition) :
      Written .negation (.symbol .openParenthesis :: items ++ [.symbol .closeParenthesis]) condition
  | truthy {items : List Item} {operand : Operand} (written : WrittenOperand items operand) :
      Written .negation items (.truthy operand)
  | compare {left right : List Item} {mark : Symbol} {operator : ComparisonOperator}
      {first second : Operand} (front : WrittenOperand left first)
      (compares : comparison? mark = some operator) (behind : WrittenOperand right second) :
      Written .negation (left ++ .symbol mark :: right) (.compare operator first second)

/-! ## Reading -/

theorem WrittenOperand.isCompared {items : List Item} {operand : Operand}
    (written : WrittenOperand items operand) : IsCompared items operand.code := by
  cases written with
  | reference path => exact .value _
  | number amount => exact .number amount
  | negative amount => exact .negative amount
  | string content => exact .string content
  | word known => exact .word (wordValue?_eq_some_iff.mp known)

/-- The tests that the grammar of all conditions derives at a level. -/
def Level.Derives : Level → List Item → Test → Prop
  | .alternatives => IsAlternatives
  | .conjunction => IsConjunction
  | .negation => IsNegation

/-- A condition is derived at the level that it is written at. -/
theorem Written.derives {level : Level} {items : List Item} {condition : Condition}
    (written : Written level items condition) : level.Derives items condition.test := by
  induction written with
  | or _ joins _ front_derives behind_derives =>
      exact .or front_derives (Item.joinsAlternatives_iff.mp joins) behind_derives
  | conjunction _ inductionHypothesis => exact .conjunction inductionHypothesis
  | and _ joins _ front_derives behind_derives =>
      exact .and front_derives (Item.joinsConjunction_iff.mp joins) behind_derives
  | negation _ inductionHypothesis => exact .negation inductionHypothesis
  | not negates _ inductionHypothesis =>
      exact .not (Item.negates_iff.mp negates) inductionHypothesis
  | parentheses _ inductionHypothesis => exact .parentheses inductionHypothesis
  | truthy written => exact .comparison (.truthy written.isCompared)
  | compare front compares behind =>
      exact .comparison
        (.compare front.isCompared (comparison?_eq_some_iff.mp compares) behind.isCompared)

/-- Whatever tokens a condition is written with, reading them gives its test. -/
theorem parseCondition_of_written (whole : Span) {tokens : List Token} {condition : Condition}
    (written : Written .alternatives (tokens.map Token.item) condition) :
    parseCondition whole tokens = .ok condition.test :=
  (parseCondition_eq_ok_iff whole tokens condition.test).mpr written.derives

/-- No tokens stand for two conditions. -/
theorem Written.unique {items : List Item} {first second : Condition}
    (written : Written .alternatives items first) (again : Written .alternatives items second) :
    first = second :=
  Condition.test_injective (written.derives.unique again.derives)

end Expression
end TemplateCascade

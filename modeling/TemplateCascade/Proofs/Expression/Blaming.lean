import Mathlib
import TemplateCascade.Expression.Condition
import TemplateCascade.Proofs.Expression.Shapes

namespace TemplateCascade
namespace Expression

/-!
# What an error points at

An expression is refused at its end or at one of its tokens.  At the end the error has the span of the whole
argument; anywhere else it has the span of the token that its message speaks of.  Every function of the two
grammars looks at tokens from the front, so what it leaves is always the end of what it got, and an error
about what is left is an error about a token of the whole expression.
-/

open Text (Span)

/-- A fault at the end of an expression. -/
def Fault.AtEnd : Fault → Prop
  | .emptyExpression | .emptyCondition | .endOfExpression | .endOfCondition | .expectedSymbol _ none => True
  | _ => False

/-- A fault of a token. -/
def Fault.Names : Fault → Item → Prop
  | .expectedSymbol _ (some found), item | .expectedOperator found, item | .unexpected found, item |
    .expectedValue found, item => item = found
  | .unknownFunction name, item => item = .word name
  | .argumentCount function _, item => ∃ name, item = .word name ∧ MathFunction.ofName? name = some function
  | .expectedNumber, item => ∀ amount, item ≠ .number amount
  | _, _ => False

/-- What is wrong with an expression is at its end, or at the token that the error points at. -/
inductive Blames (whole : Span) (tokens : List Token) (malformed : Malformed) : Prop where
  | atEnd (isEnd : malformed.fault.AtEnd) (isWhole : malformed.span = whole)
  | token {token : Token} (member : token ∈ tokens) (names : malformed.fault.Names token.item)
      (isSpan : malformed.span = token.span)

/-- Of some tokens the end is left, or one of them is to blame. -/
inductive Answers {Result : Type} {input : List Token} (whole : Span) (tokens : List Token) :
    Except Malformed (Parsed Result input) → Prop where
  | ok {parsed : Parsed Result input} (ends : parsed.rest <:+ tokens) : Answers whole tokens (.ok parsed)
  | error {malformed : Malformed} (blames : Blames whole tokens malformed) :
      Answers whole tokens (.error malformed)

section Answers

variable {First Result : Type} {input inside tokens fewer : List Token} {whole : Span}

theorem Blames.of_suffix {malformed : Malformed} (blames : Blames whole fewer malformed)
    (ends : fewer <:+ tokens) : Blames whole tokens malformed := by
  cases blames with
  | atEnd isEnd isWhole => exact .atEnd isEnd isWhole
  | token member names isSpan => exact .token (ends.subset member) names isSpan

theorem Answers.of_suffix {outcome : Except Malformed (Parsed Result input)}
    (answers : Answers whole fewer outcome) (ends : fewer <:+ tokens) : Answers whole tokens outcome := by
  cases answers with
  | ok rest => exact .ok (rest.trans ends)
  | error blames => exact .error (blames.of_suffix ends)

theorem Answers.bind_all {first : Except Malformed (Parsed First inside)}
    {next : Parsed First inside → Except Malformed (Parsed Result input)} (answers : Answers whole tokens first)
    (goesOn : ∀ parsed, parsed.rest <:+ tokens → Answers whole tokens (next parsed)) :
    Answers whole tokens (first >>= next) := by
  cases answers with
  | ok ends => exact goesOn _ ends
  | error blames => exact .error blames

/-- What goes on behind a first part answers for what that has left. -/
theorem Answers.bind {first : Except Malformed (Parsed First inside)}
    {next : Parsed First inside → Except Malformed (Parsed Result input)} (answers : Answers whole tokens first)
    (goesOn : ∀ parsed, Answers whole parsed.rest (next parsed)) : Answers whole tokens (first >>= next) :=
  answers.bind_all fun parsed ends => (goesOn parsed).of_suffix ends

/-- Where the end of what is left is looked at last, a token that is left may be to blame. -/
theorem Answers.blames {Found : Type} {outcome : Except Malformed (Parsed First input)}
    {finish : Parsed First input → Except Malformed Found} {malformed : Malformed}
    (answers : Answers whole tokens outcome)
    (last : ∀ parsed malformed, finish parsed = .error malformed → Blames whole parsed.rest malformed)
    (failed : outcome >>= finish = .error malformed) : Blames whole tokens malformed := by
  cases answers with
  | ok ends => exact (last _ malformed failed).of_suffix ends
  | error blames =>
      cases failed
      exact blames

end Answers

variable (whole : Span)

theorem answers_expectSymbol (mark : Symbol) (tokens : List Token) :
    Answers whole tokens (expectSymbol whole mark tokens) := by
  cases tokens with
  | nil => exact .error (.atEnd trivial rfl)
  | cons token rest =>
      rw [expectSymbol]
      split
      · exact .ok (List.suffix_cons token rest)
      · exact .error (.token List.mem_cons_self rfl rfl)

/-! ## Calculations -/

mutual

theorem answers_parseSum (tokens : List Token) : Answers whole tokens (parseSum whole tokens) := by
  rw [parseSum]
  refine (answers_parseProduct tokens).bind fun ⟨left, behind, shorter⟩ => ?_
  exact (answers_parseMoreSum left behind).bind fun _ => .ok List.suffix_rfl
termination_by 8 * tokens.length + 3
decreasing_by
  all_goals omega

theorem answers_parseMoreSum (left : Arithmetic) (tokens : List Token) :
    Answers whole tokens (parseMoreSum whole left tokens) := by
  cases tokens with
  | nil =>
      rw [parseMoreSum]
      exact .ok List.suffix_rfl
  | cons token behind =>
      rw [parseMoreSum]
      split
      · exact .ok List.suffix_rfl
      · refine ((answers_parseProduct behind).of_suffix (List.suffix_cons token behind)).bind ?_
        intro ⟨right, after, shorter⟩
        exact (answers_parseMoreSum _ after).bind fun _ => .ok List.suffix_rfl
termination_by 8 * tokens.length + 1
decreasing_by
  all_goals simp only [List.length_cons]
  all_goals omega

theorem answers_parseProduct (tokens : List Token) : Answers whole tokens (parseProduct whole tokens) := by
  rw [parseProduct]
  refine (answers_parseSigned tokens).bind fun ⟨left, behind, shorter⟩ => ?_
  exact (answers_parseMoreProduct left behind).bind fun _ => .ok List.suffix_rfl
termination_by 8 * tokens.length + 2
decreasing_by
  all_goals omega

theorem answers_parseMoreProduct (left : Arithmetic) (tokens : List Token) :
    Answers whole tokens (parseMoreProduct whole left tokens) := by
  cases tokens with
  | nil =>
      rw [parseMoreProduct]
      exact .ok List.suffix_rfl
  | cons token behind =>
      rw [parseMoreProduct]
      split
      · exact .ok List.suffix_rfl
      · refine ((answers_parseSigned behind).of_suffix (List.suffix_cons token behind)).bind ?_
        intro ⟨right, after, shorter⟩
        exact (answers_parseMoreProduct _ after).bind fun _ => .ok List.suffix_rfl
termination_by 8 * tokens.length + 1
decreasing_by
  all_goals simp only [List.length_cons]
  all_goals omega

theorem answers_parseSigned (tokens : List Token) : Answers whole tokens (parseSigned whole tokens) := by
  cases tokens with
  | nil =>
      rw [parseSigned]
      exact answers_parseOperand []
  | cons token behind =>
      have inner := (answers_parseSigned behind).of_suffix (List.suffix_cons token behind)
      rw [parseSigned]
      split
      · exact inner.bind fun _ => .ok List.suffix_rfl
      · exact inner.bind fun _ => .ok List.suffix_rfl
      · exact answers_parseOperand (token :: behind)
termination_by 8 * tokens.length + 1
decreasing_by
  all_goals simp only [List.length_cons, List.length_nil]
  all_goals omega

theorem answers_parseOperand (tokens : List Token) : Answers whole tokens (parseOperand whole tokens) := by
  match tokens with
  | [] =>
    rw [parseOperand]
    exact .error (.atEnd trivial rfl)
  | ⟨.number amount, span⟩ :: rest =>
    rw [parseOperand]
    exact .ok (List.suffix_cons _ rest)
  | ⟨.value code, span⟩ :: rest =>
    rw [parseOperand]
    exact .ok (List.suffix_cons _ rest)
  | ⟨.string content, span⟩ :: rest =>
    rw [parseOperand]
    · exact .error (.token List.mem_cons_self rfl rfl)
    all_goals simp
  | ⟨.symbol symbol, span⟩ :: behind =>
    by_cases opens : symbol = .openParenthesis
    · subst opens
      rw [parseOperand]
      refine ((answers_parseSum behind).of_suffix (List.suffix_cons _ behind)).bind ?_
      intro ⟨inner, after, shorter⟩
      exact (answers_expectSymbol whole .closeParenthesis after).bind fun _ => .ok List.suffix_rfl
    · rw [parseOperand]
      · exact .error (.token List.mem_cons_self rfl rfl)
      all_goals simp [opens]
  | ⟨.word name, span⟩ :: behind =>
    rw [parseOperand]
    split
    · exact .error (.token List.mem_cons_self rfl rfl)
    · next function isFunction =>
      -- The name is to blame for the number of arguments, which is known only behind all of them.
      have opening := (answers_expectSymbol whole .openParenthesis behind).of_suffix
        (List.suffix_cons ⟨.word name, span⟩ behind)
      refine opening.bind_all fun ⟨_, after, shorter⟩ ends => ?_
      refine ((answers_parseOperands after).of_suffix ends).bind_all fun ⟨arguments, rest, _⟩ ends => ?_
      dsimp only
      split
      · exact .ok ends
      · exact .error (.token List.mem_cons_self ⟨name, rfl, isFunction⟩ rfl)
termination_by 8 * tokens.length
decreasing_by
  all_goals simp only [List.length_cons]
  all_goals omega

theorem answers_parseOperands (tokens : List Token) : Answers whole tokens (parseOperands whole tokens) := by
  by_cases closes : leadingSymbol? tokens = some .closeParenthesis
  · rcases exists_of_leadingSymbol closes with ⟨span, rest, rfl⟩
    rw [parseOperands]
    exact .ok (List.suffix_cons _ rest)
  · rw [parseOperands_of_not_closing closes]
    exact answers_parseFurtherOperands tokens
termination_by 8 * tokens.length + 5

theorem answers_parseFurtherOperands (tokens : List Token) :
    Answers whole tokens (parseFurtherOperands whole tokens) := by
  rw [parseFurtherOperands]
  refine (answers_parseSum tokens).bind fun ⟨argument, after, shorter⟩ => ?_
  dsimp only
  split
  · next span behind =>
      refine ((answers_parseFurtherOperands behind).of_suffix (List.suffix_cons _ behind)).bind ?_
      exact fun _ => .ok List.suffix_rfl
  · exact (answers_expectSymbol whole .closeParenthesis after).bind fun _ => .ok List.suffix_rfl
termination_by 8 * tokens.length + 4
decreasing_by
  all_goals first | omega | (simp only [List.length_cons] at shorter; omega)

end

/-- A calculation is refused at its end or at one of its tokens. -/
theorem blames_of_parseCalculation {tokens : List Token} {malformed : Malformed}
    (failed : parseCalculation whole tokens = .error malformed) : Blames whole tokens malformed := by
  cases tokens with
  | nil =>
      cases failed
      exact .atEnd trivial rfl
  | cons token behind =>
      rw [parseCalculation] at failed
      · refine (answers_parseSum whole (token :: behind)).blames ?_ failed
        rintro ⟨read, _ | ⟨next, rest⟩, _⟩ malformed ⟨⟩
        exact .token List.mem_cons_self rfl rfl
      · simp

/-! ## Conditions -/

theorem answers_parseConditionOperand (tokens : List Token) :
    Answers whole tokens (parseConditionOperand whole tokens) := by
  cases tokens with
  | nil => exact .error (.atEnd trivial rfl)
  | cons token behind =>
      rcases token with ⟨item, span⟩
      cases item with
      | value code => exact .ok (List.suffix_cons _ behind)
      | number amount => exact .ok (List.suffix_cons _ behind)
      | string content => exact .ok (List.suffix_cons _ behind)
      | word name =>
          rw [parseConditionOperand]
          split
          · exact .ok (List.suffix_cons _ behind)
          · exact .error (.token List.mem_cons_self rfl rfl)
      | symbol symbol =>
          by_cases negative : symbol = .minus
          · subst negative
            cases behind with
            | nil => exact .error (.token List.mem_cons_self (fun _ => by simp) rfl)
            | cons next rest =>
                rcases next with ⟨item, place⟩
                cases item with
                | number amount => exact .ok ((List.suffix_cons _ rest).trans (List.suffix_cons _ _))
                | _ => exact .error (.token (List.mem_cons_of_mem _ List.mem_cons_self) (fun _ => by simp) rfl)
          · rw [parseConditionOperand]
            · exact .error (.token List.mem_cons_self rfl rfl)
            all_goals simp [negative]

theorem answers_parseComparison (tokens : List Token) :
    Answers whole tokens (parseComparison whole tokens) := by
  rw [parseComparison]
  refine (answers_parseConditionOperand whole tokens).bind ?_
  rintro ⟨left, behind, shorter⟩
  cases behind with
  | nil => exact .ok List.suffix_rfl
  | cons token after =>
      dsimp only
      split
      · exact .ok List.suffix_rfl
      · refine ((answers_parseConditionOperand whole after).of_suffix (List.suffix_cons token after)).bind ?_
        exact fun _ => .ok List.suffix_rfl

mutual

theorem answers_parseAlternatives (tokens : List Token) :
    Answers whole tokens (parseAlternatives whole tokens) := by
  rw [parseAlternatives]
  refine (answers_parseConjunction tokens).bind fun ⟨left, behind, shorter⟩ => ?_
  exact (answers_parseMoreAlternatives left behind).bind fun _ => .ok List.suffix_rfl
termination_by 8 * tokens.length + 3
decreasing_by
  all_goals omega

theorem answers_parseMoreAlternatives (left : Test) (tokens : List Token) :
    Answers whole tokens (parseMoreAlternatives whole left tokens) := by
  cases tokens with
  | nil =>
      rw [parseMoreAlternatives]
      exact .ok List.suffix_rfl
  | cons token behind =>
      rw [parseMoreAlternatives]
      split
      · refine ((answers_parseConjunction behind).of_suffix (List.suffix_cons token behind)).bind ?_
        intro ⟨right, after, shorter⟩
        exact (answers_parseMoreAlternatives _ after).bind fun _ => .ok List.suffix_rfl
      · exact .ok List.suffix_rfl
termination_by 8 * tokens.length + 1
decreasing_by
  all_goals simp only [List.length_cons]
  all_goals omega

theorem answers_parseConjunction (tokens : List Token) :
    Answers whole tokens (parseConjunction whole tokens) := by
  rw [parseConjunction]
  refine (answers_parseNegation tokens).bind fun ⟨left, behind, shorter⟩ => ?_
  exact (answers_parseMoreConjunction left behind).bind fun _ => .ok List.suffix_rfl
termination_by 8 * tokens.length + 2
decreasing_by
  all_goals omega

theorem answers_parseMoreConjunction (left : Test) (tokens : List Token) :
    Answers whole tokens (parseMoreConjunction whole left tokens) := by
  cases tokens with
  | nil =>
      rw [parseMoreConjunction]
      exact .ok List.suffix_rfl
  | cons token behind =>
      rw [parseMoreConjunction]
      split
      · refine ((answers_parseNegation behind).of_suffix (List.suffix_cons token behind)).bind ?_
        intro ⟨right, after, shorter⟩
        exact (answers_parseMoreConjunction _ after).bind fun _ => .ok List.suffix_rfl
      · exact .ok List.suffix_rfl
termination_by 8 * tokens.length + 1
decreasing_by
  all_goals simp only [List.length_cons]
  all_goals omega

theorem answers_parseNegation (tokens : List Token) : Answers whole tokens (parseNegation whole tokens) := by
  cases tokens with
  | nil =>
      rw [parseNegation]
      exact answers_parseComparison whole []
  | cons token behind =>
      rw [parseNegation]
      split
      · refine ((answers_parseNegation behind).of_suffix (List.suffix_cons token behind)).bind ?_
        exact fun _ => .ok List.suffix_rfl
      · split
        · refine ((answers_parseAlternatives behind).of_suffix (List.suffix_cons token behind)).bind ?_
          intro ⟨inner, after, shorter⟩
          exact (answers_expectSymbol whole .closeParenthesis after).bind fun _ => .ok List.suffix_rfl
        · exact answers_parseComparison whole (token :: behind)
termination_by 8 * tokens.length + 1
decreasing_by
  all_goals simp only [List.length_cons]
  all_goals omega

end

/-- A condition is refused at its end or at one of its tokens. -/
theorem blames_of_parseCondition {tokens : List Token} {malformed : Malformed}
    (failed : parseCondition whole tokens = .error malformed) : Blames whole tokens malformed := by
  cases tokens with
  | nil =>
      cases failed
      exact .atEnd trivial rfl
  | cons token behind =>
      rw [parseCondition] at failed
      · refine (answers_parseAlternatives whole (token :: behind)).blames ?_ failed
        rintro ⟨read, _ | ⟨next, rest⟩, _⟩ malformed ⟨⟩
        exact .token List.mem_cons_self rfl rfl
      · simp

end Expression
end TemplateCascade

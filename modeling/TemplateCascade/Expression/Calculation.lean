import TemplateCascade.Expression.Token
import TemplateCascade.Parsed

namespace TemplateCascade
namespace Expression

/-!
# The grammar of calculations

Sums of products of signed operands.  An operand is a number, a value, a sum in parentheses or a
function called with sums.  Operators of one level associate to the left, and a plus sign in front of
an operand leaves no trace.  The functions here take `whole`, the span of the whole argument, for
faults at its end.
-/

open Text (Span)

/-- The symbol a list of tokens starts with. -/
def leadingSymbol? : List Token → Option Symbol
  | ⟨.symbol symbol, _⟩ :: _ => some symbol
  | _ => none

/-- Take one symbol off some tokens. -/
def expectSymbol (whole : Span) (symbol : Symbol) (tokens : List Token) :
    Except Malformed (Parsed Unit tokens) :=
  match tokens with
  | [] => .error ⟨.expectedSymbol symbol none, whole⟩
  | token :: rest =>
      if leadingSymbol? (token :: rest) = some symbol then .ok (.single () rest)
      else .error ⟨.expectedSymbol symbol (some token.item), token.span⟩

/-- The operator of a sum. -/
def sumOperator? : Symbol → Option ArithmeticOperator
  | .plus => some .add
  | .minus => some .subtract
  | _ => none

/-- The operator of a product. -/
def productOperator? : Symbol → Option ArithmeticOperator
  | .star => some .multiply
  | .slash => some .divide
  | .percent => some .remainder
  | _ => none

mutual

/-- A sum. -/
def parseSum (whole : Span) (tokens : List Token) :
    Except Malformed (Parsed Arithmetic tokens) := do
  let ⟨left, behind, shorter⟩ ← parseProduct whole tokens
  let ⟨sum, rest, shorterStill⟩ ← parseMoreSum whole left behind
  .ok ⟨sum, rest, Nat.le_trans shorterStill shorter⟩
termination_by 8 * tokens.length + 3
decreasing_by
  all_goals omega

/-- The further terms of a sum. -/
def parseMoreSum (whole : Span) (left : Arithmetic) (tokens : List Token) :
    Except Malformed (Parsed Arithmetic tokens) :=
  match tokens with
  | [] => .ok (.nothing left [])
  | token :: behind =>
      match (leadingSymbol? (token :: behind)).bind sumOperator? with
      | none => .ok (.nothing left (token :: behind))
      | some operator => do
          let ⟨right, after, shorter⟩ ← parseProduct whole behind
          let ⟨sum, rest, shorterStill⟩ ← parseMoreSum whole (.binary operator left right) after
          .ok ⟨sum, rest, by simp only [List.length_cons]; omega⟩
termination_by 8 * tokens.length + 1
decreasing_by
  all_goals simp only [List.length_cons]
  all_goals omega

/-- A product. -/
def parseProduct (whole : Span) (tokens : List Token) :
    Except Malformed (Parsed Arithmetic tokens) := do
  let ⟨left, behind, shorter⟩ ← parseSigned whole tokens
  let ⟨product, rest, shorterStill⟩ ← parseMoreProduct whole left behind
  .ok ⟨product, rest, Nat.le_trans shorterStill shorter⟩
termination_by 8 * tokens.length + 2
decreasing_by
  all_goals omega

/-- The further factors of a product. -/
def parseMoreProduct (whole : Span) (left : Arithmetic) (tokens : List Token) :
    Except Malformed (Parsed Arithmetic tokens) :=
  match tokens with
  | [] => .ok (.nothing left [])
  | token :: behind =>
      match (leadingSymbol? (token :: behind)).bind productOperator? with
      | none => .ok (.nothing left (token :: behind))
      | some operator => do
          let ⟨right, after, shorter⟩ ← parseSigned whole behind
          let ⟨product, rest, shorterStill⟩ ←
            parseMoreProduct whole (.binary operator left right) after
          .ok ⟨product, rest, by simp only [List.length_cons]; omega⟩
termination_by 8 * tokens.length + 1
decreasing_by
  all_goals simp only [List.length_cons]
  all_goals omega

/-- An operand with any number of signs. -/
def parseSigned (whole : Span) (tokens : List Token) :
    Except Malformed (Parsed Arithmetic tokens) :=
  match tokens with
  | [] => parseOperand whole []
  | token :: behind =>
      match leadingSymbol? (token :: behind) with
      | some .minus => do
          let ⟨inner, rest, shorter⟩ ← parseSigned whole behind
          .ok ⟨.negate inner, rest, Nat.le_succ_of_le shorter⟩
      | some .plus => do
          let ⟨inner, rest, shorter⟩ ← parseSigned whole behind
          .ok ⟨inner, rest, Nat.le_succ_of_le shorter⟩
      | _ => parseOperand whole (token :: behind)
termination_by 8 * tokens.length + 1
decreasing_by
  all_goals simp only [List.length_cons, List.length_nil]
  all_goals omega

/-- An operand. -/
def parseOperand (whole : Span) (tokens : List Token) :
    Except Malformed (Parsed Arithmetic tokens) :=
  match tokens with
  | [] => .error ⟨.endOfExpression, whole⟩
  | ⟨.number amount, _⟩ :: rest => .ok (.single (.number amount) rest)
  | ⟨.value code, _⟩ :: rest => .ok (.single (.value code) rest)
  | ⟨.symbol .openParenthesis, _⟩ :: behind => do
      let ⟨inner, after, shorter⟩ ← parseSum whole behind
      let ⟨_, rest, shorterStill⟩ ← expectSymbol whole .closeParenthesis after
      .ok ⟨inner, rest, by simp only [List.length_cons]; omega⟩
  | ⟨.word name, span⟩ :: behind =>
      match MathFunction.ofName? name with
      | none => .error ⟨.unknownFunction name, span⟩
      | some function => do
          let ⟨_, after, shorter⟩ ← expectSymbol whole .openParenthesis behind
          let ⟨arguments, rest, shorterStill⟩ ← parseOperands whole after
          if function.arity.admits arguments.length then
            .ok ⟨.function function arguments, rest, by simp only [List.length_cons]; omega⟩
          else .error ⟨.argumentCount function arguments.length, span⟩
  | ⟨found, span⟩ :: _ => .error ⟨.unexpected found, span⟩
termination_by 8 * tokens.length
decreasing_by
  all_goals simp only [List.length_cons]
  all_goals omega

/-- The arguments of a function with the closing parenthesis; there may be none at all. -/
def parseOperands (whole : Span) (tokens : List Token) :
    Except Malformed (Parsed (List Arithmetic) tokens) :=
  match tokens with
  | ⟨.symbol .closeParenthesis, _⟩ :: rest => .ok (.single [] rest)
  | tokens => parseFurtherOperands whole tokens
termination_by 8 * tokens.length + 5
decreasing_by
  all_goals omega

/-- One argument of a function and those behind it, with the closing parenthesis. -/
def parseFurtherOperands (whole : Span) (tokens : List Token) :
    Except Malformed (Parsed (List Arithmetic) tokens) := do
  let ⟨argument, after, shorter⟩ ← parseSum whole tokens
  match same : after with
  | ⟨.symbol .comma, _⟩ :: behind => do
      have shorterBehind : behind.length < tokens.length := by
        subst same
        exact shorter
      let ⟨more, rest, shorterStill⟩ ← parseFurtherOperands whole behind
      .ok ⟨argument :: more, rest, by omega⟩
  | after => do
      let ⟨_, rest, shorterStill⟩ ← expectSymbol whole .closeParenthesis after
      .ok ⟨[argument], rest, by subst same; exact Nat.le_trans shorterStill shorter⟩
termination_by 8 * tokens.length + 4
decreasing_by
  all_goals omega

end

/-- A whole calculation. -/
def parseCalculation (whole : Span) (tokens : List Token) : Except Malformed Arithmetic :=
  match tokens with
  | [] => .error ⟨.emptyExpression, whole⟩
  | tokens => do
      let ⟨calculation, rest, _⟩ ← parseSum whole tokens
      match rest with
      | [] => .ok calculation
      | token :: _ => .error ⟨.expectedOperator token.item, token.span⟩

end Expression
end TemplateCascade

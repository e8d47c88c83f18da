import TemplateCascade.Expression.Calculation

namespace TemplateCascade
namespace Expression

/-!
# The grammar of conditions

Alternatives of conjunctions of comparisons, with negation and parentheses.  The operators can be
written as symbols or as words in any letter case, and they associate to the left.  An operand by
itself asks whether its value counts as true.
-/

open Text (Span)

/-- Whether a token joins alternatives. -/
def Item.joinsAlternatives : Item → Bool
  | .symbol mark => mark = .bothBars
  | item => item.isWord "or"

/-- Whether a token joins the parts of a conjunction. -/
def Item.joinsConjunction : Item → Bool
  | .symbol mark => mark = .bothAmpersands
  | item => item.isWord "and"

/-- Whether a token negates. -/
def Item.negates : Item → Bool
  | .symbol mark => mark = .exclamation
  | item => item.isWord "not"

/-- The comparison a symbol stands for. -/
def comparison? : Symbol → Option ComparisonOperator
  | .equal => some .equal
  | .unequal => some .unequal
  | .less => some .less
  | .atMost => some .atMost
  | .greater => some .greater
  | .atLeast => some .atLeast
  | _ => none

/-- The value of a word, in any letter case. -/
def wordValue? (name : String) : Option Value :=
  match Text.lowerAscii name with
  | "true" => some (.bool true)
  | "false" => some (.bool false)
  | "null" => some .null
  | _ => none

/-- An operand of a comparison. -/
def parseConditionOperand (whole : Span) (tokens : List Token) :
    Except Malformed (Parsed Code tokens) :=
  match tokens with
  | [] => .error ⟨.endOfCondition, whole⟩
  | ⟨.value code, _⟩ :: rest => .ok (.single code rest)
  | ⟨.number amount, _⟩ :: rest => .ok (.single (.constant (.number amount)) rest)
  | ⟨.string content, _⟩ :: rest => .ok (.single (.constant (.string content)) rest)
  | ⟨.symbol .minus, span⟩ :: behind =>
      match behind with
      | [] => .error ⟨.expectedNumber, span⟩
      | ⟨.number amount, _⟩ :: rest =>
          .ok ⟨.constant (.number (-amount)), rest, by simp only [List.length_cons]; omega⟩
      | ⟨_, span⟩ :: _ => .error ⟨.expectedNumber, span⟩
  | ⟨.word name, span⟩ :: rest =>
      match wordValue? name with
      | some value => .ok (.single (.constant value) rest)
      | none => .error ⟨.expectedValue (.word name), span⟩
  | ⟨.symbol symbol, span⟩ :: _ => .error ⟨.expectedValue (.symbol symbol), span⟩

/-- A comparison, or one operand by itself. -/
def parseComparison (whole : Span) (tokens : List Token) :
    Except Malformed (Parsed Test tokens) := do
  let ⟨left, behind, shorter⟩ ← parseConditionOperand whole tokens
  match same : behind with
  | [] => .ok ⟨.truthy left, behind, shorter⟩
  | token :: after =>
      match (leadingSymbol? (token :: after)).bind comparison? with
      | none => .ok ⟨.truthy left, behind, shorter⟩
      | some operator => do
          let ⟨right, rest, shorterStill⟩ ← parseConditionOperand whole after
          .ok ⟨.compare operator left right, rest, by
            subst same; simp only [List.length_cons] at shorter; omega⟩

mutual

/-- Alternatives. -/
def parseAlternatives (whole : Span) (tokens : List Token) :
    Except Malformed (Parsed Test tokens) := do
  let ⟨left, behind, shorter⟩ ← parseConjunction whole tokens
  let ⟨test, rest, shorterStill⟩ ← parseMoreAlternatives whole left behind
  .ok ⟨test, rest, Nat.le_trans shorterStill shorter⟩
termination_by 8 * tokens.length + 3
decreasing_by
  all_goals omega

/-- The further alternatives. -/
def parseMoreAlternatives (whole : Span) (left : Test) (tokens : List Token) :
    Except Malformed (Parsed Test tokens) :=
  match tokens with
  | [] => .ok (.nothing left [])
  | token :: behind =>
      if token.item.joinsAlternatives then do
        let ⟨right, after, shorter⟩ ← parseConjunction whole behind
        let ⟨test, rest, shorterStill⟩ ← parseMoreAlternatives whole (.or left right) after
        .ok ⟨test, rest, by simp only [List.length_cons]; omega⟩
      else .ok (.nothing left (token :: behind))
termination_by 8 * tokens.length + 1
decreasing_by
  all_goals simp only [List.length_cons]
  all_goals omega

/-- A conjunction. -/
def parseConjunction (whole : Span) (tokens : List Token) :
    Except Malformed (Parsed Test tokens) := do
  let ⟨left, behind, shorter⟩ ← parseNegation whole tokens
  let ⟨test, rest, shorterStill⟩ ← parseMoreConjunction whole left behind
  .ok ⟨test, rest, Nat.le_trans shorterStill shorter⟩
termination_by 8 * tokens.length + 2
decreasing_by
  all_goals omega

/-- The further parts of a conjunction. -/
def parseMoreConjunction (whole : Span) (left : Test) (tokens : List Token) :
    Except Malformed (Parsed Test tokens) :=
  match tokens with
  | [] => .ok (.nothing left [])
  | token :: behind =>
      if token.item.joinsConjunction then do
        let ⟨right, after, shorter⟩ ← parseNegation whole behind
        let ⟨test, rest, shorterStill⟩ ← parseMoreConjunction whole (.and left right) after
        .ok ⟨test, rest, by simp only [List.length_cons]; omega⟩
      else .ok (.nothing left (token :: behind))
termination_by 8 * tokens.length + 1
decreasing_by
  all_goals simp only [List.length_cons]
  all_goals omega

/-- A negation, a condition in parentheses or a comparison. -/
def parseNegation (whole : Span) (tokens : List Token) :
    Except Malformed (Parsed Test tokens) :=
  match tokens with
  | [] => parseComparison whole []
  | token :: behind =>
      if token.item.negates then do
        let ⟨inner, rest, shorter⟩ ← parseNegation whole behind
        .ok ⟨.not inner, rest, Nat.le_succ_of_le shorter⟩
      else if leadingSymbol? (token :: behind) = some .openParenthesis then do
        let ⟨inner, after, shorter⟩ ← parseAlternatives whole behind
        let ⟨_, rest, shorterStill⟩ ← expectSymbol whole .closeParenthesis after
        .ok ⟨inner, rest, by simp only [List.length_cons]; omega⟩
      else parseComparison whole (token :: behind)
termination_by 8 * tokens.length + 1
decreasing_by
  all_goals simp only [List.length_cons]
  all_goals omega

end

/-- A whole condition. -/
def parseCondition (whole : Span) (tokens : List Token) : Except Malformed Test :=
  match tokens with
  | [] => .error ⟨.emptyCondition, whole⟩
  | tokens => do
      let ⟨test, rest, _⟩ ← parseAlternatives whole tokens
      match rest with
      | [] => .ok test
      | token :: _ => .error ⟨.unexpected token.item, token.span⟩

end Expression
end TemplateCascade

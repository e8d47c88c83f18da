import Mathlib
import TemplateCascade.Expression.Condition
import TemplateCascade.Proofs.Expression.Readings

namespace TemplateCascade
namespace Expression

/-!
# Expressions by their shape

A variable or a call inside an expression is one token, and the grammar never looks into the code that the
token holds.  So two lists of tokens that differ in the codes of values at most are both read or both
refused, for the same reason at the same place, and the same tokens are left behind.

What is read differs in those codes too.  Nothing is compared of it but the number of arguments of a
function, which is all that the grammar asks about what it has read already.
-/

open Text (Span)

/-! ## Tokens and faults -/

/-- An item without the code of its value, which no message shows. -/
def Item.bare : Item → Item
  | .value _ => .value Code.empty
  | item => item

@[simp]
theorem Item.description_bare (item : Item) : item.bare.description = item.description := by
  cases item <;> rfl

/-- A fault without the codes of the values it speaks of. -/
def Fault.bare : Fault → Fault
  | .expectedSymbol expected found => .expectedSymbol expected (found.map Item.bare)
  | .expectedOperator found => .expectedOperator found.bare
  | .unexpected found => .unexpected found.bare
  | .expectedValue found => .expectedValue found.bare
  | fault => fault

@[simp]
theorem Fault.message_bare (fault : Fault) : fault.bare.message = fault.message := by
  cases fault with
  | expectedSymbol expected found =>
      cases found with
      | none => rfl
      | some item =>
          exact congrArg ("expected '" ++ expected.text ++ "', found " ++ ·) item.description_bare
  | expectedOperator found =>
      exact congrArg ("expected an operator, found " ++ ·) found.description_bare
  | unexpected found => exact congrArg ("unexpected " ++ ·) found.description_bare
  | expectedValue found => exact congrArg ("expected a value, found " ++ ·) found.description_bare
  | _ => rfl

/-- Two tokens that differ in the code of a value at most. -/
inductive TokenAlike : Token → Token → Prop where
  | value (code other : Code) (span : Span) : TokenAlike ⟨.value code, span⟩ ⟨.value other, span⟩
  | same (token : Token) : TokenAlike token token

/-- Two lists of tokens that differ in the codes of values at most. -/
abbrev TokensAlike : List Token → List Token → Prop :=
  List.Forall₂ TokenAlike

theorem TokenAlike.item_bare {token other : Token} (alike : TokenAlike token other) :
    token.item.bare = other.item.bare := by
  cases alike <;> rfl

theorem TokenAlike.span_eq {token other : Token} (alike : TokenAlike token other) :
    token.span = other.span := by
  cases alike <;> rfl

/-! ## Readings -/

/-- Both readings succeed with results that agree, or both fail alike at one place. -/
inductive Agree {Left Right : Type} (agree : Left → Right → Prop) :
    Except Malformed Left → Except Malformed Right → Prop where
  | ok {left : Left} {right : Right} (same : agree left right) : Agree agree (.ok left) (.ok right)
  | error {fault other : Fault} (span : Span) (same : fault.bare = other.bare) :
      Agree agree (.error ⟨fault, span⟩) (.error ⟨other, span⟩)

theorem Agree.bind {Left Right Left' Right' : Type} {agree : Left → Right → Prop}
    {agree' : Left' → Right' → Prop} {first : Except Malformed Left} {second : Except Malformed Right}
    {next : Left → Except Malformed Left'} {other : Right → Except Malformed Right'}
    (start : Agree agree first second)
    (rest : ∀ left right, agree left right → Agree agree' (next left) (other right)) :
    Agree agree' (first >>= next) (second >>= other) := by
  cases start with
  | ok same => exact rest _ _ same
  | error span same => exact .error span same

theorem Agree.refl {Result : Type} (outcome : Except Malformed Result) : Agree Eq outcome outcome := by
  cases outcome with
  | ok result => exact .ok rfl
  | error malformed => exact .error malformed.span rfl

/-- Results that agree, with tokens behind them that are alike. -/
structure ParsedAlike {Left Right : Type} (agree : Left → Right → Prop) {tokens others : List Token}
    (parsed : Parsed Left tokens) (other : Parsed Right others) : Prop where
  result : agree parsed.result other.result
  rest : TokensAlike parsed.rest other.rest

/-- Of what is read nothing is compared. -/
abbrev Whatever {Left Right : Type} : Left → Right → Prop :=
  fun _ _ => True

/-! ## Calculations -/

theorem leadingSymbol_alike :
    ∀ {tokens others : List Token}, TokensAlike tokens others →
      leadingSymbol? tokens = leadingSymbol? others
  | _, _, .nil => rfl
  | _, _, .cons (.value _ _ _) _ => rfl
  | _, _, .cons (.same ⟨item, _⟩) _ => by cases item <;> rfl

theorem expectSymbol_alike (whole : Span) (symbol : Symbol) {tokens others : List Token}
    (alike : TokensAlike tokens others) :
    Agree (ParsedAlike Whatever) (expectSymbol whole symbol tokens) (expectSymbol whole symbol others) := by
  have leading := leadingSymbol_alike alike
  cases alike with
  | nil => exact .error _ rfl
  | cons first rest =>
      simp only [expectSymbol, leading]
      split
      · exact .ok ⟨trivial, rest⟩
      · rw [first.span_eq]
        exact .error _ (congrArg (fun item => Fault.expectedSymbol symbol (some item)) first.item_bare)

/-- Two lists of one length. -/
def SameLength {Left Right : Type} (left : List Left) (right : List Right) : Prop :=
  left.length = right.length

theorem parseOperands_of_not_closing {whole : Span} {tokens : List Token}
    (continues : leadingSymbol? tokens ≠ some .closeParenthesis) :
    parseOperands whole tokens = parseFurtherOperands whole tokens := by
  rw [parseOperands]
  rintro span rest rfl
  exact continues rfl

/-
The theorems below recurse as the grammar does, each by the tokens that are left.  The second list has
as many, so its length takes no part in the measure.
-/
mutual

theorem parseSum_alike (whole : Span) (tokens others : List Token) (alike : TokensAlike tokens others) :
    Agree (ParsedAlike Whatever) (parseSum whole tokens) (parseSum whole others) := by
  rw [parseSum, parseSum]
  refine (parseProduct_alike whole tokens others alike).bind ?_
  rintro ⟨left, behind, shorter⟩ ⟨other, behindOther, _⟩ ⟨_, behindAlike⟩
  refine (parseMoreSum_alike whole left other behind behindOther behindAlike).bind ?_
  rintro ⟨sum, rest, _⟩ ⟨otherSum, otherRest, _⟩ ⟨_, restAlike⟩
  exact .ok ⟨trivial, restAlike⟩
termination_by 8 * tokens.length + 3
decreasing_by
  all_goals omega

theorem parseMoreSum_alike (whole : Span) (left other : Arithmetic) (tokens others : List Token)
    (alike : TokensAlike tokens others) :
    Agree (ParsedAlike Whatever) (parseMoreSum whole left tokens) (parseMoreSum whole other others) := by
  have leading := leadingSymbol_alike alike
  match tokens, others, alike with
  | [], [], .nil =>
    rw [parseMoreSum, parseMoreSum]
    exact .ok ⟨trivial, .nil⟩
  | token :: behind, otherToken :: behindOther, .cons first rest =>
    rw [parseMoreSum, parseMoreSum, leading]
    split
    · exact .ok ⟨trivial, .cons first rest⟩
    · refine (parseProduct_alike whole behind behindOther rest).bind ?_
      rintro ⟨right, after, shorter⟩ ⟨otherRight, afterOther, _⟩ ⟨_, afterAlike⟩
      refine (parseMoreSum_alike whole _ _ after afterOther afterAlike).bind ?_
      rintro ⟨sum, last, _⟩ ⟨otherSum, otherLast, _⟩ ⟨_, lastAlike⟩
      exact .ok ⟨trivial, lastAlike⟩
termination_by 8 * tokens.length + 1
decreasing_by
  all_goals simp only [List.length_cons]
  all_goals omega

theorem parseProduct_alike (whole : Span) (tokens others : List Token)
    (alike : TokensAlike tokens others) :
    Agree (ParsedAlike Whatever) (parseProduct whole tokens) (parseProduct whole others) := by
  rw [parseProduct, parseProduct]
  refine (parseSigned_alike whole tokens others alike).bind ?_
  rintro ⟨left, behind, shorter⟩ ⟨other, behindOther, _⟩ ⟨_, behindAlike⟩
  refine (parseMoreProduct_alike whole left other behind behindOther behindAlike).bind ?_
  rintro ⟨product, rest, _⟩ ⟨otherProduct, otherRest, _⟩ ⟨_, restAlike⟩
  exact .ok ⟨trivial, restAlike⟩
termination_by 8 * tokens.length + 2
decreasing_by
  all_goals omega

theorem parseMoreProduct_alike (whole : Span) (left other : Arithmetic) (tokens others : List Token)
    (alike : TokensAlike tokens others) :
    Agree (ParsedAlike Whatever) (parseMoreProduct whole left tokens)
      (parseMoreProduct whole other others) := by
  have leading := leadingSymbol_alike alike
  match tokens, others, alike with
  | [], [], .nil =>
    rw [parseMoreProduct, parseMoreProduct]
    exact .ok ⟨trivial, .nil⟩
  | token :: behind, otherToken :: behindOther, .cons first rest =>
    rw [parseMoreProduct, parseMoreProduct, leading]
    split
    · exact .ok ⟨trivial, .cons first rest⟩
    · refine (parseSigned_alike whole behind behindOther rest).bind ?_
      rintro ⟨right, after, shorter⟩ ⟨otherRight, afterOther, _⟩ ⟨_, afterAlike⟩
      refine (parseMoreProduct_alike whole _ _ after afterOther afterAlike).bind ?_
      rintro ⟨product, last, _⟩ ⟨otherProduct, otherLast, _⟩ ⟨_, lastAlike⟩
      exact .ok ⟨trivial, lastAlike⟩
termination_by 8 * tokens.length + 1
decreasing_by
  all_goals simp only [List.length_cons]
  all_goals omega

theorem parseSigned_alike (whole : Span) (tokens others : List Token)
    (alike : TokensAlike tokens others) :
    Agree (ParsedAlike Whatever) (parseSigned whole tokens) (parseSigned whole others) := by
  have leading := leadingSymbol_alike alike
  match tokens, others, alike with
  | [], [], .nil =>
    rw [parseSigned]
    exact parseOperand_alike whole [] [] .nil
  | token :: behind, otherToken :: behindOther, .cons first rest =>
    rw [parseSigned, parseSigned, leading]
    split
    · refine (parseSigned_alike whole behind behindOther rest).bind ?_
      rintro ⟨inner, last, _⟩ ⟨otherInner, otherLast, _⟩ ⟨_, lastAlike⟩
      exact .ok ⟨trivial, lastAlike⟩
    · refine (parseSigned_alike whole behind behindOther rest).bind ?_
      rintro ⟨inner, last, _⟩ ⟨otherInner, otherLast, _⟩ ⟨_, lastAlike⟩
      exact .ok ⟨trivial, lastAlike⟩
    · exact parseOperand_alike whole (token :: behind) (otherToken :: behindOther) (.cons first rest)
termination_by 8 * tokens.length + 1
decreasing_by
  all_goals simp only [List.length_cons, List.length_nil]
  all_goals omega

theorem parseOperand_alike (whole : Span) (tokens others : List Token)
    (alike : TokensAlike tokens others) :
    Agree (ParsedAlike Whatever) (parseOperand whole tokens) (parseOperand whole others) := by
  match tokens, others, alike with
  | [], [], .nil =>
    rw [parseOperand]
    exact .error whole rfl
  -- The only tokens that differ are values, and an operand takes any value as it is.
  | _ :: rest, _ :: otherRest, .cons (.value code other span) restAlike =>
    rw [parseOperand, parseOperand]
    exact .ok ⟨trivial, restAlike⟩
  | ⟨.value code, span⟩ :: rest, _ :: otherRest, .cons (.same _) restAlike =>
    rw [parseOperand, parseOperand]
    exact .ok ⟨trivial, restAlike⟩
  | ⟨.number amount, span⟩ :: rest, _ :: otherRest, .cons (.same _) restAlike =>
    rw [parseOperand, parseOperand]
    exact .ok ⟨trivial, restAlike⟩
  | ⟨.string content, span⟩ :: rest, _ :: otherRest, .cons (.same _) restAlike =>
    rw [parseOperand, parseOperand]
    · exact .error span rfl
    all_goals simp
  | ⟨.symbol symbol, span⟩ :: behind, _ :: behindOther, .cons (.same _) behindAlike =>
    by_cases opens : symbol = .openParenthesis
    · subst opens
      rw [parseOperand, parseOperand]
      refine (parseSum_alike whole behind behindOther behindAlike).bind ?_
      rintro ⟨inner, after, shorter⟩ ⟨otherInner, afterOther, _⟩ ⟨_, afterAlike⟩
      refine (expectSymbol_alike whole .closeParenthesis afterAlike).bind ?_
      rintro ⟨_, rest, _⟩ ⟨_, otherRest, _⟩ ⟨_, restAlike⟩
      exact .ok ⟨trivial, restAlike⟩
    · rw [parseOperand, parseOperand]
      · exact .error span rfl
      all_goals simp [opens]
  | ⟨.word name, span⟩ :: behind, _ :: behindOther, .cons (.same _) behindAlike =>
    rw [parseOperand, parseOperand]
    split
    · exact .error span rfl
    · next function _ =>
      refine (expectSymbol_alike whole .openParenthesis behindAlike).bind ?_
      rintro ⟨_, after, shorter⟩ ⟨_, afterOther, _⟩ ⟨_, afterAlike⟩
      refine (parseOperands_alike whole after afterOther afterAlike).bind ?_
      rintro ⟨arguments, rest, _⟩ ⟨otherArguments, otherRest, _⟩ ⟨sameLength, restAlike⟩
      dsimp only at sameLength ⊢
      rw [sameLength]
      split
      · exact .ok ⟨trivial, restAlike⟩
      · exact .error span rfl
termination_by 8 * tokens.length
decreasing_by
  all_goals simp only [List.length_cons]
  all_goals omega

theorem parseOperands_alike (whole : Span) (tokens others : List Token)
    (alike : TokensAlike tokens others) :
    Agree (ParsedAlike SameLength) (parseOperands whole tokens) (parseOperands whole others) := by
  have leading := leadingSymbol_alike alike
  by_cases closes : leadingSymbol? tokens = some .closeParenthesis
  · rcases exists_of_leadingSymbol closes with ⟨span, rest, rfl⟩
    rcases exists_of_leadingSymbol (leading.symm.trans closes) with ⟨_, otherRest, rfl⟩
    rw [parseOperands, parseOperands]
    exact .ok ⟨rfl, (List.forall₂_cons.mp alike).2⟩
  · rw [parseOperands_of_not_closing closes, parseOperands_of_not_closing (leading ▸ closes)]
    exact parseFurtherOperands_alike whole tokens others alike
termination_by 8 * tokens.length + 5

theorem parseFurtherOperands_alike (whole : Span) (tokens others : List Token)
    (alike : TokensAlike tokens others) :
    Agree (ParsedAlike SameLength) (parseFurtherOperands whole tokens)
      (parseFurtherOperands whole others) := by
  rw [parseFurtherOperands, parseFurtherOperands]
  refine (parseSum_alike whole tokens others alike).bind ?_
  rintro ⟨argument, after, shorter⟩ ⟨otherArgument, afterOther, otherShorter⟩ ⟨_, afterAlike⟩
  dsimp only at afterAlike ⊢
  have leading := leadingSymbol_alike afterAlike
  by_cases continues : leadingSymbol? after = some .comma
  · rcases exists_of_leadingSymbol continues with ⟨span, behind, rfl⟩
    rcases exists_of_leadingSymbol (leading.symm.trans continues) with ⟨_, behindOther, rfl⟩
    have behindAlike := (List.forall₂_cons.mp afterAlike).2
    refine (parseFurtherOperands_alike whole behind behindOther behindAlike).bind ?_
    rintro ⟨more, rest, _⟩ ⟨otherMore, otherRest, _⟩ ⟨sameLength, restAlike⟩
    exact .ok ⟨congrArg Nat.succ sameLength, restAlike⟩
  · split
    · next span behind => exact absurd rfl continues
    · split
      · next span behind _ => exact absurd leading continues
      · refine (expectSymbol_alike whole .closeParenthesis afterAlike).bind ?_
        rintro ⟨_, rest, _⟩ ⟨_, otherRest, _⟩ ⟨_, restAlike⟩
        exact .ok ⟨rfl, restAlike⟩
termination_by 8 * tokens.length + 4
decreasing_by
  all_goals first | omega | (simp only [List.length_cons] at shorter; omega)

end

/-- A calculation is read alike whatever code its values have. -/
theorem parseCalculation_alike (whole : Span) {tokens others : List Token}
    (alike : TokensAlike tokens others) :
    Agree Whatever (parseCalculation whole tokens) (parseCalculation whole others) := by
  cases alike with
  | nil => exact .error whole rfl
  | cons first rest =>
      rw [parseCalculation, parseCalculation]
      · refine (parseSum_alike whole _ _ (.cons first rest)).bind ?_
        rintro ⟨calculation, after, _⟩ ⟨other, afterOther, _⟩ ⟨_, afterAlike⟩
        cases afterAlike with
        | nil => exact .ok trivial
        | cons token _ =>
            dsimp only
            rw [token.span_eq]
            exact .error _ (congrArg Fault.expectedOperator token.item_bare)
      all_goals simp

/-! ## Conditions -/

theorem joinsAlternatives_bare (item : Item) :
    item.bare.joinsAlternatives = item.joinsAlternatives := by
  cases item <;> rfl

theorem joinsConjunction_bare (item : Item) : item.bare.joinsConjunction = item.joinsConjunction := by
  cases item <;> rfl

theorem negates_bare (item : Item) : item.bare.negates = item.negates := by
  cases item <;> rfl

theorem parseConditionOperand_alike (whole : Span) {tokens others : List Token}
    (alike : TokensAlike tokens others) :
    Agree (ParsedAlike Whatever) (parseConditionOperand whole tokens)
      (parseConditionOperand whole others) := by
  match tokens, others, alike with
  | [], [], .nil => exact .error whole rfl
  | _ :: rest, _ :: otherRest, .cons (.value code other span) restAlike => exact .ok ⟨trivial, restAlike⟩
  | ⟨.value code, span⟩ :: rest, _ :: otherRest, .cons (.same _) restAlike =>
    exact .ok ⟨trivial, restAlike⟩
  | ⟨.number amount, span⟩ :: rest, _ :: otherRest, .cons (.same _) restAlike =>
    exact .ok ⟨trivial, restAlike⟩
  | ⟨.string content, span⟩ :: rest, _ :: otherRest, .cons (.same _) restAlike =>
    exact .ok ⟨trivial, restAlike⟩
  | ⟨.word name, span⟩ :: rest, _ :: otherRest, .cons (.same _) restAlike =>
    simp only [parseConditionOperand]
    split
    · exact .ok ⟨trivial, restAlike⟩
    · exact .error span rfl
  | ⟨.symbol symbol, span⟩ :: behind, _ :: behindOther, .cons (.same _) behindAlike =>
    by_cases negative : symbol = .minus
    · subst negative
      match behind, behindOther, behindAlike with
      | [], [], .nil => exact .error span rfl
      | _ :: _, _ :: _, .cons (.value _ _ place) _ => exact .error place rfl
      | ⟨item, place⟩ :: _, _ :: _, .cons (.same _) restAlike =>
        cases item with
        | number amount => exact .ok ⟨trivial, restAlike⟩
        | _ => exact .error place rfl
    · rw [parseConditionOperand, parseConditionOperand]
      · exact .error span rfl
      all_goals simp [negative]

theorem parseComparison_alike (whole : Span) {tokens others : List Token}
    (alike : TokensAlike tokens others) :
    Agree (ParsedAlike Whatever) (parseComparison whole tokens) (parseComparison whole others) := by
  rw [parseComparison, parseComparison]
  refine (parseConditionOperand_alike whole alike).bind ?_
  rintro ⟨left, behind, shorter⟩ ⟨other, behindOther, _⟩ ⟨_, behindAlike⟩
  dsimp only at behindAlike ⊢
  have leading := leadingSymbol_alike behindAlike
  cases behindAlike with
  | nil => exact .ok ⟨trivial, .nil⟩
  | cons first rest =>
      dsimp only
      rw [leading]
      split
      · exact .ok ⟨trivial, .cons first rest⟩
      · refine (parseConditionOperand_alike whole rest).bind ?_
        rintro ⟨right, last, _⟩ ⟨otherRight, otherLast, _⟩ ⟨_, lastAlike⟩
        exact .ok ⟨trivial, lastAlike⟩

mutual

theorem parseAlternatives_alike (whole : Span) (tokens others : List Token)
    (alike : TokensAlike tokens others) :
    Agree (ParsedAlike Whatever) (parseAlternatives whole tokens) (parseAlternatives whole others) := by
  rw [parseAlternatives, parseAlternatives]
  refine (parseConjunction_alike whole tokens others alike).bind ?_
  rintro ⟨left, behind, shorter⟩ ⟨other, behindOther, _⟩ ⟨_, behindAlike⟩
  refine (parseMoreAlternatives_alike whole left other behind behindOther behindAlike).bind ?_
  rintro ⟨test, rest, _⟩ ⟨otherTest, otherRest, _⟩ ⟨_, restAlike⟩
  exact .ok ⟨trivial, restAlike⟩
termination_by 8 * tokens.length + 3
decreasing_by
  all_goals omega

theorem parseMoreAlternatives_alike (whole : Span) (left other : Test) (tokens others : List Token)
    (alike : TokensAlike tokens others) :
    Agree (ParsedAlike Whatever) (parseMoreAlternatives whole left tokens)
      (parseMoreAlternatives whole other others) := by
  match tokens, others, alike with
  | [], [], .nil =>
    rw [parseMoreAlternatives, parseMoreAlternatives]
    exact .ok ⟨trivial, .nil⟩
  | token :: behind, otherToken :: behindOther, .cons first rest =>
    have joins : token.item.joinsAlternatives = otherToken.item.joinsAlternatives := by
      rw [← joinsAlternatives_bare, first.item_bare, joinsAlternatives_bare]
    rw [parseMoreAlternatives, parseMoreAlternatives, joins]
    split
    · refine (parseConjunction_alike whole behind behindOther rest).bind ?_
      rintro ⟨right, after, shorter⟩ ⟨otherRight, afterOther, _⟩ ⟨_, afterAlike⟩
      refine (parseMoreAlternatives_alike whole _ _ after afterOther afterAlike).bind ?_
      rintro ⟨test, last, _⟩ ⟨otherTest, otherLast, _⟩ ⟨_, lastAlike⟩
      exact .ok ⟨trivial, lastAlike⟩
    · exact .ok ⟨trivial, .cons first rest⟩
termination_by 8 * tokens.length + 1
decreasing_by
  all_goals simp only [List.length_cons]
  all_goals omega

theorem parseConjunction_alike (whole : Span) (tokens others : List Token)
    (alike : TokensAlike tokens others) :
    Agree (ParsedAlike Whatever) (parseConjunction whole tokens) (parseConjunction whole others) := by
  rw [parseConjunction, parseConjunction]
  refine (parseNegation_alike whole tokens others alike).bind ?_
  rintro ⟨left, behind, shorter⟩ ⟨other, behindOther, _⟩ ⟨_, behindAlike⟩
  refine (parseMoreConjunction_alike whole left other behind behindOther behindAlike).bind ?_
  rintro ⟨test, rest, _⟩ ⟨otherTest, otherRest, _⟩ ⟨_, restAlike⟩
  exact .ok ⟨trivial, restAlike⟩
termination_by 8 * tokens.length + 2
decreasing_by
  all_goals omega

theorem parseMoreConjunction_alike (whole : Span) (left other : Test) (tokens others : List Token)
    (alike : TokensAlike tokens others) :
    Agree (ParsedAlike Whatever) (parseMoreConjunction whole left tokens)
      (parseMoreConjunction whole other others) := by
  match tokens, others, alike with
  | [], [], .nil =>
    rw [parseMoreConjunction, parseMoreConjunction]
    exact .ok ⟨trivial, .nil⟩
  | token :: behind, otherToken :: behindOther, .cons first rest =>
    have joins : token.item.joinsConjunction = otherToken.item.joinsConjunction := by
      rw [← joinsConjunction_bare, first.item_bare, joinsConjunction_bare]
    rw [parseMoreConjunction, parseMoreConjunction, joins]
    split
    · refine (parseNegation_alike whole behind behindOther rest).bind ?_
      rintro ⟨right, after, shorter⟩ ⟨otherRight, afterOther, _⟩ ⟨_, afterAlike⟩
      refine (parseMoreConjunction_alike whole _ _ after afterOther afterAlike).bind ?_
      rintro ⟨test, last, _⟩ ⟨otherTest, otherLast, _⟩ ⟨_, lastAlike⟩
      exact .ok ⟨trivial, lastAlike⟩
    · exact .ok ⟨trivial, .cons first rest⟩
termination_by 8 * tokens.length + 1
decreasing_by
  all_goals simp only [List.length_cons]
  all_goals omega

theorem parseNegation_alike (whole : Span) (tokens others : List Token)
    (alike : TokensAlike tokens others) :
    Agree (ParsedAlike Whatever) (parseNegation whole tokens) (parseNegation whole others) := by
  have leading := leadingSymbol_alike alike
  match tokens, others, alike with
  | [], [], .nil =>
    rw [parseNegation]
    exact parseComparison_alike whole .nil
  | token :: behind, otherToken :: behindOther, .cons first rest =>
    have negates : token.item.negates = otherToken.item.negates := by
      rw [← negates_bare, first.item_bare, negates_bare]
    rw [parseNegation, parseNegation, negates, leading]
    split
    · refine (parseNegation_alike whole behind behindOther rest).bind ?_
      rintro ⟨inner, last, _⟩ ⟨otherInner, otherLast, _⟩ ⟨_, lastAlike⟩
      exact .ok ⟨trivial, lastAlike⟩
    · split
      · refine (parseAlternatives_alike whole behind behindOther rest).bind ?_
        rintro ⟨inner, after, shorter⟩ ⟨otherInner, afterOther, _⟩ ⟨_, afterAlike⟩
        refine (expectSymbol_alike whole .closeParenthesis afterAlike).bind ?_
        rintro ⟨_, last, _⟩ ⟨_, otherLast, _⟩ ⟨_, lastAlike⟩
        exact .ok ⟨trivial, lastAlike⟩
      · exact parseComparison_alike whole (.cons first rest)
termination_by 8 * tokens.length + 1
decreasing_by
  all_goals simp only [List.length_cons]
  all_goals omega

end

/-- A condition is read alike whatever code its values have. -/
theorem parseCondition_alike (whole : Span) {tokens others : List Token}
    (alike : TokensAlike tokens others) :
    Agree Whatever (parseCondition whole tokens) (parseCondition whole others) := by
  cases alike with
  | nil => exact .error whole rfl
  | cons first rest =>
      rw [parseCondition, parseCondition]
      · refine (parseAlternatives_alike whole _ _ (.cons first rest)).bind ?_
        rintro ⟨test, after, _⟩ ⟨other, afterOther, _⟩ ⟨_, afterAlike⟩
        cases afterAlike with
        | nil => exact .ok trivial
        | cons token _ =>
            dsimp only
            rw [token.span_eq]
            exact .error _ (congrArg Fault.unexpected token.item_bare)
      all_goals simp

end Expression
end TemplateCascade

import Mathlib
import TemplateCascade.Expression.Condition
import TemplateCascade.Proofs.Code.NormalForm

namespace TemplateCascade
namespace Expression

/-!
# The code inside expressions

A calculation or a condition has no code in it but that of the values among its tokens, and constants in a
condition.  So what holds throughout the code of all values holds throughout what is read.
-/

open Text (Span)

/-- A property holds throughout the code of every value among some tokens. -/
def ValuesHave (holds : Code → Prop) (tokens : List Token) : Prop :=
  ∀ token ∈ tokens, ∀ code, token.item = .value code → code.Throughout holds

variable {holds : Code → Prop} {Result First : Type} {good : Result → Prop} {tokens input : List Token}

theorem ValuesHave.tail {token : Token} (values : ValuesHave holds (token :: tokens)) :
    ValuesHave holds tokens :=
  (List.forall_mem_cons.mp values).2

/-! ## Scanned text has no values -/

theorem item_ne_value_of_scanNumber? {text : List Char} {scanned : Scanned text}
    (found : scanNumber? text = some scanned) (code : Code) : scanned.item ≠ .value code := by
  unfold scanNumber? at found
  dsimp only at found
  split at found
  · cases found
  · cases found
    exact nofun

theorem item_ne_value_of_scanWord? {text : List Char} {scanned : Scanned text}
    (found : scanWord? text = some scanned) (code : Code) : scanned.item ≠ .value code := by
  unfold scanWord? at found
  split at found
  · cases found
  · cases found
    exact nofun

theorem item_ne_value_of_scanSymbol? {text : List Char} {scanned : Scanned text}
    (found : scanSymbol? text = some scanned) (code : Code) : scanned.item ≠ .value code := by
  unfold scanSymbol? at found
  split at found
  · cases found
  · rcases Option.map_eq_some_iff.mp found with ⟨mark, _, rfl⟩
    exact nofun
  · split at found
    · cases found
      exact nofun
    · rcases Option.map_eq_some_iff.mp found with ⟨mark, _, rfl⟩
      exact nofun

theorem item_ne_value_of_scan {first : Char} {rest : List Char} {scanned : Scanned (first :: rest)}
    (found : scan first rest = .ok scanned) (code : Code) : scanned.item ≠ .value code := by
  unfold scan at found
  split at found
  · split at found
    · cases found
      exact nofun
    · cases found
  · split at found
    · next taken isTaken =>
      cases found
      simp only [Option.orElse_eq_orElse, Option.orElse_eq_or, Option.or_eq_some_iff] at isTaken
      rcases isTaken with number | ⟨_, word | ⟨_, symbol⟩⟩
      · exact item_ne_value_of_scanNumber? number code
      · exact item_ne_value_of_scanWord? word code
      · exact item_ne_value_of_scanSymbol? symbol code
    · cases found

theorem valuesHave_of_tokensFrom {place : Text.Place} {text : List Char}
    (found : tokensFrom place text = .ok tokens) : ValuesHave holds tokens := by
  induction place, text using tokensFrom.induct generalizing tokens with
  | case1 place =>
      rw [tokensFrom] at found
      cases found
      exact nofun
  | case2 place character tail isBlank inductionHypothesis =>
      rw [tokensFrom, if_pos isBlank] at found
      exact inductionHypothesis found
  | case3 place character tail notBlank fault width refused =>
      rw [tokensFrom, if_neg notBlank, refused] at found
      cases found
  | case4 place character tail notBlank scanned taken shorter inductionHypothesis =>
      rw [tokensFrom, if_neg notBlank, taken] at found
      cases further : tokensFrom (placeAfter place scanned.lexeme) scanned.rest with
      | error malformed =>
          simp only [further] at found
          cases found
      | ok later =>
          simp only [further] at found
          cases found
          refine List.forall_mem_cons.mpr ⟨fun code isValue => ?_, inductionHypothesis further⟩
          exact absurd isValue (item_ne_value_of_scan taken code)

/-! ## Readings -/

/-- If something is read, then it is as it should be, and the values behind it still have a property. -/
def Gives {Result : Type} (holds : Code → Prop) (good : Result → Prop) {tokens : List Token}
    (reading : Except Malformed (Parsed Result tokens)) : Prop :=
  ∀ parsed, reading = .ok parsed → good parsed.result ∧ ValuesHave holds parsed.rest

theorem Gives.ok {parsed : Parsed Result tokens} (isGood : good parsed.result)
    (behind : ValuesHave holds parsed.rest) : Gives holds good (.ok parsed) := by
  rintro _ ⟨⟩
  exact ⟨isGood, behind⟩

theorem Gives.error (malformed : Malformed) :
    Gives holds good (.error malformed : Except Malformed (Parsed Result tokens)) :=
  nofun

theorem Gives.bind {front : First → Prop} {reading : Except Malformed (Parsed First input)}
    {next : Parsed First input → Except Malformed (Parsed Result tokens)}
    (gives : Gives holds front reading)
    (others : ∀ parsed, front parsed.result → ValuesHave holds parsed.rest →
      Gives holds good (next parsed)) :
    Gives holds good (reading >>= next) := by
  cases reading with
  | error malformed => exact Gives.error malformed
  | ok parsed =>
      rcases gives parsed rfl with ⟨isFront, behind⟩
      exact others parsed isFront behind

theorem expectSymbol_gives (whole : Span) (symbol : Symbol) (values : ValuesHave holds tokens) :
    Gives holds (fun _ => True) (expectSymbol whole symbol tokens) := by
  cases tokens with
  | nil => exact Gives.error _
  | cons token rest =>
      rw [expectSymbol]
      split
      · exact Gives.ok trivial values.tail
      · exact Gives.error _

/-! ## Calculations -/

/-- What is read as a calculation is one throughout which the property holds. -/
abbrev GivesCalculation (holds : Code → Prop) {tokens : List Token} :
    Except Malformed (Parsed Arithmetic tokens) → Prop :=
  Gives holds (Arithmetic.Throughout holds)

mutual

theorem parseSum_gives (whole : Span) (tokens : List Token) (values : ValuesHave holds tokens) :
    GivesCalculation holds (parseSum whole tokens) := by
  rw [parseSum]
  refine (parseProduct_gives whole tokens values).bind ?_
  rintro ⟨left, behind, shorter⟩ isLeft valuesBehind
  refine (parseMoreSum_gives whole left behind isLeft valuesBehind).bind ?_
  rintro ⟨sum, rest, _⟩ isSum valuesRest
  exact Gives.ok isSum valuesRest
termination_by 8 * tokens.length + 3
decreasing_by
  all_goals omega

theorem parseMoreSum_gives (whole : Span) (left : Arithmetic) (tokens : List Token)
    (isLeft : left.Throughout holds) (values : ValuesHave holds tokens) :
    GivesCalculation holds (parseMoreSum whole left tokens) := by
  match tokens, values with
  | [], values =>
    rw [parseMoreSum]
    exact Gives.ok isLeft values
  | token :: behind, values =>
    rw [parseMoreSum]
    split
    · exact Gives.ok isLeft values
    · next operator _ =>
      refine (parseProduct_gives whole behind values.tail).bind ?_
      rintro ⟨right, after, shorter⟩ isRight valuesAfter
      have isBoth : (Arithmetic.binary operator left right).Throughout holds := ⟨isLeft, isRight⟩
      refine (parseMoreSum_gives whole _ after isBoth valuesAfter).bind ?_
      rintro ⟨sum, rest, _⟩ isSum valuesRest
      exact Gives.ok isSum valuesRest
termination_by 8 * tokens.length + 1
decreasing_by
  all_goals simp only [List.length_cons]
  all_goals omega

theorem parseProduct_gives (whole : Span) (tokens : List Token) (values : ValuesHave holds tokens) :
    GivesCalculation holds (parseProduct whole tokens) := by
  rw [parseProduct]
  refine (parseSigned_gives whole tokens values).bind ?_
  rintro ⟨left, behind, shorter⟩ isLeft valuesBehind
  refine (parseMoreProduct_gives whole left behind isLeft valuesBehind).bind ?_
  rintro ⟨product, rest, _⟩ isProduct valuesRest
  exact Gives.ok isProduct valuesRest
termination_by 8 * tokens.length + 2
decreasing_by
  all_goals omega

theorem parseMoreProduct_gives (whole : Span) (left : Arithmetic) (tokens : List Token)
    (isLeft : left.Throughout holds) (values : ValuesHave holds tokens) :
    GivesCalculation holds (parseMoreProduct whole left tokens) := by
  match tokens, values with
  | [], values =>
    rw [parseMoreProduct]
    exact Gives.ok isLeft values
  | token :: behind, values =>
    rw [parseMoreProduct]
    split
    · exact Gives.ok isLeft values
    · next operator _ =>
      refine (parseSigned_gives whole behind values.tail).bind ?_
      rintro ⟨right, after, shorter⟩ isRight valuesAfter
      have isBoth : (Arithmetic.binary operator left right).Throughout holds := ⟨isLeft, isRight⟩
      refine (parseMoreProduct_gives whole _ after isBoth valuesAfter).bind ?_
      rintro ⟨product, rest, _⟩ isProduct valuesRest
      exact Gives.ok isProduct valuesRest
termination_by 8 * tokens.length + 1
decreasing_by
  all_goals simp only [List.length_cons]
  all_goals omega

theorem parseSigned_gives (whole : Span) (tokens : List Token) (values : ValuesHave holds tokens) :
    GivesCalculation holds (parseSigned whole tokens) := by
  match tokens, values with
  | [], values =>
    rw [parseSigned]
    exact parseOperand_gives whole [] values
  | token :: behind, values =>
    rw [parseSigned]
    split
    · refine (parseSigned_gives whole behind values.tail).bind ?_
      rintro ⟨inner, rest, _⟩ isInner valuesRest
      exact Gives.ok isInner valuesRest
    · refine (parseSigned_gives whole behind values.tail).bind ?_
      rintro ⟨inner, rest, _⟩ isInner valuesRest
      exact Gives.ok isInner valuesRest
    · exact parseOperand_gives whole (token :: behind) values
termination_by 8 * tokens.length + 1
decreasing_by
  all_goals simp only [List.length_cons, List.length_nil]
  all_goals omega

theorem parseOperand_gives (whole : Span) (tokens : List Token) (values : ValuesHave holds tokens) :
    GivesCalculation holds (parseOperand whole tokens) := by
  unfold parseOperand
  split
  · exact Gives.error _
  · exact Gives.ok trivial values.tail
  · next code span rest => exact Gives.ok (values _ List.mem_cons_self code rfl) values.tail
  · next span behind =>
    refine (parseSum_gives whole behind values.tail).bind ?_
    rintro ⟨inner, after, shorter⟩ isInner valuesAfter
    refine (expectSymbol_gives whole .closeParenthesis valuesAfter).bind ?_
    rintro ⟨_, rest, _⟩ _ valuesRest
    exact Gives.ok isInner valuesRest
  · next name span behind =>
    split
    · exact Gives.error _
    · next function _ =>
      refine (expectSymbol_gives whole .openParenthesis values.tail).bind ?_
      rintro ⟨_, after, shorter⟩ _ valuesAfter
      refine (parseOperands_gives whole after valuesAfter).bind ?_
      rintro ⟨arguments, rest, _⟩ areArguments valuesRest
      dsimp only
      split
      · exact Gives.ok areArguments valuesRest
      · exact Gives.error _
  · exact Gives.error _
termination_by 8 * tokens.length
decreasing_by
  all_goals subst_vars
  all_goals simp only [List.length_cons]
  all_goals omega

theorem parseOperands_gives (whole : Span) (tokens : List Token) (values : ValuesHave holds tokens) :
    Gives holds (Arithmetic.ThroughoutAll holds) (parseOperands whole tokens) := by
  unfold parseOperands
  split
  · exact Gives.ok trivial values.tail
  · exact parseFurtherOperands_gives whole tokens values
termination_by 8 * tokens.length + 5

theorem parseFurtherOperands_gives (whole : Span) (tokens : List Token)
    (values : ValuesHave holds tokens) :
    Gives holds (Arithmetic.ThroughoutAll holds) (parseFurtherOperands whole tokens) := by
  rw [parseFurtherOperands]
  refine (parseSum_gives whole tokens values).bind ?_
  rintro ⟨argument, after, shorter⟩ isArgument valuesAfter
  dsimp only at valuesAfter ⊢
  split
  · next span behind =>
    refine (parseFurtherOperands_gives whole behind valuesAfter.tail).bind ?_
    rintro ⟨more, rest, _⟩ areMore valuesRest
    exact Gives.ok ⟨isArgument, areMore⟩ valuesRest
  · refine (expectSymbol_gives whole .closeParenthesis valuesAfter).bind ?_
    rintro ⟨_, rest, _⟩ _ valuesRest
    exact Gives.ok ⟨isArgument, trivial⟩ valuesRest
termination_by 8 * tokens.length + 4
decreasing_by
  all_goals first | omega | (simp only [List.length_cons] at shorter; omega)

end

/-- What holds throughout all values holds throughout a calculation with them. -/
theorem throughout_of_parseCalculation {whole : Span} {calculation : Arithmetic}
    (values : ValuesHave holds tokens) (read : parseCalculation whole tokens = .ok calculation) :
    calculation.Throughout holds := by
  unfold parseCalculation at read
  split at read
  · cases read
  · have gives := parseSum_gives whole tokens values
    cases sum : parseSum whole tokens with
    | error malformed =>
        rw [sum] at read
        cases read
    | ok parsed =>
        rw [sum] at read
        rcases parsed with ⟨found, rest, shorter⟩
        have held := (gives _ sum).1
        cases rest with
        | nil =>
            cases read
            exact held
        | cons token more => cases read

/-! ## Conditions -/

/-- A property holds of every constant. -/
abbrev ConstantsHave (holds : Code → Prop) : Prop :=
  ∀ value, holds (.constant value)

theorem parseConditionOperand_gives (constants : ConstantsHave holds) (whole : Span)
    (values : ValuesHave holds tokens) :
    Gives holds (Code.Throughout holds) (parseConditionOperand whole tokens) := by
  unfold parseConditionOperand
  split
  · exact Gives.error _
  · next code span rest => exact Gives.ok (values _ List.mem_cons_self code rfl) values.tail
  · exact Gives.ok (constants _) values.tail
  · exact Gives.ok (constants _) values.tail
  · split
    · exact Gives.error _
    · exact Gives.ok (constants _) values.tail.tail
    · exact Gives.error _
  · split
    · exact Gives.ok (constants _) values.tail
    · exact Gives.error _
  · exact Gives.error _

/-- What is read as a condition is one throughout which the property holds. -/
abbrev GivesTest (holds : Code → Prop) {tokens : List Token} :
    Except Malformed (Parsed Test tokens) → Prop :=
  Gives holds (Test.Throughout holds)

theorem parseComparison_gives (constants : ConstantsHave holds) (whole : Span)
    (values : ValuesHave holds tokens) :
    GivesTest holds (parseComparison whole tokens) := by
  rw [parseComparison]
  refine (parseConditionOperand_gives constants whole values).bind ?_
  rintro ⟨left, behind, shorter⟩ isLeft valuesBehind
  dsimp only at valuesBehind ⊢
  split
  · exact Gives.ok isLeft valuesBehind
  · next token after =>
    split
    · exact Gives.ok isLeft valuesBehind
    · refine (parseConditionOperand_gives constants whole valuesBehind.tail).bind ?_
      rintro ⟨right, rest, _⟩ isRight valuesRest
      exact Gives.ok ⟨isLeft, isRight⟩ valuesRest

mutual

theorem parseAlternatives_gives (constants : ConstantsHave holds) (whole : Span) (tokens : List Token)
    (values : ValuesHave holds tokens) :
    GivesTest holds (parseAlternatives whole tokens) := by
  rw [parseAlternatives]
  refine (parseConjunction_gives constants whole tokens values).bind ?_
  rintro ⟨left, behind, shorter⟩ isLeft valuesBehind
  refine (parseMoreAlternatives_gives constants whole left behind isLeft valuesBehind).bind ?_
  rintro ⟨test, rest, _⟩ isTest valuesRest
  exact Gives.ok isTest valuesRest
termination_by 8 * tokens.length + 3
decreasing_by
  all_goals omega

theorem parseMoreAlternatives_gives (constants : ConstantsHave holds) (whole : Span) (left : Test)
    (tokens : List Token) (isLeft : left.Throughout holds) (values : ValuesHave holds tokens) :
    GivesTest holds (parseMoreAlternatives whole left tokens) := by
  match tokens, values with
  | [], values =>
    rw [parseMoreAlternatives]
    exact Gives.ok isLeft values
  | token :: behind, values =>
    rw [parseMoreAlternatives]
    split
    · refine (parseConjunction_gives constants whole behind values.tail).bind ?_
      rintro ⟨right, after, shorter⟩ isRight valuesAfter
      have isBoth : (Test.or left right).Throughout holds := ⟨isLeft, isRight⟩
      refine (parseMoreAlternatives_gives constants whole _ after isBoth valuesAfter).bind ?_
      rintro ⟨test, rest, _⟩ isTest valuesRest
      exact Gives.ok isTest valuesRest
    · exact Gives.ok isLeft values
termination_by 8 * tokens.length + 1
decreasing_by
  all_goals simp only [List.length_cons]
  all_goals omega

theorem parseConjunction_gives (constants : ConstantsHave holds) (whole : Span) (tokens : List Token)
    (values : ValuesHave holds tokens) :
    GivesTest holds (parseConjunction whole tokens) := by
  rw [parseConjunction]
  refine (parseNegation_gives constants whole tokens values).bind ?_
  rintro ⟨left, behind, shorter⟩ isLeft valuesBehind
  refine (parseMoreConjunction_gives constants whole left behind isLeft valuesBehind).bind ?_
  rintro ⟨test, rest, _⟩ isTest valuesRest
  exact Gives.ok isTest valuesRest
termination_by 8 * tokens.length + 2
decreasing_by
  all_goals omega

theorem parseMoreConjunction_gives (constants : ConstantsHave holds) (whole : Span) (left : Test)
    (tokens : List Token) (isLeft : left.Throughout holds) (values : ValuesHave holds tokens) :
    GivesTest holds (parseMoreConjunction whole left tokens) := by
  match tokens, values with
  | [], values =>
    rw [parseMoreConjunction]
    exact Gives.ok isLeft values
  | token :: behind, values =>
    rw [parseMoreConjunction]
    split
    · refine (parseNegation_gives constants whole behind values.tail).bind ?_
      rintro ⟨right, after, shorter⟩ isRight valuesAfter
      have isBoth : (Test.and left right).Throughout holds := ⟨isLeft, isRight⟩
      refine (parseMoreConjunction_gives constants whole _ after isBoth valuesAfter).bind ?_
      rintro ⟨test, rest, _⟩ isTest valuesRest
      exact Gives.ok isTest valuesRest
    · exact Gives.ok isLeft values
termination_by 8 * tokens.length + 1
decreasing_by
  all_goals simp only [List.length_cons]
  all_goals omega

theorem parseNegation_gives (constants : ConstantsHave holds) (whole : Span) (tokens : List Token)
    (values : ValuesHave holds tokens) :
    GivesTest holds (parseNegation whole tokens) := by
  match tokens, values with
  | [], values =>
    rw [parseNegation]
    exact parseComparison_gives constants whole values
  | token :: behind, values =>
    rw [parseNegation]
    split
    · refine (parseNegation_gives constants whole behind values.tail).bind ?_
      rintro ⟨inner, rest, _⟩ isInner valuesRest
      exact Gives.ok isInner valuesRest
    · split
      · refine (parseAlternatives_gives constants whole behind values.tail).bind ?_
        rintro ⟨inner, after, shorter⟩ isInner valuesAfter
        refine (expectSymbol_gives whole .closeParenthesis valuesAfter).bind ?_
        rintro ⟨_, rest, _⟩ _ valuesRest
        exact Gives.ok isInner valuesRest
      · exact parseComparison_gives constants whole values
termination_by 8 * tokens.length + 1
decreasing_by
  all_goals simp only [List.length_cons]
  all_goals omega

end

/-- What holds throughout all values and of constants holds throughout a condition with them. -/
theorem throughout_of_parseCondition (constants : ConstantsHave holds) {whole : Span} {test : Test}
    (values : ValuesHave holds tokens) (read : parseCondition whole tokens = .ok test) :
    test.Throughout holds := by
  unfold parseCondition at read
  split at read
  · cases read
  · have gives := parseAlternatives_gives constants whole tokens values
    cases alternatives : parseAlternatives whole tokens with
    | error malformed =>
        rw [alternatives] at read
        cases read
    | ok parsed =>
        rw [alternatives] at read
        rcases parsed with ⟨found, rest, shorter⟩
        have held := (gives _ alternatives).1
        cases rest with
        | nil =>
            cases read
            exact held
        | cons token more => cases read

end Expression
end TemplateCascade

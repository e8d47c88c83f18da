import Mathlib
import TemplateCascade.Expression.Condition
import TemplateCascade.Proofs.Expression.Readings

namespace TemplateCascade
namespace Expression

/-!
# How conditions are written

The grammar of conditions: alternatives of conjunctions of negations and comparisons, the operators of one
level associating to the left.  A negation applies to the whole comparison behind it, and parentheses stand
around conditions only, never around the operands of a comparison.

The functions that read conditions implement the grammar.  What they read is derivable, and they read
whatever is derivable; so no tokens stand for two conditions.
-/

open Text (Span)

/-! ## The grammar -/

/-- What can stand between alternatives. -/
inductive JoinsAlternatives : Item → Prop where
  | bars : JoinsAlternatives (.symbol .bothBars)
  | word {name : String} (spelled : Text.lowerAscii name = "or") : JoinsAlternatives (.word name)

/-- What can stand between the parts of a conjunction. -/
inductive JoinsConjunction : Item → Prop where
  | ampersands : JoinsConjunction (.symbol .bothAmpersands)
  | word {name : String} (spelled : Text.lowerAscii name = "and") : JoinsConjunction (.word name)

/-- What can stand in front of what is negated. -/
inductive Negates : Item → Prop where
  | mark : Negates (.symbol .exclamation)
  | word {name : String} (spelled : Text.lowerAscii name = "not") : Negates (.word name)

/-- The symbols of comparisons. -/
inductive Compares : Symbol → ComparisonOperator → Prop where
  | equal : Compares .equal .equal
  | unequal : Compares .unequal .unequal
  | less : Compares .less .less
  | atMost : Compares .atMost .atMost
  | greater : Compares .greater .greater
  | atLeast : Compares .atLeast .atLeast

/-- The words with a value, in lower case. -/
inductive Denotes : String → Value → Prop where
  | true : Denotes "true" (.bool true)
  | false : Denotes "false" (.bool false)
  | null : Denotes "null" .null

/-- The items that an operand of a comparison is written with. -/
inductive IsCompared : List Item → Code → Prop where
  | value (code : Code) : IsCompared [.value code] code
  | number (amount : Float) : IsCompared [.number amount] (.constant (.number amount))
  | negative (amount : Float) :
      IsCompared [.symbol .minus, .number amount] (.constant (.number (-amount)))
  | string (content : String) : IsCompared [.string content] (.constant (.string content))
  | word {name : String} {value : Value} (denotes : Denotes (Text.lowerAscii name) value) :
      IsCompared [.word name] (.constant value)

/-- The items that a comparison is written with, or an operand by itself. -/
inductive IsComparison : List Item → Test → Prop where
  | truthy {items : List Item} {code : Code} (operand : IsCompared items code) :
      IsComparison items (.truthy code)
  | compare {left right : List Item} {mark : Symbol} {operator : ComparisonOperator}
      {first second : Code} (front : IsCompared left first) (compares : Compares mark operator)
      (behind : IsCompared right second) :
      IsComparison (left ++ .symbol mark :: right) (.compare operator first second)

mutual

/-- The items that alternatives are written with. -/
inductive IsAlternatives : List Item → Test → Prop where
  | or {left right : List Item} {joint : Item} {first second : Test} (front : IsAlternatives left first)
      (joins : JoinsAlternatives joint) (behind : IsConjunction right second) :
      IsAlternatives (left ++ joint :: right) (.or first second)
  | conjunction {items : List Item} {test : Test} (single : IsConjunction items test) :
      IsAlternatives items test

/-- The items that a conjunction is written with. -/
inductive IsConjunction : List Item → Test → Prop where
  | and {left right : List Item} {joint : Item} {first second : Test} (front : IsConjunction left first)
      (joins : JoinsConjunction joint) (behind : IsNegation right second) :
      IsConjunction (left ++ joint :: right) (.and first second)
  | negation {items : List Item} {test : Test} (single : IsNegation items test) :
      IsConjunction items test

/-- The items that a negation is written with, a condition in parentheses or a comparison. -/
inductive IsNegation : List Item → Test → Prop where
  | not {mark : Item} {items : List Item} {inner : Test} (negates : Negates mark)
      (negated : IsNegation items inner) : IsNegation (mark :: items) (.not inner)
  | parentheses {items : List Item} {test : Test} (inner : IsAlternatives items test) :
      IsNegation (.symbol .openParenthesis :: (items ++ [.symbol .closeParenthesis])) test
  | comparison {items : List Item} {test : Test} (single : IsComparison items test) :
      IsNegation items test

end

/-! ## Nothing is no condition -/

theorem IsCompared.ne_nil {items : List Item} {code : Code} (written : IsCompared items code) :
    items ≠ [] := by
  cases written <;> exact List.cons_ne_nil _ _

theorem IsComparison.ne_nil {items : List Item} {test : Test} : IsComparison items test → items ≠ []
  | .truthy operand => operand.ne_nil
  | .compare _ _ _ => List.append_ne_nil_of_right_ne_nil _ (List.cons_ne_nil _ _)

theorem IsNegation.ne_nil {items : List Item} {test : Test} : IsNegation items test → items ≠ []
  | .not _ _ => List.cons_ne_nil _ _
  | .parentheses _ => List.cons_ne_nil _ _
  | .comparison single => single.ne_nil

theorem IsConjunction.ne_nil {items : List Item} {test : Test} : IsConjunction items test → items ≠ []
  | .and _ _ _ => List.append_ne_nil_of_right_ne_nil _ (List.cons_ne_nil _ _)
  | .negation single => single.ne_nil

theorem IsAlternatives.ne_nil {items : List Item} {test : Test} : IsAlternatives items test → items ≠ []
  | .or _ _ _ => List.append_ne_nil_of_right_ne_nil _ (List.cons_ne_nil _ _)
  | .conjunction single => single.ne_nil

/-! ## What the functions ask of a token -/

theorem Item.joinsAlternatives_iff {item : Item} :
    item.joinsAlternatives = true ↔ JoinsAlternatives item := by
  constructor
  · intro joins
    cases item with
    | symbol mark =>
        have isBars : mark = .bothBars := of_decide_eq_true joins
        subst isBars
        exact .bars
    | word name => exact .word (of_decide_eq_true joins)
    | _ => cases joins
  · rintro (_ | spelled)
    · rfl
    · exact decide_eq_true spelled

theorem Item.joinsConjunction_iff {item : Item} :
    item.joinsConjunction = true ↔ JoinsConjunction item := by
  constructor
  · intro joins
    cases item with
    | symbol mark =>
        have isAmpersands : mark = .bothAmpersands := of_decide_eq_true joins
        subst isAmpersands
        exact .ampersands
    | word name => exact .word (of_decide_eq_true joins)
    | _ => cases joins
  · rintro (_ | spelled)
    · rfl
    · exact decide_eq_true spelled

theorem Item.negates_iff {item : Item} : item.negates = true ↔ Negates item := by
  constructor
  · intro negates
    cases item with
    | symbol mark =>
        have isMark : mark = .exclamation := of_decide_eq_true negates
        subst isMark
        exact .mark
    | word name => exact .word (of_decide_eq_true negates)
    | _ => cases negates
  · rintro (_ | spelled)
    · rfl
    · exact decide_eq_true spelled

theorem comparison?_eq_some_iff {mark : Symbol} {operator : ComparisonOperator} :
    comparison? mark = some operator ↔ Compares mark operator := by
  constructor
  · intro known
    cases mark <;> cases known <;> constructor
  · rintro (_ | _) <;> rfl

theorem wordValue?_eq_some_iff {name : String} {value : Value} :
    wordValue? name = some value ↔ Denotes (Text.lowerAscii name) value := by
  unfold wordValue?
  constructor
  · intro known
    split at known
    case h_4 => cases known
    all_goals
      next spelled =>
        cases known
        rw [spelled]
        constructor
  · intro denotes
    generalize Text.lowerAscii name = lower at denotes
    cases denotes <;> rfl

/-- A comparison does not go on with these tokens. -/
def EndsComparison (tokens : List Token) : Prop :=
  (leadingSymbol? tokens).bind comparison? = none

/-- A conjunction does not go on with these tokens. -/
structure EndsConjunction (tokens : List Token) : Prop where
  comparison : EndsComparison tokens
  joint : ∀ token ∈ tokens.head?, ¬ JoinsConjunction token.item

/-- Alternatives do not go on with these tokens. -/
structure EndsAlternatives (tokens : List Token) : Prop where
  conjunction : EndsConjunction tokens
  joint : ∀ token ∈ tokens.head?, ¬ JoinsAlternatives token.item

theorem endsAlternatives_nil : EndsAlternatives [] :=
  ⟨⟨rfl, nofun⟩, nofun⟩

theorem endsAlternatives_close (span : Span) (rest : List Token) :
    EndsAlternatives (⟨.symbol .closeParenthesis, span⟩ :: rest) := by
  refine ⟨⟨rfl, ?_⟩, ?_⟩
  · rintro _ ⟨⟩ ⟨⟩
  · rintro _ ⟨⟩ ⟨⟩

theorem JoinsAlternatives.endsConjunction {token : Token} (joins : JoinsAlternatives token.item)
    (rest : List Token) : EndsConjunction (token :: rest) := by
  rcases token with ⟨item, span⟩
  cases joins with
  | bars =>
      refine ⟨rfl, ?_⟩
      rintro _ ⟨⟩ ⟨⟩
  | word spelled =>
      refine ⟨rfl, ?_⟩
      rintro _ ⟨⟩ (_ | isAnd)
      rw [spelled] at isAnd
      exact absurd isAnd (by decide)

theorem JoinsConjunction.endsComparison {token : Token} (joins : JoinsConjunction token.item)
    (rest : List Token) : EndsComparison (token :: rest) := by
  rcases token with ⟨item, span⟩
  cases joins <;> rfl

/-! ## What the functions read -/

variable {whole : Span} {tokens rest : List Token} {left test : Test}

/-- An operand is read exactly when it is there. -/
theorem reads_parseConditionOperand_iff {code : Code} :
    Reads (parseConditionOperand whole tokens) code rest ↔ Takes IsCompared tokens code rest := by
  constructor
  · intro reads
    unfold parseConditionOperand at reads
    split at reads
    · exact absurd reads not_reads_error
    · next span behind =>
      rcases reads_ok_iff.mp reads with ⟨rfl, rfl⟩
      exact ⟨[_], rfl, .value _⟩
    · next amount span behind =>
      rcases reads_ok_iff.mp reads with ⟨rfl, rfl⟩
      exact ⟨[_], rfl, .number amount⟩
    · next content span behind =>
      rcases reads_ok_iff.mp reads with ⟨rfl, rfl⟩
      exact ⟨[_], rfl, .string content⟩
    · next span behind =>
      split at reads
      · exact absurd reads not_reads_error
      · next amount numberSpan others =>
        rcases reads_ok_iff.mp reads with ⟨rfl, rfl⟩
        exact ⟨[_, _], rfl, .negative amount⟩
      · exact absurd reads not_reads_error
    · next name span behind =>
      split at reads
      · next value known =>
        rcases reads_ok_iff.mp reads with ⟨rfl, rfl⟩
        exact ⟨[_], rfl, .word (wordValue?_eq_some_iff.mp known)⟩
      · exact absurd reads not_reads_error
    · exact absurd reads not_reads_error
  · rintro ⟨front, rfl, written⟩
    generalize same : front.map Token.item = items at written
    cases written with
    | negative amount =>
        rcases exists_cons same with ⟨span, behind, rfl, others⟩
        rcases exists_single others with ⟨numberSpan, rfl⟩
        exact ⟨_, rfl⟩
    | word denotes =>
        rcases exists_single same with ⟨span, rfl⟩
        rw [List.singleton_append, parseConditionOperand]
        simp only [wordValue?_eq_some_iff.mpr denotes]
        exact ⟨_, rfl⟩
    | _ =>
        rcases exists_single same with ⟨span, rfl⟩
        exact ⟨_, rfl⟩

/-- A comparison ends behind its first operand where no symbol of a comparison follows. -/
theorem reads_parseComparison_iff :
    Reads (parseComparison whole tokens) test rest ↔
      ∃ first behind, Reads (parseConditionOperand whole tokens) first behind ∧
        (EndsComparison behind ∧ .truthy first = test ∧ behind = rest ∨
          ∃ mark operator span after second, behind = ⟨.symbol mark, span⟩ :: after ∧
            Compares mark operator ∧ Reads (parseConditionOperand whole after) second rest ∧
            .compare operator first second = test) := by
  rw [parseComparison, reads_bind_iff]
  refine exists_congr fun first => exists_congr fun behind => and_congr_right fun isFirst => ?_
  rw [exists_prop_of_true isFirst.length_le]
  cases behind with
  | nil =>
      dsimp only
      rw [reads_ok_iff]
      constructor
      · rintro ⟨rfl, rfl⟩
        exact .inl ⟨rfl, rfl, rfl⟩
      · rintro (⟨_, rfl, rfl⟩ | ⟨_, _, _, _, _, impossible, _⟩)
        · exact ⟨rfl, rfl⟩
        · cases impossible
  | cons token after =>
      dsimp only
      cases joint : (leadingSymbol? (token :: after)).bind comparison? with
      | none =>
          rw [reads_ok_iff]
          constructor
          · rintro ⟨rfl, rfl⟩
            exact .inl ⟨joint, rfl, rfl⟩
          · rintro (⟨_, rfl, rfl⟩ | ⟨mark, operator, span, _, _, same, compares, _⟩)
            · exact ⟨rfl, rfl⟩
            · rw [same, leadingSymbol?, Option.bind_some, comparison?_eq_some_iff.mpr compares] at joint
              cases joint
      | some operator =>
          rcases Option.bind_eq_some_iff.mp joint with ⟨mark, leading, known⟩
          rcases exists_of_leadingSymbol leading with ⟨span, others, same⟩
          rcases List.cons.inj same with ⟨rfl, rfl⟩
          refine (reads_rewritten_iff (Test.compare operator first) fun _ => ⟨_, rfl⟩).trans ?_
          constructor
          · rintro ⟨second, isSecond, rfl⟩
            exact .inr ⟨mark, operator, span, after, second, rfl, comparison?_eq_some_iff.mp known,
              isSecond, rfl⟩
          · rintro (⟨ends, _⟩ | ⟨_, other, _, _, second, again, compares, isSecond, rfl⟩)
            · rw [EndsComparison, joint] at ends
              cases ends
            · cases again
              rw [comparison?_eq_some_iff.mpr compares] at known
              cases known
              exact ⟨second, isSecond, rfl⟩

theorem reads_parseAlternatives_iff :
    Reads (parseAlternatives whole tokens) test rest ↔
      ∃ first behind, Reads (parseConjunction whole tokens) first behind ∧
        Reads (parseMoreAlternatives whole first behind) test rest := by
  rw [parseAlternatives]
  refine (reads_sequence_iff (parseMoreAlternatives whole) (fun _ alternatives => alternatives)
    fun _ _ _ => ⟨_, rfl, fun _ => ⟨_, rfl⟩⟩).trans ?_
  simp only [exists_eq_right]

theorem reads_parseConjunction_iff :
    Reads (parseConjunction whole tokens) test rest ↔
      ∃ first behind, Reads (parseNegation whole tokens) first behind ∧
        Reads (parseMoreConjunction whole first behind) test rest := by
  rw [parseConjunction]
  refine (reads_sequence_iff (parseMoreConjunction whole) (fun _ conjunction => conjunction)
    fun _ _ _ => ⟨_, rfl, fun _ => ⟨_, rfl⟩⟩).trans ?_
  simp only [exists_eq_right]

theorem parseMoreAlternatives_of_ends (ends : ∀ token ∈ tokens.head?, ¬ JoinsAlternatives token.item) :
    Reads (parseMoreAlternatives whole left tokens) test rest ↔ left = test ∧ tokens = rest := by
  cases tokens with
  | nil =>
      rw [parseMoreAlternatives]
      exact reads_ok_iff
  | cons token behind =>
      rw [parseMoreAlternatives, if_neg (mt Item.joinsAlternatives_iff.mp (ends token rfl))]
      exact reads_ok_iff

theorem parseMoreConjunction_of_ends (ends : ∀ token ∈ tokens.head?, ¬ JoinsConjunction token.item) :
    Reads (parseMoreConjunction whole left tokens) test rest ↔ left = test ∧ tokens = rest := by
  cases tokens with
  | nil =>
      rw [parseMoreConjunction]
      exact reads_ok_iff
  | cons token behind =>
      rw [parseMoreConjunction, if_neg (mt Item.joinsConjunction_iff.mp (ends token rfl))]
      exact reads_ok_iff

theorem parseMoreAlternatives_of_joins {token : Token} (joins : JoinsAlternatives token.item)
    (behind : List Token) :
    Reads (parseMoreAlternatives whole left (token :: behind)) test rest ↔
      ∃ right after, Reads (parseConjunction whole behind) right after ∧
        Reads (parseMoreAlternatives whole (.or left right) after) test rest := by
  rw [parseMoreAlternatives, if_pos (Item.joinsAlternatives_iff.mpr joins)]
  refine (reads_sequence_iff (fun right => parseMoreAlternatives whole (.or left right))
    (fun _ alternatives => alternatives) fun _ _ _ => ⟨_, rfl, fun _ => ⟨_, rfl⟩⟩).trans ?_
  simp only [exists_eq_right]

theorem parseMoreConjunction_of_joins {token : Token} (joins : JoinsConjunction token.item)
    (behind : List Token) :
    Reads (parseMoreConjunction whole left (token :: behind)) test rest ↔
      ∃ right after, Reads (parseNegation whole behind) right after ∧
        Reads (parseMoreConjunction whole (.and left right) after) test rest := by
  rw [parseMoreConjunction, if_pos (Item.joinsConjunction_iff.mpr joins)]
  refine (reads_sequence_iff (fun right => parseMoreConjunction whole (.and left right))
    (fun _ conjunction => conjunction) fun _ _ _ => ⟨_, rfl, fun _ => ⟨_, rfl⟩⟩).trans ?_
  simp only [exists_eq_right]

theorem reads_negated_iff {token : Token} (negates : Negates token.item) (behind : List Token) :
    Reads (parseNegation whole (token :: behind)) test rest ↔
      ∃ inner, Reads (parseNegation whole behind) inner rest ∧ .not inner = test := by
  rw [parseNegation, if_pos (Item.negates_iff.mpr negates)]
  exact reads_rewritten_iff Test.not fun _ => ⟨_, rfl⟩

theorem reads_enclosed_iff (span : Span) (behind : List Token) :
    Reads (parseNegation whole (⟨.symbol .openParenthesis, span⟩ :: behind)) test rest ↔
      ∃ close, Reads (parseAlternatives whole behind) test (⟨.symbol .closeParenthesis, close⟩ :: rest) := by
  have affirms : ¬ (Item.symbol .openParenthesis).negates = true := Bool.false_ne_true
  have opens : leadingSymbol? (⟨.symbol .openParenthesis, span⟩ :: behind) = some .openParenthesis := rfl
  rw [parseNegation, if_neg affirms, if_pos opens]
  refine (reads_sequence_iff (fun _ => expectSymbol whole .closeParenthesis) (fun inner _ => inner)
    fun _ _ _ => ⟨_, rfl, fun _ => ⟨_, rfl⟩⟩).trans ?_
  constructor
  · rintro ⟨inner, after, isInner, _, closes, rfl⟩
    rcases reads_expectSymbol_iff.mp closes with ⟨close, rfl⟩
    exact ⟨close, isInner⟩
  · rintro ⟨close, isInner⟩
    exact ⟨test, _, isInner, (), reads_expectSymbol_iff.mpr ⟨close, rfl⟩, rfl⟩

/-- A comparison begins with no mark of negation and no parenthesis. -/
theorem parseNegation_of_compared (affirms : ∀ token ∈ tokens.head?, ¬ Negates token.item)
    (bare : leadingSymbol? tokens ≠ some .openParenthesis) :
    parseNegation whole tokens = parseComparison whole tokens := by
  cases tokens with
  | nil => rw [parseNegation]
  | cons token behind =>
      rw [parseNegation, if_neg (mt Item.negates_iff.mp (affirms token rfl)), if_neg bare]

/-! ## Soundness -/

theorem takes_of_parseComparison (reads : Reads (parseComparison whole tokens) test rest) :
    Takes IsComparison tokens test rest := by
  rcases reads_parseComparison_iff.mp reads with ⟨first, behind, isFirst, others⟩
  rcases reads_parseConditionOperand_iff.mp isFirst with ⟨front, isFront, operand⟩
  rcases others with ⟨_, rfl, rfl⟩ | ⟨mark, operator, span, after, second, rfl, compares, isSecond, rfl⟩
  · exact ⟨front, isFront, .truthy operand⟩
  · rcases reads_parseConditionOperand_iff.mp isSecond with ⟨more, rfl, other⟩
    refine ⟨front ++ ⟨.symbol mark, span⟩ :: more, ?_, ?_⟩
    · rw [isFront, List.append_assoc, List.cons_append]
    · rw [List.map_append, List.map_cons]
      exact .compare operand compares other

/-
The theorems below recurse as the grammar does, each by the tokens that are left.
-/
mutual

theorem takes_of_parseAlternatives (tokens : List Token) {test : Test} {rest : List Token}
    (reads : Reads (parseAlternatives whole tokens) test rest) : Takes IsAlternatives tokens test rest := by
  rcases reads_parseAlternatives_iff.mp reads with ⟨first, behind, isFirst, more⟩
  have shorter := isFirst.length_le
  rcases takes_of_parseConjunction tokens isFirst with ⟨front, isFront, conjunction⟩
  exact Takes.prepend isFront (takes_of_parseMoreAlternatives behind (.conjunction conjunction) more)
termination_by 8 * tokens.length + 3

theorem takes_of_parseMoreAlternatives (tokens : List Token) {items : List Item} {left test : Test}
    {rest : List Token} (alternatives : IsAlternatives items left)
    (reads : Reads (parseMoreAlternatives whole left tokens) test rest) :
    Takes (fun more => IsAlternatives (items ++ more)) tokens test rest := by
  by_cases ends : ∀ token ∈ tokens.head?, ¬ JoinsAlternatives token.item
  · rcases (parseMoreAlternatives_of_ends ends).mp reads with ⟨rfl, rfl⟩
    exact ⟨[], rfl, by simpa using alternatives⟩
  · match tokens with
    | [] => exact absurd nofun ends
    | token :: behind =>
      have joins : JoinsAlternatives token.item := by simpa using ends
      rcases (parseMoreAlternatives_of_joins joins behind).mp reads with ⟨right, after, isRight, more⟩
      have shorter := isRight.length_le
      rcases takes_of_parseConjunction behind isRight with ⟨front, isFront, conjunction⟩
      have taken : token :: behind = token :: front ++ after := by rw [isFront, List.cons_append]
      have further := takes_of_parseMoreAlternatives after (.or alternatives joins conjunction) more
      simp only [List.append_assoc] at further
      exact Takes.prepend taken further
termination_by 8 * tokens.length + 1
decreasing_by
  all_goals simp only [List.length_cons]
  all_goals omega

theorem takes_of_parseConjunction (tokens : List Token) {test : Test} {rest : List Token}
    (reads : Reads (parseConjunction whole tokens) test rest) : Takes IsConjunction tokens test rest := by
  rcases reads_parseConjunction_iff.mp reads with ⟨first, behind, isFirst, more⟩
  have shorter := isFirst.length_le
  rcases takes_of_parseNegation tokens isFirst with ⟨front, isFront, negation⟩
  exact Takes.prepend isFront (takes_of_parseMoreConjunction behind (.negation negation) more)
termination_by 8 * tokens.length + 2

theorem takes_of_parseMoreConjunction (tokens : List Token) {items : List Item} {left test : Test}
    {rest : List Token} (conjunction : IsConjunction items left)
    (reads : Reads (parseMoreConjunction whole left tokens) test rest) :
    Takes (fun more => IsConjunction (items ++ more)) tokens test rest := by
  by_cases ends : ∀ token ∈ tokens.head?, ¬ JoinsConjunction token.item
  · rcases (parseMoreConjunction_of_ends ends).mp reads with ⟨rfl, rfl⟩
    exact ⟨[], rfl, by simpa using conjunction⟩
  · match tokens with
    | [] => exact absurd nofun ends
    | token :: behind =>
      have joins : JoinsConjunction token.item := by simpa using ends
      rcases (parseMoreConjunction_of_joins joins behind).mp reads with ⟨right, after, isRight, more⟩
      have shorter := isRight.length_le
      rcases takes_of_parseNegation behind isRight with ⟨front, isFront, negation⟩
      have taken : token :: behind = token :: front ++ after := by rw [isFront, List.cons_append]
      have further := takes_of_parseMoreConjunction after (.and conjunction joins negation) more
      simp only [List.append_assoc] at further
      exact Takes.prepend taken further
termination_by 8 * tokens.length + 1
decreasing_by
  all_goals simp only [List.length_cons]
  all_goals omega

theorem takes_of_parseNegation (tokens : List Token) {test : Test} {rest : List Token}
    (reads : Reads (parseNegation whole tokens) test rest) : Takes IsNegation tokens test rest := by
  by_cases affirms : ∀ token ∈ tokens.head?, ¬ Negates token.item
  · by_cases opens : leadingSymbol? tokens = some .openParenthesis
    · rcases exists_of_leadingSymbol opens with ⟨span, behind, isTokens⟩
      rw [isTokens] at reads
      rcases (reads_enclosed_iff span behind).mp reads with ⟨close, isInner⟩
      rcases takes_of_parseAlternatives behind isInner with ⟨front, isFront, alternatives⟩
      refine ⟨⟨.symbol .openParenthesis, span⟩ :: (front ++ [⟨.symbol .closeParenthesis, close⟩]), ?_, ?_⟩
      · rw [isTokens, isFront, List.cons_append, List.append_assoc, List.singleton_append]
      · rw [List.map_cons, List.map_append]
        exact .parentheses alternatives
    · rw [parseNegation_of_compared affirms opens] at reads
      rcases takes_of_parseComparison reads with ⟨front, isFront, comparison⟩
      exact ⟨front, isFront, .comparison comparison⟩
  · match tokens with
    | [] => exact absurd nofun affirms
    | token :: behind =>
      have negates : Negates token.item := by simpa using affirms
      rcases (reads_negated_iff negates behind).mp reads with ⟨inner, isInner, rfl⟩
      rcases takes_of_parseNegation behind isInner with ⟨front, isFront, negation⟩
      exact ⟨token :: front, by rw [isFront, List.cons_append], .not negates negation⟩
termination_by 8 * tokens.length + 1
decreasing_by
  · rw [isTokens, List.length_cons]
    omega
  · simp only [List.length_cons]
    omega

end

/-! ## Completeness -/

/-- A word with a value does not negate. -/
theorem Denotes.ne_not {name : String} {value : Value} (denotes : Denotes name value) : name ≠ "not" := by
  cases denotes <;> decide

/-- An operand begins with no mark of negation and no parenthesis. -/
theorem IsCompared.parseNegation_eq {items : List Item} {code : Code} (operand : IsCompared items code)
    (written : tokens.map Token.item = items) (rest : List Token) :
    parseNegation whole (tokens ++ rest) = parseComparison whole (tokens ++ rest) := by
  cases operand with
  | word denotes =>
      rcases exists_single written with ⟨span, rfl⟩
      refine parseNegation_of_compared ?_ nofun
      rintro _ ⟨⟩ (_ | isNot)
      exact denotes.ne_not isNot
  | _ =>
      rcases exists_cons written with ⟨span, behind, rfl, _⟩
      refine parseNegation_of_compared ?_ nofun
      rintro _ ⟨⟩ ⟨⟩

theorem IsComparison.reads {items : List Item} (comparison : IsComparison items test)
    (written : tokens.map Token.item = items) (ends : EndsComparison rest) :
    Reads (parseNegation whole (tokens ++ rest)) test rest := by
  cases comparison with
  | truthy operand =>
      rw [operand.parseNegation_eq written]
      refine reads_parseComparison_iff.mpr ⟨_, rest, ?_, .inl ⟨ends, rfl, rfl⟩⟩
      exact reads_parseConditionOperand_iff.mpr ⟨tokens, rfl, by rwa [written]⟩
  | compare front compares behind =>
      rcases exists_split written with ⟨left, ⟨_, span⟩, right, rfl, isLeft, rfl, isRight⟩
      rw [List.append_assoc, List.cons_append, front.parseNegation_eq isLeft]
      refine reads_parseComparison_iff.mpr
        ⟨_, _, ?_, .inr ⟨_, _, span, right ++ rest, _, rfl, compares, ?_, rfl⟩⟩
      · exact reads_parseConditionOperand_iff.mpr ⟨left, rfl, by rwa [isLeft]⟩
      · exact reads_parseConditionOperand_iff.mpr ⟨right, rfl, by rwa [isRight]⟩

mutual

/-- After the tokens of alternatives, reading goes on with the further ones. -/
theorem IsAlternatives.reads {items : List Item} {test : Test} :
    IsAlternatives items test → ∀ ⦃tokens rest last : List Token⦄ ⦃result : Test⦄,
      tokens.map Token.item = items → EndsConjunction rest →
      Reads (parseMoreAlternatives whole test rest) result last →
      Reads (parseAlternatives whole (tokens ++ rest)) result last
  | .or front joins behind => by
      intro tokens rest last result written ends more
      rcases exists_split written with ⟨left, token, right, rfl, isLeft, rfl, isRight⟩
      rw [List.append_assoc, List.cons_append]
      refine front.reads isLeft (joins.endsConjunction _) ?_
      refine (parseMoreAlternatives_of_joins joins _).mpr ⟨_, rest, ?_, more⟩
      exact behind.reads isRight ends.comparison ((parseMoreConjunction_of_ends ends.joint).mpr ⟨rfl, rfl⟩)
  | .conjunction single => by
      intro tokens rest last result written ends more
      refine reads_parseAlternatives_iff.mpr ⟨_, rest, ?_, more⟩
      exact single.reads written ends.comparison ((parseMoreConjunction_of_ends ends.joint).mpr ⟨rfl, rfl⟩)

/-- After the tokens of a conjunction, reading goes on with its further parts. -/
theorem IsConjunction.reads {items : List Item} {test : Test} :
    IsConjunction items test → ∀ ⦃tokens rest last : List Token⦄ ⦃result : Test⦄,
      tokens.map Token.item = items → EndsComparison rest →
      Reads (parseMoreConjunction whole test rest) result last →
      Reads (parseConjunction whole (tokens ++ rest)) result last
  | .and front joins behind => by
      intro tokens rest last result written ends more
      rcases exists_split written with ⟨left, token, right, rfl, isLeft, rfl, isRight⟩
      rw [List.append_assoc, List.cons_append]
      refine front.reads isLeft (joins.endsComparison _) ?_
      exact (parseMoreConjunction_of_joins joins _).mpr ⟨_, rest, behind.reads isRight ends, more⟩
  | .negation single => by
      intro tokens rest last result written ends more
      exact reads_parseConjunction_iff.mpr ⟨_, rest, single.reads written ends, more⟩

theorem IsNegation.reads {items : List Item} {test : Test} :
    IsNegation items test → ∀ ⦃tokens rest : List Token⦄, tokens.map Token.item = items →
      EndsComparison rest → Reads (parseNegation whole (tokens ++ rest)) test rest
  | .not negates negated => by
      intro tokens rest written ends
      rcases List.map_eq_cons_iff.mp written with ⟨token, behind, rfl, rfl, isBehind⟩
      exact (reads_negated_iff negates _).mpr ⟨_, negated.reads isBehind ends, rfl⟩
  | .parentheses inner => by
      intro tokens rest written _
      rcases exists_cons written with ⟨span, others, rfl, inside⟩
      rcases exists_concat inside with ⟨front, close, rfl, isInner⟩
      rw [List.cons_append, List.append_assoc, List.singleton_append]
      have stops := endsAlternatives_close close rest
      refine (reads_enclosed_iff span _).mpr ⟨close, ?_⟩
      exact inner.reads isInner stops.conjunction ((parseMoreAlternatives_of_ends stops.joint).mpr ⟨rfl, rfl⟩)
  | .comparison single => by
      intro tokens rest written ends
      exact single.reads written ends

end

/-! ## Whole conditions -/

/-- Reading a whole condition gives the test that its tokens are derived with, and no other. -/
theorem parseCondition_eq_ok_iff (whole : Span) (tokens : List Token) (test : Test) :
    parseCondition whole tokens = .ok test ↔ IsAlternatives (tokens.map Token.item) test := by
  cases tokens with
  | nil => exact iff_of_false nofun fun written => written.ne_nil rfl
  | cons token others =>
      rw [parseCondition]
      · rw [bind_eq_ok_iff_reads_nil]
        · constructor
          · intro reads
            rcases takes_of_parseAlternatives _ reads with ⟨front, isFront, written⟩
            rwa [isFront, List.append_nil]
          · intro written
            have stops := endsAlternatives_nil
            have reads : Reads (parseAlternatives whole (token :: others ++ [])) test [] :=
              written.reads rfl stops.conjunction ((parseMoreAlternatives_of_ends stops.joint).mpr ⟨rfl, rfl⟩)
            rwa [List.append_nil] at reads
        · rintro ⟨found, _ | ⟨next, behind⟩, shorter⟩
          · simp
          · simp
      · exact List.cons_ne_nil token others

/-- No items stand for two conditions. -/
theorem IsAlternatives.unique {items : List Item} {first second : Test}
    (written : IsAlternatives items first) (again : IsAlternatives items second) : first = second := by
  rw [← map_item_default items, ← parseCondition_eq_ok_iff default] at written again
  exact Except.ok.inj (written.symm.trans again)

end Expression
end TemplateCascade

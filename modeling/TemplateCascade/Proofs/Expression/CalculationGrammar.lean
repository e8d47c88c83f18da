import Mathlib
import TemplateCascade.Proofs.Expression.Readings

namespace TemplateCascade
namespace Expression

/-!
# How calculations are written

The grammar of calculations: sums of products of signed operands, the operators of one level associating to
the left.  A derivation says both which tokens a calculation is written with and which tree they stand for.

The functions that read calculations implement the grammar.  What they read is derivable, and they read
whatever is derivable; so no tokens stand for two calculations.
-/

open Text (Span)

/-! ## The grammar -/

/-- The symbols between the terms of a sum. -/
inductive JoinsTerms : Symbol → ArithmeticOperator → Prop where
  | plus : JoinsTerms .plus .add
  | minus : JoinsTerms .minus .subtract

/-- The symbols between the factors of a product. -/
inductive JoinsFactors : Symbol → ArithmeticOperator → Prop where
  | star : JoinsFactors .star .multiply
  | slash : JoinsFactors .slash .divide
  | percent : JoinsFactors .percent .remainder

mutual

/-- The items that a sum is written with. -/
inductive IsSum : List Item → Arithmetic → Prop where
  | more {left right : List Item} {mark : Symbol} {operator : ArithmeticOperator}
      {first second : Arithmetic} (front : IsSum left first) (joins : JoinsTerms mark operator)
      (behind : IsProduct right second) :
      IsSum (left ++ .symbol mark :: right) (.binary operator first second)
  | product {items : List Item} {tree : Arithmetic} (single : IsProduct items tree) : IsSum items tree

/-- The items that a product is written with. -/
inductive IsProduct : List Item → Arithmetic → Prop where
  | more {left right : List Item} {mark : Symbol} {operator : ArithmeticOperator}
      {first second : Arithmetic} (front : IsProduct left first) (joins : JoinsFactors mark operator)
      (behind : IsSigned right second) :
      IsProduct (left ++ .symbol mark :: right) (.binary operator first second)
  | signed {items : List Item} {tree : Arithmetic} (single : IsSigned items tree) : IsProduct items tree

/-- The items that an operand with its signs is written with; a plus sign leaves no trace. -/
inductive IsSigned : List Item → Arithmetic → Prop where
  | minus {items : List Item} {tree : Arithmetic} (inner : IsSigned items tree) :
      IsSigned (.symbol .minus :: items) (.negate tree)
  | plus {items : List Item} {tree : Arithmetic} (inner : IsSigned items tree) :
      IsSigned (.symbol .plus :: items) tree
  | operand {items : List Item} {tree : Arithmetic} (unsigned : IsOperand items tree) :
      IsSigned items tree

/-- The items that an operand is written with. -/
inductive IsOperand : List Item → Arithmetic → Prop where
  | number (amount : Float) : IsOperand [.number amount] (.number amount)
  | value (code : Code) : IsOperand [.value code] (.value code)
  | parentheses {items : List Item} {tree : Arithmetic} (inner : IsSum items tree) :
      IsOperand (.symbol .openParenthesis :: (items ++ [.symbol .closeParenthesis])) tree
  | call {name : String} {function : MathFunction} {items : List Item} {arguments : List Arithmetic}
      (named : Text.lowerAscii name = function.name) (given : AreArguments items arguments)
      (admitted : function.arity.admits arguments.length = true) :
      IsOperand (.word name :: .symbol .openParenthesis :: (items ++ [.symbol .closeParenthesis]))
        (.function function arguments)

/-- The items that the arguments of a function are written with; there is one at least. -/
inductive AreArguments : List Item → List Arithmetic → Prop where
  | last {items : List Item} {tree : Arithmetic} (argument : IsSum items tree) :
      AreArguments items [tree]
  | more {items others : List Item} {tree : Arithmetic} {arguments : List Arithmetic}
      (argument : IsSum items tree) (further : AreArguments others arguments) :
      AreArguments (items ++ .symbol .comma :: others) (tree :: arguments)

end

/-! ## How what is written begins -/

/-- Items that begin with none of the symbols behind an operand. -/
def Begins (items : List Item) : Prop :=
  ∃ first others, items = first :: others ∧ first ≠ .symbol .closeParenthesis

theorem Begins.append {items : List Item} (begins : Begins items) (others : List Item) :
    Begins (items ++ others) := by
  rcases begins with ⟨first, more, rfl, different⟩
  exact ⟨first, more ++ others, rfl, different⟩

mutual

theorem IsSum.begins {items : List Item} {tree : Arithmetic} : IsSum items tree → Begins items
  | .more front _ _ => front.begins.append _
  | .product single => single.begins

theorem IsProduct.begins {items : List Item} {tree : Arithmetic} : IsProduct items tree → Begins items
  | .more front _ _ => front.begins.append _
  | .signed single => single.begins

theorem IsSigned.begins {items : List Item} {tree : Arithmetic} : IsSigned items tree → Begins items
  | .minus _ => ⟨_, _, rfl, nofun⟩
  | .plus _ => ⟨_, _, rfl, nofun⟩
  | .operand unsigned => unsigned.begins

theorem IsOperand.begins {items : List Item} {tree : Arithmetic} : IsOperand items tree → Begins items
  | .number _ => ⟨_, _, rfl, nofun⟩
  | .value _ => ⟨_, _, rfl, nofun⟩
  | .parentheses _ => ⟨_, _, rfl, nofun⟩
  | .call _ _ _ => ⟨_, _, rfl, nofun⟩

end

theorem AreArguments.ne_nil {items : List Item} {arguments : List Arithmetic} :
    AreArguments items arguments → arguments ≠ []
  | .last _ => List.cons_ne_nil _ _
  | .more _ _ => List.cons_ne_nil _ _

theorem AreArguments.begins {items : List Item} {arguments : List Arithmetic} :
    AreArguments items arguments → Begins items
  | .last argument => argument.begins
  | .more argument _ => argument.begins.append _

/-- Nothing at all is no calculation. -/
theorem not_isSum_nil (tree : Arithmetic) : ¬ IsSum [] tree := by
  intro written
  rcases written.begins with ⟨_, _, impossible, _⟩
  cases impossible

/-! ## What the functions read -/

theorem sumOperator?_eq_some_iff {mark : Symbol} {operator : ArithmeticOperator} :
    sumOperator? mark = some operator ↔ JoinsTerms mark operator := by
  constructor
  · intro known
    cases mark <;> cases known <;> constructor
  · rintro (_ | _) <;> rfl

theorem productOperator?_eq_some_iff {mark : Symbol} {operator : ArithmeticOperator} :
    productOperator? mark = some operator ↔ JoinsFactors mark operator := by
  constructor
  · intro known
    cases mark <;> cases known <;> constructor
  · rintro (_ | _ | _) <;> rfl

theorem ofName?_eq_some_iff {name : String} {function : MathFunction} :
    MathFunction.ofName? name = some function ↔ Text.lowerAscii name = function.name := by
  constructor
  · intro known
    unfold MathFunction.ofName? at known
    split at known
    case h_8 => cases known
    all_goals
      cases known
      assumption
  · intro named
    unfold MathFunction.ofName?
    rw [named]
    cases function <;> rfl

variable {whole : Span} {tokens rest : List Token} {left tree : Arithmetic}

theorem reads_parseSum_iff :
    Reads (parseSum whole tokens) tree rest ↔
      ∃ first behind, Reads (parseProduct whole tokens) first behind ∧
        Reads (parseMoreSum whole first behind) tree rest := by
  rw [parseSum]
  refine (reads_sequence_iff (parseMoreSum whole) (fun _ sum => sum) fun _ _ _ =>
    ⟨_, rfl, fun _ => ⟨_, rfl⟩⟩).trans ?_
  simp only [exists_eq_right]

theorem reads_parseProduct_iff :
    Reads (parseProduct whole tokens) tree rest ↔
      ∃ first behind, Reads (parseSigned whole tokens) first behind ∧
        Reads (parseMoreProduct whole first behind) tree rest := by
  rw [parseProduct]
  refine (reads_sequence_iff (parseMoreProduct whole) (fun _ product => product) fun _ _ _ =>
    ⟨_, rfl, fun _ => ⟨_, rfl⟩⟩).trans ?_
  simp only [exists_eq_right]

/-- No operator of a sum comes first. -/
def EndsSum (tokens : List Token) : Prop :=
  (leadingSymbol? tokens).bind sumOperator? = none

/-- No operator of a product comes first. -/
def EndsProduct (tokens : List Token) : Prop :=
  (leadingSymbol? tokens).bind productOperator? = none

theorem parseMoreSum_of_ends (ends : EndsSum tokens) :
    Reads (parseMoreSum whole left tokens) tree rest ↔ left = tree ∧ tokens = rest := by
  cases tokens with
  | nil =>
      rw [parseMoreSum]
      exact reads_ok_iff
  | cons token behind =>
      rw [EndsSum] at ends
      rw [parseMoreSum, ends]
      exact reads_ok_iff

theorem reads_parseMoreSum_of_ends (ends : EndsSum tokens) :
    Reads (parseMoreSum whole left tokens) left tokens :=
  (parseMoreSum_of_ends ends).mpr ⟨rfl, rfl⟩

theorem parseMoreProduct_of_ends (ends : EndsProduct tokens) :
    Reads (parseMoreProduct whole left tokens) tree rest ↔ left = tree ∧ tokens = rest := by
  cases tokens with
  | nil =>
      rw [parseMoreProduct]
      exact reads_ok_iff
  | cons token behind =>
      rw [EndsProduct] at ends
      rw [parseMoreProduct, ends]
      exact reads_ok_iff

theorem reads_parseMoreProduct_of_ends (ends : EndsProduct tokens) :
    Reads (parseMoreProduct whole left tokens) left tokens :=
  (parseMoreProduct_of_ends ends).mpr ⟨rfl, rfl⟩

theorem parseMoreSum_of_joins {mark : Symbol} {operator : ArithmeticOperator}
    (joins : JoinsTerms mark operator) (span : Span) (behind : List Token) :
    Reads (parseMoreSum whole left (⟨.symbol mark, span⟩ :: behind)) tree rest ↔
      ∃ right after, Reads (parseProduct whole behind) right after ∧
        Reads (parseMoreSum whole (.binary operator left right) after) tree rest := by
  have known : (leadingSymbol? (⟨.symbol mark, span⟩ :: behind)).bind sumOperator? = some operator :=
    sumOperator?_eq_some_iff.mpr joins
  rw [parseMoreSum, known]
  refine (reads_sequence_iff (fun right => parseMoreSum whole (.binary operator left right))
    (fun _ sum => sum) fun _ _ _ => ⟨_, rfl, fun _ => ⟨_, rfl⟩⟩).trans ?_
  simp only [exists_eq_right]

theorem parseMoreProduct_of_joins {mark : Symbol} {operator : ArithmeticOperator}
    (joins : JoinsFactors mark operator) (span : Span) (behind : List Token) :
    Reads (parseMoreProduct whole left (⟨.symbol mark, span⟩ :: behind)) tree rest ↔
      ∃ right after, Reads (parseSigned whole behind) right after ∧
        Reads (parseMoreProduct whole (.binary operator left right) after) tree rest := by
  have known : (leadingSymbol? (⟨.symbol mark, span⟩ :: behind)).bind productOperator? = some operator :=
    productOperator?_eq_some_iff.mpr joins
  rw [parseMoreProduct, known]
  refine (reads_sequence_iff (fun right => parseMoreProduct whole (.binary operator left right))
    (fun _ product => product) fun _ _ _ => ⟨_, rfl, fun _ => ⟨_, rfl⟩⟩).trans ?_
  simp only [exists_eq_right]

theorem reads_parseSigned_minus (span : Span) (behind : List Token) :
    Reads (parseSigned whole (⟨.symbol .minus, span⟩ :: behind)) tree rest ↔
      ∃ inner, Reads (parseSigned whole behind) inner rest ∧ .negate inner = tree := by
  rw [parseSigned]
  exact reads_rewritten_iff Arithmetic.negate fun _ => ⟨_, rfl⟩

theorem reads_parseSigned_plus (span : Span) (behind : List Token) :
    Reads (parseSigned whole (⟨.symbol .plus, span⟩ :: behind)) tree rest ↔
      Reads (parseSigned whole behind) tree rest := by
  rw [parseSigned]
  refine (reads_rewritten_iff id fun _ => ⟨_, rfl⟩).trans ?_
  simp only [id_eq, exists_eq_right]

theorem parseSigned_of_unsigned (notMinus : leadingSymbol? tokens ≠ some .minus)
    (notPlus : leadingSymbol? tokens ≠ some .plus) :
    parseSigned whole tokens = parseOperand whole tokens := by
  cases tokens with
  | nil => rw [parseSigned]
  | cons token behind =>
      rw [parseSigned]
      split
      · next isMinus => exact absurd isMinus notMinus
      · next isPlus => exact absurd isPlus notPlus
      · rfl

theorem reads_parentheses_iff (span : Span) (behind : List Token) :
    Reads (parseOperand whole (⟨.symbol .openParenthesis, span⟩ :: behind)) tree rest ↔
      ∃ close, Reads (parseSum whole behind) tree (⟨.symbol .closeParenthesis, close⟩ :: rest) := by
  rw [parseOperand]
  refine (reads_sequence_iff (fun _ => expectSymbol whole .closeParenthesis) (fun inner _ => inner)
    fun _ _ _ => ⟨_, rfl, fun _ => ⟨_, rfl⟩⟩).trans ?_
  constructor
  · rintro ⟨inner, after, isInner, _, closes, rfl⟩
    rcases reads_expectSymbol_iff.mp closes with ⟨close, rfl⟩
    exact ⟨close, isInner⟩
  · rintro ⟨close, isInner⟩
    exact ⟨tree, _, isInner, (), reads_expectSymbol_iff.mpr ⟨close, rfl⟩, rfl⟩

theorem reads_call_iff {name : String} (span : Span) (behind : List Token) :
    Reads (parseOperand whole (⟨.word name, span⟩ :: behind)) tree rest ↔
      ∃ function arguments after opening, Text.lowerAscii name = function.name ∧
        behind = ⟨.symbol .openParenthesis, opening⟩ :: after ∧
        Reads (parseOperands whole after) arguments rest ∧
        function.arity.admits arguments.length = true ∧ .function function arguments = tree := by
  rw [parseOperand]
  constructor
  · intro reads
    split at reads
    · exact absurd reads not_reads_error
    · next function known =>
      rcases reads_bind_iff.mp reads with ⟨_, after, opens, _, reads⟩
      rcases reads_expectSymbol_iff.mp opens with ⟨opening, rfl⟩
      rcases reads_bind_iff.mp reads with ⟨arguments, others, given, _, reads⟩
      dsimp only at reads
      split at reads
      · next admitted =>
        rcases reads_ok_iff.mp reads with ⟨rfl, rfl⟩
        exact ⟨function, arguments, after, opening, ofName?_eq_some_iff.mp known, rfl, given, admitted, rfl⟩
      · exact absurd reads not_reads_error
  · rintro ⟨function, arguments, after, opening, named, rfl, given, admitted, rfl⟩
    rw [ofName?_eq_some_iff.mpr named]
    refine (reads_expectSymbol_iff.mpr ⟨opening, rfl⟩).bind fun _ => ?_
    refine given.bind fun _ => ?_
    dsimp only
    rw [if_pos admitted]
    exact reads_ok_iff.mpr ⟨rfl, rfl⟩

theorem reads_parseFurtherOperands_iff {arguments : List Arithmetic} :
    Reads (parseFurtherOperands whole tokens) arguments rest ↔
      ∃ argument after, Reads (parseSum whole tokens) argument after ∧
        ((∃ comma behind more, after = ⟨.symbol .comma, comma⟩ :: behind ∧
            Reads (parseFurtherOperands whole behind) more rest ∧ argument :: more = arguments) ∨
          ∃ close, after = ⟨.symbol .closeParenthesis, close⟩ :: rest ∧ [argument] = arguments) := by
  rw [parseFurtherOperands, reads_bind_iff]
  refine exists_congr fun argument => exists_congr fun after => and_congr_right fun isArgument => ?_
  rw [exists_prop_of_true isArgument.length_le]
  dsimp only
  split
  · next comma behind =>
    refine (reads_rewritten_iff (argument :: ·) fun _ => ⟨_, rfl⟩).trans ?_
    constructor
    · rintro ⟨more, further, rfl⟩
      exact .inl ⟨comma, behind, more, rfl, further, rfl⟩
    · rintro (⟨_, _, more, same, further, rfl⟩ | ⟨_, impossible, _⟩)
      · cases same
        exact ⟨more, further, rfl⟩
      · cases impossible
  · next noComma =>
    refine (reads_rewritten_iff (fun _ => [argument]) fun _ => ⟨_, rfl⟩).trans ?_
    constructor
    · rintro ⟨_, closes, rfl⟩
      rcases reads_expectSymbol_iff.mp closes with ⟨close, same⟩
      exact .inr ⟨close, same, rfl⟩
    · rintro (⟨comma, behind, _, same, _⟩ | ⟨close, same, rfl⟩)
      · exact absurd same (noComma comma behind)
      · exact ⟨(), reads_expectSymbol_iff.mpr ⟨close, same⟩, rfl⟩

theorem reads_parseOperands_iff {arguments : List Arithmetic} (given : arguments ≠ []) :
    Reads (parseOperands whole tokens) arguments rest ↔
      leadingSymbol? tokens ≠ some .closeParenthesis ∧
        Reads (parseFurtherOperands whole tokens) arguments rest := by
  by_cases closes : leadingSymbol? tokens = some .closeParenthesis
  · rcases exists_of_leadingSymbol closes with ⟨span, behind, rfl⟩
    rw [parseOperands, reads_ok_iff]
    refine iff_of_false ?_ fun continues => continues.1 closes
    rintro ⟨none_, _⟩
    exact given none_.symm
  · rw [parseOperands]
    · exact (and_iff_right closes).symm
    · rintro span behind rfl
      exact closes rfl

/-! ## Soundness -/

/-- Whether an operator comes first is decided. -/
theorem endsSum_or_joins (tokens : List Token) :
    EndsSum tokens ∨ ∃ mark operator span behind, tokens = ⟨.symbol mark, span⟩ :: behind ∧
      JoinsTerms mark operator := by
  cases joint : (leadingSymbol? tokens).bind sumOperator? with
  | none => exact .inl joint
  | some operator =>
      rcases Option.bind_eq_some_iff.mp joint with ⟨mark, leading, known⟩
      rcases exists_of_leadingSymbol leading with ⟨span, behind, same⟩
      exact .inr ⟨mark, operator, span, behind, same, sumOperator?_eq_some_iff.mp known⟩

theorem endsProduct_or_joins (tokens : List Token) :
    EndsProduct tokens ∨ ∃ mark operator span behind, tokens = ⟨.symbol mark, span⟩ :: behind ∧
      JoinsFactors mark operator := by
  cases joint : (leadingSymbol? tokens).bind productOperator? with
  | none => exact .inl joint
  | some operator =>
      rcases Option.bind_eq_some_iff.mp joint with ⟨mark, leading, known⟩
      rcases exists_of_leadingSymbol leading with ⟨span, behind, same⟩
      exact .inr ⟨mark, operator, span, behind, same, productOperator?_eq_some_iff.mp known⟩

theorem not_admits_zero (function : MathFunction) : function.arity.admits 0 = false := by
  cases function <;> rfl

/-
The theorems below recurse as the grammar does, each by the tokens that are left.
-/
mutual

theorem takes_of_parseSum (tokens : List Token) {tree : Arithmetic} {rest : List Token}
    (reads : Reads (parseSum whole tokens) tree rest) : Takes IsSum tokens tree rest := by
  rcases reads_parseSum_iff.mp reads with ⟨first, behind, isFirst, more⟩
  have shorter := isFirst.length_le
  rcases takes_of_parseProduct tokens isFirst with ⟨front, isFront, product⟩
  exact Takes.prepend isFront (takes_of_parseMoreSum behind (.product product) more)
termination_by 8 * tokens.length + 3

theorem takes_of_parseMoreSum (tokens : List Token) {items : List Item} {left tree : Arithmetic}
    {rest : List Token} (sum : IsSum items left) (reads : Reads (parseMoreSum whole left tokens) tree rest) :
    Takes (fun more => IsSum (items ++ more)) tokens tree rest := by
  rcases endsSum_or_joins tokens with ends | ⟨mark, operator, span, behind, isTokens, joins⟩
  · rcases (parseMoreSum_of_ends ends).mp reads with ⟨rfl, rfl⟩
    exact ⟨[], rfl, by simpa using sum⟩
  · rw [isTokens] at reads
    rcases (parseMoreSum_of_joins joins span behind).mp reads with ⟨right, after, isRight, more⟩
    have shorter := isRight.length_le
    rcases takes_of_parseProduct behind isRight with ⟨front, isFront, product⟩
    have taken : tokens = ⟨.symbol mark, span⟩ :: front ++ after := by
      rw [isTokens, isFront, List.cons_append]
    have further := takes_of_parseMoreSum after (.more sum joins product) more
    simp only [List.append_assoc] at further
    exact Takes.prepend taken further
termination_by 8 * tokens.length + 1
decreasing_by
  all_goals subst isTokens
  all_goals simp only [List.length_cons]
  all_goals omega

theorem takes_of_parseProduct (tokens : List Token) {tree : Arithmetic} {rest : List Token}
    (reads : Reads (parseProduct whole tokens) tree rest) : Takes IsProduct tokens tree rest := by
  rcases reads_parseProduct_iff.mp reads with ⟨first, behind, isFirst, more⟩
  have shorter := isFirst.length_le
  rcases takes_of_parseSigned tokens isFirst with ⟨front, isFront, signed⟩
  exact Takes.prepend isFront (takes_of_parseMoreProduct behind (.signed signed) more)
termination_by 8 * tokens.length + 2

theorem takes_of_parseMoreProduct (tokens : List Token) {items : List Item} {left tree : Arithmetic}
    {rest : List Token} (product : IsProduct items left)
    (reads : Reads (parseMoreProduct whole left tokens) tree rest) :
    Takes (fun more => IsProduct (items ++ more)) tokens tree rest := by
  rcases endsProduct_or_joins tokens with ends | ⟨mark, operator, span, behind, isTokens, joins⟩
  · rcases (parseMoreProduct_of_ends ends).mp reads with ⟨rfl, rfl⟩
    exact ⟨[], rfl, by simpa using product⟩
  · rw [isTokens] at reads
    rcases (parseMoreProduct_of_joins joins span behind).mp reads with ⟨right, after, isRight, more⟩
    have shorter := isRight.length_le
    rcases takes_of_parseSigned behind isRight with ⟨front, isFront, signed⟩
    have taken : tokens = ⟨.symbol mark, span⟩ :: front ++ after := by
      rw [isTokens, isFront, List.cons_append]
    have further := takes_of_parseMoreProduct after (.more product joins signed) more
    simp only [List.append_assoc] at further
    exact Takes.prepend taken further
termination_by 8 * tokens.length + 1
decreasing_by
  all_goals subst isTokens
  all_goals simp only [List.length_cons]
  all_goals omega

theorem takes_of_parseSigned (tokens : List Token) {tree : Arithmetic} {rest : List Token}
    (reads : Reads (parseSigned whole tokens) tree rest) : Takes IsSigned tokens tree rest := by
  by_cases isMinus : leadingSymbol? tokens = some .minus
  · rcases exists_of_leadingSymbol isMinus with ⟨span, behind, isTokens⟩
    rw [isTokens] at reads
    rcases (reads_parseSigned_minus span behind).mp reads with ⟨inner, isInner, rfl⟩
    rcases takes_of_parseSigned behind isInner with ⟨front, isFront, signed⟩
    exact ⟨⟨.symbol .minus, span⟩ :: front, by rw [isTokens, isFront, List.cons_append], .minus signed⟩
  · by_cases isPlus : leadingSymbol? tokens = some .plus
    · rcases exists_of_leadingSymbol isPlus with ⟨span, behind, isTokens⟩
      rw [isTokens] at reads
      rcases takes_of_parseSigned behind ((reads_parseSigned_plus span behind).mp reads) with
        ⟨front, isFront, signed⟩
      exact ⟨⟨.symbol .plus, span⟩ :: front, by rw [isTokens, isFront, List.cons_append], .plus signed⟩
    · rw [parseSigned_of_unsigned isMinus isPlus] at reads
      rcases takes_of_parseOperand tokens reads with ⟨front, isFront, operand⟩
      exact ⟨front, isFront, .operand operand⟩
termination_by 8 * tokens.length + 1
decreasing_by
  · rw [isTokens, List.length_cons]
    omega
  · rw [isTokens, List.length_cons]
    omega
  · omega

theorem takes_of_parseOperand (tokens : List Token) {tree : Arithmetic} {rest : List Token}
    (reads : Reads (parseOperand whole tokens) tree rest) : Takes IsOperand tokens tree rest := by
  match tokens with
  | [] =>
    rw [parseOperand] at reads
    exact absurd reads not_reads_error
  | ⟨.number amount, span⟩ :: behind =>
    rw [parseOperand, reads_ok_iff] at reads
    rcases reads with ⟨rfl, rfl⟩
    exact ⟨[_], rfl, .number amount⟩
  | ⟨.value code, span⟩ :: behind =>
    rw [parseOperand, reads_ok_iff] at reads
    rcases reads with ⟨rfl, rfl⟩
    exact ⟨[_], rfl, .value code⟩
  | ⟨.symbol mark, span⟩ :: behind =>
    by_cases opens : mark = .openParenthesis
    · subst opens
      rcases (reads_parentheses_iff span behind).mp reads with ⟨close, isInner⟩
      rcases takes_of_parseSum behind isInner with ⟨front, isFront, sum⟩
      refine ⟨⟨.symbol .openParenthesis, span⟩ :: (front ++ [⟨.symbol .closeParenthesis, close⟩]), ?_, ?_⟩
      · rw [isFront, List.cons_append, List.append_assoc, List.singleton_append]
      · rw [List.map_cons, List.map_append]
        exact .parentheses sum
    · rw [parseOperand] at reads
      · exact absurd reads not_reads_error
      · nofun
      · nofun
      · exact fun same => opens (Item.symbol.inj same)
      · nofun
  | ⟨.string content, span⟩ :: behind =>
    rw [parseOperand] at reads
    · exact absurd reads not_reads_error
    all_goals nofun
  | ⟨.word name, span⟩ :: behind =>
    rcases (reads_call_iff span behind).mp reads with
      ⟨function, arguments, after, opening, named, isBehind, given, admitted, rfl⟩
    have notNone : arguments ≠ [] := by
      rintro rfl
      rw [List.length_nil, not_admits_zero] at admitted
      cases admitted
    rcases (reads_parseOperands_iff notNone).mp given with ⟨_, further⟩
    rcases takes_of_parseFurtherOperands after further with ⟨front, close, isFront, areArguments⟩
    refine ⟨⟨.word name, span⟩ :: ⟨.symbol .openParenthesis, opening⟩ ::
      (front ++ [⟨.symbol .closeParenthesis, close⟩]), ?_, ?_⟩
    · rw [isBehind, isFront, List.cons_append, List.cons_append, List.append_assoc, List.singleton_append]
    · rw [List.map_cons, List.map_cons, List.map_append]
      exact .call named areArguments admitted
termination_by 8 * tokens.length

theorem takes_of_parseFurtherOperands (tokens : List Token) {arguments : List Arithmetic}
    {rest : List Token} (reads : Reads (parseFurtherOperands whole tokens) arguments rest) :
    ∃ front close, tokens = front ++ ⟨.symbol .closeParenthesis, close⟩ :: rest ∧
      AreArguments (front.map Token.item) arguments := by
  rcases reads_parseFurtherOperands_iff.mp reads with ⟨argument, after, isArgument, others⟩
  have shorter := isArgument.length_le
  rcases takes_of_parseSum tokens isArgument with ⟨front, isFront, sum⟩
  rcases others with ⟨comma, behind, more, isAfter, further, rfl⟩ | ⟨close, isAfter, rfl⟩
  · rcases takes_of_parseFurtherOperands behind further with ⟨others, close, isBehind, areArguments⟩
    refine ⟨front ++ ⟨.symbol .comma, comma⟩ :: others, close, ?_, ?_⟩
    · rw [isFront, isAfter, isBehind, List.append_assoc, List.cons_append]
    · rw [List.map_append, List.map_cons]
      exact .more sum areArguments
  · exact ⟨front, close, by rw [isFront, isAfter], .last sum⟩
termination_by 8 * tokens.length + 4
decreasing_by
  · omega
  · rw [isAfter, List.length_cons] at shorter
    omega

end

/-! ## Completeness -/

/-- The symbols between terms end a product. -/
theorem JoinsTerms.endsProduct {mark : Symbol} {operator : ArithmeticOperator}
    (joins : JoinsTerms mark operator) (span : Span) (rest : List Token) :
    EndsProduct (⟨.symbol mark, span⟩ :: rest) := by
  cases joins <;> rfl

/-- An operand does not begin with a sign. -/
theorem IsOperand.parseSigned_eq {items : List Item} (operand : IsOperand items tree)
    (written : tokens.map Token.item = items) (rest : List Token) :
    parseSigned whole (tokens ++ rest) = parseOperand whole (tokens ++ rest) := by
  cases operand with
  | _ =>
    rcases exists_cons written with ⟨span, behind, rfl, _⟩
    exact parseSigned_of_unsigned nofun nofun

/-- Arguments do not begin with the parenthesis that ends them. -/
theorem Begins.not_closing {items : List Item} (begins : Begins items)
    (written : tokens.map Token.item = items) (rest : List Token) :
    leadingSymbol? (tokens ++ rest) ≠ some .closeParenthesis := by
  rcases begins with ⟨first, others, rfl, different⟩
  rcases exists_cons written with ⟨span, behind, rfl, _⟩
  intro closes
  rcases exists_of_leadingSymbol closes with ⟨_, _, same⟩
  exact different (congrArg Token.item (List.cons.inj same).1)

mutual

/-- After the tokens of a sum, reading goes on with the further terms. -/
theorem IsSum.reads {items : List Item} {tree : Arithmetic} :
    IsSum items tree → ∀ ⦃tokens rest last : List Token⦄ ⦃result : Arithmetic⦄,
      tokens.map Token.item = items → EndsProduct rest →
      Reads (parseMoreSum whole tree rest) result last →
      Reads (parseSum whole (tokens ++ rest)) result last
  | .more front joins behind => by
      intro tokens rest last result written ends more
      rcases exists_split written with ⟨left, ⟨_, span⟩, right, rfl, isLeft, rfl, isRight⟩
      rw [List.append_assoc, List.cons_append]
      refine front.reads isLeft (joins.endsProduct span _) ?_
      refine (parseMoreSum_of_joins joins span _).mpr ⟨_, rest, ?_, more⟩
      exact behind.reads isRight (reads_parseMoreProduct_of_ends ends)
  | .product single => by
      intro tokens rest last result written ends more
      refine reads_parseSum_iff.mpr ⟨_, rest, ?_, more⟩
      exact single.reads written (reads_parseMoreProduct_of_ends ends)

/-- After the tokens of a product, reading goes on with the further factors. -/
theorem IsProduct.reads {items : List Item} {tree : Arithmetic} :
    IsProduct items tree → ∀ ⦃tokens rest last : List Token⦄ ⦃result : Arithmetic⦄,
      tokens.map Token.item = items → Reads (parseMoreProduct whole tree rest) result last →
      Reads (parseProduct whole (tokens ++ rest)) result last
  | .more front joins behind => by
      intro tokens rest last result written more
      rcases exists_split written with ⟨left, ⟨_, span⟩, right, rfl, isLeft, rfl, isRight⟩
      rw [List.append_assoc, List.cons_append]
      refine front.reads isLeft ?_
      exact (parseMoreProduct_of_joins joins span _).mpr ⟨_, rest, behind.reads isRight rest, more⟩
  | .signed single => by
      intro tokens rest last result written more
      exact reads_parseProduct_iff.mpr ⟨_, rest, single.reads written rest, more⟩

theorem IsSigned.reads {items : List Item} {tree : Arithmetic} :
    IsSigned items tree → ∀ ⦃tokens : List Token⦄, tokens.map Token.item = items →
      ∀ rest, Reads (parseSigned whole (tokens ++ rest)) tree rest
  | .minus inner => by
      intro tokens written rest
      rcases exists_cons written with ⟨span, behind, rfl, isBehind⟩
      exact (reads_parseSigned_minus span _).mpr ⟨_, inner.reads isBehind rest, rfl⟩
  | .plus inner => by
      intro tokens written rest
      rcases exists_cons written with ⟨span, behind, rfl, isBehind⟩
      exact (reads_parseSigned_plus span _).mpr (inner.reads isBehind rest)
  | .operand unsigned => by
      intro tokens written rest
      rw [unsigned.parseSigned_eq written]
      exact unsigned.reads written rest

theorem IsOperand.reads {items : List Item} {tree : Arithmetic} :
    IsOperand items tree → ∀ ⦃tokens : List Token⦄, tokens.map Token.item = items →
      ∀ rest, Reads (parseOperand whole (tokens ++ rest)) tree rest
  | .number amount => by
      intro tokens written rest
      rcases exists_single written with ⟨span, rfl⟩
      rw [List.singleton_append, parseOperand]
      exact reads_ok_iff.mpr ⟨rfl, rfl⟩
  | .value code => by
      intro tokens written rest
      rcases exists_single written with ⟨span, rfl⟩
      rw [List.singleton_append, parseOperand]
      exact reads_ok_iff.mpr ⟨rfl, rfl⟩
  | .parentheses inner => by
      intro tokens written rest
      rcases exists_cons written with ⟨span, others, rfl, inside⟩
      rcases exists_concat inside with ⟨front, close, rfl, isInner⟩
      rw [List.cons_append, List.append_assoc, List.singleton_append]
      refine (reads_parentheses_iff span _).mpr ⟨close, ?_⟩
      exact inner.reads isInner rfl (reads_parseMoreSum_of_ends rfl)
  | .call named given admitted => by
      intro tokens written rest
      rcases exists_cons written with ⟨span, others, rfl, inside⟩
      rcases exists_cons inside with ⟨opening, more, rfl, called⟩
      rcases exists_concat called with ⟨front, close, rfl, areArguments⟩
      rw [List.cons_append, List.cons_append, List.append_assoc, List.singleton_append]
      refine (reads_call_iff span _).mpr ⟨_, _, _, opening, named, rfl, ?_, admitted, rfl⟩
      refine (reads_parseOperands_iff given.ne_nil).mpr ⟨given.begins.not_closing areArguments _, ?_⟩
      exact given.reads areArguments close rest

theorem AreArguments.reads {items : List Item} {arguments : List Arithmetic} :
    AreArguments items arguments → ∀ ⦃tokens : List Token⦄, tokens.map Token.item = items →
      ∀ close rest, Reads (parseFurtherOperands whole (tokens ++ ⟨.symbol .closeParenthesis, close⟩ :: rest))
        arguments rest
  | .last argument => by
      intro tokens written close rest
      refine reads_parseFurtherOperands_iff.mpr ⟨_, _, ?_, .inr ⟨close, rfl, rfl⟩⟩
      exact argument.reads written rfl (reads_parseMoreSum_of_ends rfl)
  | .more argument further => by
      intro tokens written close rest
      rcases exists_split written with ⟨left, ⟨_, comma⟩, right, rfl, isArgument, rfl, areMore⟩
      rw [List.append_assoc, List.cons_append]
      refine reads_parseFurtherOperands_iff.mpr
        ⟨_, _, ?_, .inl ⟨comma, _, _, rfl, further.reads areMore close rest, rfl⟩⟩
      exact argument.reads isArgument rfl (reads_parseMoreSum_of_ends rfl)

end

/-! ## Whole calculations -/

/-- Reading a whole calculation gives the tree that its tokens are derived with, and no other. -/
theorem parseCalculation_eq_ok_iff (whole : Span) (tokens : List Token) (tree : Arithmetic) :
    parseCalculation whole tokens = .ok tree ↔ IsSum (tokens.map Token.item) tree := by
  cases tokens with
  | nil => exact iff_of_false nofun (not_isSum_nil tree)
  | cons token others =>
      rw [parseCalculation]
      · rw [bind_eq_ok_iff_reads_nil]
        · constructor
          · intro reads
            rcases takes_of_parseSum _ reads with ⟨front, isFront, written⟩
            rwa [isFront, List.append_nil]
          · intro written
            have reads : Reads (parseSum whole (token :: others ++ [])) tree [] :=
              written.reads rfl rfl (reads_parseMoreSum_of_ends rfl)
            rwa [List.append_nil] at reads
        · rintro ⟨sum, _ | ⟨next, behind⟩, shorter⟩
          · simp
          · simp
      · exact List.cons_ne_nil token others

/-- No items stand for two calculations. -/
theorem IsSum.unique {items : List Item} {first second : Arithmetic} (written : IsSum items first)
    (again : IsSum items second) : first = second := by
  rw [← map_item_default items, ← parseCalculation_eq_ok_iff default] at written again
  exact Except.ok.inj (written.symm.trans again)

end Expression
end TemplateCascade

import Mathlib
import TemplateCascade.Proofs.Markup.Derivability
import TemplateCascade.Proofs.Markup.WellNested

namespace TemplateCascade
namespace Markup

/-!
# Faults of tokens out of place

Some of the parser's faults blame the nesting of tokens: a construct that is not closed, or a token where
the construct around it has none of its kind.  In front of well-nested tokens the parser never gets there.
What it reads off such tokens ends where the word that it reads ends, so what calls it is again in front of
what it expects.  Blocks are no words, since tags are opened and closed independently of each other; what is
left behind a body or a block is therefore well nested, and no more is known about it than how bodies end.
-/

open Text

/-- A construct is said not to be closed, or a token to stand where none of its kind can. -/
def Fault.BlamesNesting (fault : Fault) : Prop :=
  fault.kind = .unterminatedCall ∨ fault.kind = .unterminatedString ∨ fault.kind = .unterminatedTag ∨
    (∃ found, fault = .strayInArguments found) ∨ ∃ expected found, fault = .unexpected expected found

/-- What is read is as it should be, or what is reported does not blame the nesting. -/
def Fair {Result : Type} (outcome : Except ParseError Result) (holds : Result → Prop) : Prop :=
  match outcome with
  | .ok result => holds result
  | .error error => ¬ error.fault.BlamesNesting

/-- Some tokens are read, and these are left. -/
abbrev Leaves {Result : Type} {tokens : List Token} (outcome : Except ParseError (Parsed Result tokens))
    (rest : List Token) : Prop :=
  Fair outcome fun parsed => parsed.rest = rest

namespace Fair

variable {First Second : Type} {outcome : Except ParseError First} {holds : First → Prop}
  {next : First → Except ParseError Second} {after : Second → Prop}

theorem bind (first : Fair outcome holds) (more : ∀ result, holds result → Fair (next result) after) :
    Fair (outcome >>= next) after := by
  cases outcome with
  | error error => exact first
  | ok result => exact more result first

theorem ite {condition : Prop} [Decidable condition] {left right : Except ParseError First}
    (isLeft : Fair left holds) (isRight : Fair right holds) :
    Fair (if condition then left else right) holds := by
  split
  · exact isLeft
  · exact isRight

end Fair

/-- Where it is known what is left, the next is read off that. -/
theorem Leaves.bind {First Second : Type} {tokens rest : List Token}
    {outcome : Except ParseError (Parsed First tokens)} {next : Parsed First tokens → Except ParseError Second}
    {after : Second → Prop} (first : Leaves outcome rest)
    (more : ∀ result shorter, Fair (next ⟨result, rest, shorter⟩) after) : Fair (outcome >>= next) after := by
  refine Fair.bind first fun parsed isRest => ?_
  rcases parsed with ⟨result, left, shorter⟩
  dsimp only at isRest
  subst isRest
  exact more result shorter

/-! ## What attributes and arguments are refused for -/

section Refusing

variable {opening ending closing : Token} {attributes : Attributes} {name : String} {value : Argument}

theorem fair_assembleCall {read : List NamedArgument} {span : Span} :
    Fair (assembleCall name read span) fun _ => True := by
  unfold assembleCall
  dsimp only
  generalize List.find? ArgumentOf.isMissing _ = missing
  cases missing with
  | none => trivial
  | some value => exact .ite (by simp [Fair, Fault.BlamesNesting, Fault.kind]) trivial

theorem fair_takeRequired : Fair (takeRequired opening attributes name) fun _ => True := by
  unfold takeRequired
  split
  · trivial
  · simp [Fair, Fault.BlamesNesting, Fault.kind]

theorem fair_refuseExtra : Fair (refuseExtra opening attributes) fun _ => True := by
  cases attributes with
  | nil => trivial
  | cons first rest => simp [Fair, refuseExtra, Fault.BlamesNesting, Fault.kind]

theorem fair_requireOpen : Fair (requireOpen opening ending) fun _ => True := by
  unfold requireOpen
  split
  · simp [Fair, Fault.BlamesNesting, Fault.kind]
  · trivial

theorem fair_requireSelfClosing : Fair (requireSelfClosing opening ending) fun _ => True := by
  unfold requireSelfClosing
  split
  · trivial
  · simp [Fair, Fault.BlamesNesting, Fault.kind]

theorem fair_requireMatching : Fair (requireMatching opening closing) fun _ => True := by
  unfold requireMatching
  split
  · trivial
  · simp [Fair, Fault.BlamesNesting, Fault.kind]

theorem fair_loopVariable : Fair (loopVariable value) fun _ => True := by
  unfold loopVariable
  dsimp only
  cases value.literalText? with
  | none => simp [Fair, Fault.BlamesNesting, Fault.kind]
  | some text => exact .ite trivial (by simp [Fair, Fault.BlamesNesting, Fault.kind])

theorem fair_branchCondition : Fair (branchCondition opening attributes) fun _ => True :=
  fair_takeRequired.bind fun _ _ => fair_refuseExtra.bind fun _ _ => trivial

theorem fair_loopHead : Fair (loopHead opening attributes) fun _ => True := by
  refine fair_takeRequired.bind fun _ _ => fair_takeRequired.bind fun _ _ =>
    fair_loopVariable.bind fun _ _ => ?_
  cases entryNamed? _ "key" with
  | none => exact fair_refuseExtra.bind fun _ _ => trivial
  | some key =>
      have named : Fair ((some key).mapM loopVariable) fun _ => True :=
        fair_loopVariable.bind fun _ _ => trivial
      exact named.bind fun _ _ => fair_refuseExtra.bind fun _ _ => trivial

theorem fair_parseInclusion : Fair (parseInclusion opening ending attributes) fun _ => True := by
  refine fair_requireSelfClosing.bind fun _ _ => fair_takeRequired.bind fun _ _ =>
    fair_refuseExtra.bind fun _ _ => ?_
  split
  · simp [Fair, Fault.BlamesNesting, Fault.kind]
  · exact .ite (by simp [Fair, Fault.BlamesNesting, Fault.kind]) trivial

end Refusing

/-! ## Inline constructs

The recursion is on the words and not on the tokens, so that what is left is known before anything is read.
-/

/-- An argument ends here, or a token stands here that the arguments of a call cannot go on with. -/
def EndsOrTrails (rest left : List Token) : Prop :=
  left = rest ∨ ∃ token behind, left = token :: behind ∧ token.kind ≠ .comma ∧ token.kind ≠ .callEnd

/-- A variable or a call behind a quoted value is left in place. -/
theorem fair_skipBlankText {used rest : List Token} (word : InlineWord used) (ends : EndsArgument rest) :
    Fair (skipBlankText (used ++ rest)) fun parsed => EndsOrTrails rest parsed.rest := by
  cases word with
  | nil =>
      rcases ends with ⟨token, behind, rfl, kind⟩
      rw [List.nil_append, skipBlankText, if_neg (by rcases kind with kind | kind <;> simp [kind])]
      exact .inl rfl
  | @plain token tokens isPlain more =>
      rw [List.cons_append, skipBlankText]
      rcases isPlain with isText | isReference
      · rw [if_pos isText]
        split
        · exact (fair_skipBlankText more ends).bind fun _ isRest => isRest
        · simp [Fair, Fault.BlamesNesting, Fault.kind]
      · rw [if_neg (by simp [isReference])]
        exact .inr ⟨token, _, rfl, by simp [isReference], by simp [isReference]⟩
  | call first more =>
      cases first with
      | mk opens inside closes =>
          simp only [List.cons_append]
          rw [skipBlankText, if_neg (by simp [opens])]
          exact .inr ⟨_, _, rfl, by simp [opens], by simp [opens]⟩

theorem InlineWord.kind_of_head {token : Token} {behind : List Token} (word : InlineWord (token :: behind)) :
    token.IsPlain ∨ token.kind = .callStart := by
  generalize whole : token :: behind = tokens at word
  cases word with
  | nil => cases whole
  | plain isPlain more =>
      cases whole
      exact .inl isPlain
  | call first more =>
      cases first with
      | mk opens inside closes =>
          cases whole
          exact .inr opens

/-- An inline word with what ends its argument behind starts with no quote and with no name. -/
theorem InlineWord.exists_head {tokens rest : List Token} (word : InlineWord tokens)
    (ends : EndsArgument rest) : ∃ token behind, tokens ++ rest = token :: behind ∧
      token.kind ≠ .quoteOpen ∧ token.kind ≠ .argumentName := by
  rcases tokens with _ | ⟨token, behind⟩
  · rcases ends with ⟨token, behind, rfl, kind⟩
    exact ⟨token, behind, rfl, by rcases kind with kind | kind <;> simp [kind],
      by rcases kind with kind | kind <;> simp [kind]⟩
  · refine ⟨token, behind ++ rest, rfl, ?_, ?_⟩
    · rcases word.kind_of_head with (kind | kind) | kind <;> simp [kind]
    · rcases word.kind_of_head with (kind | kind) | kind <;> simp [kind]

theorem ValueWord.exists_head {tokens rest : List Token} (word : ValueWord tokens)
    (ends : EndsArgument rest) : ∃ token behind, tokens ++ rest = token :: behind ∧
      token.kind ≠ .argumentName := by
  cases word with
  | quoted opens inside closes behind => exact ⟨_, _, rfl, by simp [opens]⟩
  | plain inside =>
      rcases inside.exists_head ends with ⟨token, behind, whole, _, notName⟩
      exact ⟨token, behind, whole, notName⟩

/-- Behind an argument its call ends or goes on, or what trails there is refused. -/
theorem leaves_parseArguments_of {finish ending : Token} {name : String} {tokens behind rest : List Token}
    (first : Fair (parseArgument finish tokens) fun parsed => EndsOrTrails (ending :: behind) parsed.rest)
    (goesOn : ending.kind = .callEnd ∧ behind = rest ∨
      ending.kind = .comma ∧ Leaves (parseArguments finish name behind) rest) :
    Leaves (parseArguments finish name tokens) rest := by
  rw [parseArguments]
  refine first.bind fun parsed isRest => ?_
  rcases parsed with ⟨argument, left, shorter⟩
  rcases isRest with isRest | ⟨token, trailing, isRest, notComma, notEnd⟩
  · dsimp only at isRest ⊢
    subst isRest
    dsimp only
    rcases goesOn with ⟨closes, rfl⟩ | ⟨isComma, more⟩
    · rw [closes]
      rfl
    · rw [isComma]
      exact more.bind fun _ _ => rfl
  · dsimp only at isRest ⊢
    subst isRest
    dsimp only
    split
    · next isComma => exact absurd isComma notComma
    · next isEnd => exact absurd isEnd notEnd
    · simp [Fair, Fault.BlamesNesting, Fault.kind]

mutual

theorem leaves_parseParts {used : List Token} :
    InlineWord used → ∀ (finish : Token) {rest : List Token}, EndsArgument rest →
      Leaves (parseParts finish (used ++ rest)) rest
  | .nil => fun finish rest ends => by
      rcases ends with ⟨token, behind, rfl, kind⟩
      rw [List.nil_append, parseParts]
      rcases kind with kind | kind <;> rw [kind] <;> rfl
  | .plain isPlain more => fun finish rest ends => by
      have others := leaves_parseParts more finish ends
      rw [List.cons_append, parseParts]
      rcases isPlain with kind | kind <;> rw [kind] <;> exact others.bind fun _ _ => rfl
  | .call first more => fun finish rest ends => by
      rcases leaves_parseCall first with ⟨opening, behind, rfl, opens, reads⟩
      have others := leaves_parseParts more finish ends
      rw [List.append_assoc, List.cons_append, parseParts, opens]
      refine (reads finish _).bind fun call shorter => ?_
      exact others.bind fun _ _ => rfl

theorem leaves_parseQuoted {used : List Token} :
    InlineWord used → ∀ (finish : Token) (quote : Char) {closing : Token} (rest : List Token),
      closing.kind = .quoteClose → Leaves (parseQuoted finish quote (used ++ closing :: rest)) rest
  | .nil => fun finish quote closing rest closes => by
      rw [List.nil_append, parseQuoted, closes]
      rfl
  | .plain isPlain more => fun finish quote closing rest closes => by
      have others := leaves_parseQuoted more finish quote rest closes
      rw [List.cons_append, parseQuoted]
      rcases isPlain with kind | kind <;> rw [kind] <;> exact others.bind fun _ _ => rfl
  | .call first more => fun finish quote closing rest closes => by
      rcases leaves_parseCall first with ⟨opening, behind, rfl, opens, reads⟩
      have others := leaves_parseQuoted more finish quote rest closes
      rw [List.append_assoc, List.cons_append, parseQuoted, opens]
      refine (reads finish _).bind fun call shorter => ?_
      exact others.bind fun _ _ => rfl

theorem leaves_parseCall {used : List Token} :
    CallWord used → ∃ opening behind, used = opening :: behind ∧ opening.kind = .callStart ∧
      ∀ finish rest, Leaves (parseCall finish opening (behind ++ rest)) rest
  | .mk opens inside closes => by
      refine ⟨_, _, rfl, opens, fun finish rest => ?_⟩
      rw [List.append_assoc, List.singleton_append, parseCall]
      refine (leaves_parseArguments inside finish _ rest closes).bind fun read shorter => ?_
      exact fair_assembleCall.bind fun _ _ => rfl

theorem leaves_parseArguments {used : List Token} :
    ArgumentsWord used → ∀ (finish : Token) (name : String) {closing : Token} (rest : List Token),
      closing.kind = .callEnd → Leaves (parseArguments finish name (used ++ closing :: rest)) rest
  | .one only => fun finish name closing rest closes => by
      have ends : EndsArgument (closing :: rest) := ⟨closing, rest, rfl, .inr closes⟩
      exact leaves_parseArguments_of (fair_parseArgument only finish ends) (.inl ⟨closes, rfl⟩)
  | @ArgumentsWord.more comma tokens others first isComma behind => fun finish name closing rest closes => by
      have more := leaves_parseArguments behind finish name rest closes
      have ends : EndsArgument (comma :: (others ++ closing :: rest)) := ⟨comma, _, rfl, .inl isComma⟩
      rw [List.append_assoc, List.cons_append]
      exact leaves_parseArguments_of (fair_parseArgument first finish ends) (.inr ⟨isComma, more⟩)

theorem fair_parseArgument {used : List Token} :
    ArgumentWord used → ∀ (finish : Token) {rest : List Token}, EndsArgument rest →
      Fair (parseArgument finish (used ++ rest)) fun parsed => EndsOrTrails rest parsed.rest
  | .named isName value => fun finish rest ends => by
      rw [List.cons_append, parseArgument, if_pos isName]
      exact (fair_parseValue value finish _ ends).bind fun _ isRest => isRest
  | .unnamed value => fun finish rest ends => by
      rcases value.exists_head ends with ⟨token, behind, whole, notName⟩
      have reads := fair_parseValue value finish token.span ends
      rw [whole] at reads ⊢
      rw [parseArgument, if_neg notName]
      exact reads.bind fun _ isRest => isRest

theorem fair_parseValue {used : List Token} :
    ValueWord used → ∀ (finish : Token) (start : Span) {rest : List Token}, EndsArgument rest →
      Fair (parseValue finish start (used ++ rest)) fun parsed => EndsOrTrails rest parsed.rest
  | .quoted opens inside closes behind => fun finish start rest ends => by
      rw [List.cons_append, List.append_assoc, List.cons_append, parseValue, if_pos opens]
      refine (leaves_parseQuoted inside finish _ _ closes).bind fun result shorter => ?_
      exact (fair_skipBlankText behind ends).bind fun _ isRest => isRest
  | .plain inside => fun finish start rest ends => by
      rcases inside.exists_head ends with ⟨token, behind, whole, notQuoted, _⟩
      have reads := leaves_parseParts inside finish ends
      rw [whole] at reads ⊢
      rw [parseValue, if_neg notQuoted]
      exact reads.bind fun _ _ => .inl rfl

end

/-! ## Tags -/

theorem leaves_parseAttributes {used : List Token} (word : AttributesWord used) (finish : Token)
    {ending : Token} (rest : List Token) (ends : ending.EndsTag) (known : Attributes) :
    Leaves (parseAttributes finish known (used ++ ending :: rest)) rest := by
  induction word generalizing known with
  | nil =>
      rw [List.nil_append, parseAttributes]
      rcases ends with kind | kind <;> rw [kind] <;> rfl
  | cons isName inside closes more inductionHypothesis =>
      rw [List.cons_append, List.append_assoc, List.cons_append, parseAttributes, isName]
      refine (leaves_parseQuoted inside finish '"' _ closes).bind fun value shorter => ?_
      exact (inductionHypothesis _).bind fun _ _ => rfl

/-! ## Bodies and blocks

The recursion is on the number of tokens, as the parser's is: where a block ends depends on what is read.
-/

/-- What the first of some well-nested tokens starts, and what is behind that. -/
theorem WellNested.cases {token : Token} {behind : List Token} (word : WellNested (token :: behind)) :
    (token.IsPlain ∧ WellNested behind) ∨
    (token.kind = .tagClose ∧ WellNested behind) ∨
    (token.kind = .callStart ∧ ∃ inside rest, behind = inside ++ rest ∧ CallWord (token :: inside) ∧
      WellNested rest) ∨
    (token.kind = .tagStart ∧ ∃ inside ending rest, behind = inside ++ ending :: rest ∧
      AttributesWord inside ∧ ending.EndsTag ∧ WellNested rest) := by
  generalize whole : token :: behind = tokens at word
  cases word with
  | nil => cases whole
  | plain isPlain more =>
      cases whole
      exact .inl ⟨isPlain, more⟩
  | closingTag closes more =>
      cases whole
      exact .inr (.inl ⟨closes, more⟩)
  | call first more =>
      cases first with
      | mk opens inside closes =>
          cases whole
          exact .inr (.inr (.inl ⟨opens, _, _, rfl, .mk opens inside closes, more⟩))
  | tag opens inside ends more =>
      cases whole
      exact .inr (.inr (.inr ⟨opens, _, _, _, rfl, inside, ends, more⟩))

theorem WellNested.behind_closes {closing : Token} {behind : List Token}
    (word : WellNested (closing :: behind)) (closes : closing.kind = .tagClose) : WellNested behind := by
  rcases word.cases with ⟨kind | kind, _⟩ | ⟨_, more⟩ | ⟨kind, _⟩ | ⟨kind, _⟩
  · cases closes.symm.trans kind
  · cases closes.symm.trans kind
  · exact more
  · cases closes.symm.trans kind
  · cases closes.symm.trans kind

theorem WellNested.behind_opens {opening : Token} {behind : List Token}
    (word : WellNested (opening :: behind)) (opens : opening.kind = .tagStart) :
    ∃ inside ending rest, behind = inside ++ ending :: rest ∧ AttributesWord inside ∧ ending.EndsTag ∧
      WellNested rest := by
  rcases word.cases with ⟨kind | kind, _⟩ | ⟨kind, _⟩ | ⟨kind, _⟩ | ⟨_, tag⟩
  · cases opens.symm.trans kind
  · cases opens.symm.trans kind
  · cases opens.symm.trans kind
  · cases opens.symm.trans kind
  · exact tag

/-- Well-nested tokens that no body goes on with. -/
structure EndsBody (rest : List Token) : Prop where
  wellNested : WellNested rest
  stops : Stops rest

mutual

theorem fair_parseBody (finish : Token) : ∀ {tokens : List Token}, WellNested tokens →
    Fair (parseBody finish tokens) fun parsed => EndsBody parsed.rest
  | [], word => by
      rw [parseBody]
      exact ⟨word, nofun⟩
  | token :: behind, word => by
      rcases word.cases with ⟨isPlain, more⟩ | ⟨closes, _⟩ | ⟨opens, inside, rest, split, first, more⟩ |
        ⟨opens, inside, ending, rest, split, attributes, ends, more⟩
      · have others := fair_parseBody finish more
        rw [parseBody]
        rcases isPlain with kind | kind <;> rw [kind] <;> exact others.bind fun _ isEnd => isEnd
      · rw [parseBody, closes]
        refine ⟨word, ?_⟩
        rintro _ _ ⟨⟩
        exact .inl closes
      · have shorterRest : rest.length ≤ behind.length := by simp [split]
        have others := fair_parseBody finish more
        rcases leaves_parseCall first with ⟨_, _, ⟨⟩, _, reads⟩
        have call := reads finish rest
        rw [← split] at call
        rw [parseBody, opens]
        refine call.bind fun segment shorter => ?_
        exact others.bind fun _ isEnd => isEnd
      · rw [parseBody, opens]
        dsimp only
        split
        · next isBranch =>
            refine ⟨word, ?_⟩
            rintro _ _ ⟨⟩
            exact .inr isBranch
        · refine (fair_parseBlock finish token split attributes ends more).bind fun parsed isRest => ?_
          rcases parsed with ⟨block, left, shorter⟩
          dsimp only at isRest shorter ⊢
          exact (fair_parseBody finish isRest).bind fun _ isEnd => isEnd
termination_by tokens => 4 * tokens.length
decreasing_by
  all_goals simp only [List.length_cons]
  all_goals omega

/-- Behind the tag that opens it, a block is read up to where its body, its last branch or the tag ends. -/
theorem fair_parseBlock (finish opening : Token) {tokens inside rest : List Token} {ending : Token}
    (split : tokens = inside ++ ending :: rest) (attributes : AttributesWord inside) (ends : ending.EndsTag)
    (more : WellNested rest) :
    Fair (parseBlock finish opening tokens) fun parsed => WellNested parsed.rest := by
  have shorterRest : rest.length ≤ tokens.length := by
    rw [split, List.length_append, List.length_cons]
    omega
  have tag := leaves_parseAttributes attributes finish rest ends []
  rw [← split] at tag
  rw [parseBlock]
  refine tag.bind fun read shorter => ?_
  dsimp only
  split
  · refine fair_requireOpen.bind fun _ _ => fair_branchCondition.bind fun _ _ => ?_
    exact (fair_parseBranches finish opening _ more).bind fun _ isRest => isRest
  · refine fair_requireOpen.bind fun _ _ => fair_loopHead.bind fun _ _ => ?_
    refine (fair_parseBody finish more).bind fun parsed isEnd => ?_
    rcases parsed with ⟨body, _ | ⟨closing, behind⟩, shorterStill⟩
    · simp [Fair, Fault.BlamesNesting, Fault.kind]
    · dsimp only
      split
      · next closes => exact fair_requireMatching.bind fun _ _ => isEnd.wellNested.behind_closes closes
      · simp [Fair, Fault.BlamesNesting, Fault.kind]
  · exact fair_parseInclusion.bind fun _ _ => more
  · simp [Fair, Fault.BlamesNesting, Fault.kind]
termination_by 4 * tokens.length + 2
decreasing_by
  all_goals omega

theorem fair_parseBranches (finish opening : Token) (current : Option (Argument × Span))
    {tokens : List Token} (word : WellNested tokens) :
    Fair (parseBranches finish opening current tokens) fun parsed => WellNested parsed.rest := by
  rw [parseBranches]
  refine (fair_parseBody finish word).bind fun parsed isEnd => ?_
  rcases parsed with ⟨body, _ | ⟨token, behind⟩, shorter⟩
  · simp [Fair, Fault.BlamesNesting, Fault.kind]
  · have shorterBehind : behind.length < tokens.length := shorter
    dsimp only
    split
    · next closes => exact fair_requireMatching.bind fun _ _ => isEnd.wellNested.behind_closes closes
    · next opens =>
        rcases isEnd.wellNested.behind_opens opens with ⟨inside, ending, rest, split, attributes, ends, more⟩
        have shorterRest : rest.length ≤ behind.length := by
          rw [split, List.length_append, List.length_cons]
          omega
        have tag := leaves_parseAttributes attributes finish rest ends []
        rw [← split] at tag
        refine tag.bind fun read shorterLeft => ?_
        refine fair_requireSelfClosing.bind fun _ _ => ?_
        have others := fun next => fair_parseBranches finish opening next more
        split
        · have refused : Fair (.error ⟨.branchAfterElse (openedTag token), token.span⟩ : Except ParseError Unit)
              fun _ => True := by
            simp [Fair, Fault.BlamesNesting, Fault.kind]
          exact refused
        · split
          · exact fair_branchCondition.bind fun condition _ =>
              (others (some (condition, token.span))).bind fun _ isRest => isRest
          · exact fair_refuseExtra.bind fun _ _ => (others none).bind fun _ isRest => isRest
    · next found notClosing notOpening =>
        rcases isEnd.stops token behind rfl with closes | isBranch
        · exact absurd closes notClosing
        · rw [isBranchTag, Bool.and_eq_true, decide_eq_true_iff] at isBranch
          exact absurd isBranch.1 notOpening
termination_by 4 * tokens.length + 1
decreasing_by
  all_goals omega

end

/-- A template of well-nested tokens is read, or refused for something else than their nesting. -/
theorem fair_parseTokens (finish : Token) {tokens : List Token} (word : WellNested tokens) :
    Fair (parseTokens finish tokens) fun _ => True := by
  refine (fair_parseBody finish word).bind fun parsed _ => ?_
  rcases parsed with ⟨body, _ | ⟨token, behind⟩, shorter⟩
  · trivial
  · exact .ite (by simp [Fair, Fault.BlamesNesting, Fault.kind])
      (by simp [Fair, Fault.BlamesNesting, Fault.kind])

/-! ## Whole sources -/

theorem not_blamesNesting_of_parseTokens {finish : Token} {tokens : List Token} (word : WellNested tokens)
    {errors : ParseErrors} (isError : (parseTokens finish tokens).mapError (⟨·, []⟩) = .error errors)
    {error : ParseError} (member : error ∈ errors.toList) : ¬ error.fault.BlamesNesting := by
  have fair := fair_parseTokens finish word
  cases read : parseTokens finish tokens with
  | ok template =>
      rw [read] at isError
      cases isError
  | error found =>
      rw [read] at isError fair
      cases isError
      cases List.mem_singleton.mp member
      exact fair

end Markup
end TemplateCascade

import Mathlib
import TemplateCascade.Proofs.Compile.Expressions
import TemplateCascade.Proofs.Compile.Stepwise
import TemplateCascade.Proofs.Expression.Blaming
import TemplateCascade.Proofs.Expression.Scanning
import TemplateCascade.Proofs.Markup.Escapes
import TemplateCascade.Proofs.Markup.Exactness

namespace TemplateCascade
namespace Compile

/-!
# Where malformed expressions point

An error in an expression points into the source of the template.  The spans of the parts of an argument are
exact, and so is an error at a variable, at a call or at the whole argument.  Inside literal text the place of
a token is reckoned from the text in front of it in the same literal.  That is the place in the source exactly
if the text in front of the token is written without escapes, no token in front of it holds a line break, and
all characters in front of it on its line are single bytes.

While a template compiles, only an argument that is read as a calculation or as a condition can be malformed.
This is carried up the nodes of the template, with all that the built-in functions do with their arguments.
-/

open Expression (Blames Fault Malformed Narrow Scanned Scans Token Unbroken reckon scan tokensFrom)
open Markup (Argument BranchOf Covers Located Segment Template columnBehind coveringSpan lineBehind)
open Text (Escaping Span byteLength isAsciiBlank)

/-! ## Tokens and the parts they come from -/

/-- A token is one of a literal part, or it is a part by itself. -/
inductive TokenOf (parts : List Pending) (token : Token) : Prop where
  | scanned {text : String} {span : Span} {tokens : List Token} (member : .literal text span ∈ parts)
      (scans : tokensFrom ⟨span.offset, span.line, span.column⟩ text.toList = .ok tokens)
      (isToken : token ∈ tokens)
  | value {span : Span} {compile : Escaping → CompileM Code} {code : Code}
      (member : .deferred span compile ∈ parts) (isToken : token = ⟨.value code, span⟩)

theorem TokenOf.cons {parts : List Pending} {token : Token} (part : Pending) (of : TokenOf parts token) :
    TokenOf (part :: parts) token := by
  cases of with
  | scanned member scans isToken => exact .scanned (List.mem_cons_of_mem _ member) scans isToken
  | value member isToken => exact .value (List.mem_cons_of_mem _ member) isToken

theorem Tokenizes.tokenOf {parts : List Pending} {uses noted : Uses} {tokens : List Token}
    (tokenizes : Tokenizes parts uses tokens noted) : ∀ token ∈ tokens, TokenOf parts token := by
  induction tokenizes with
  | nil uses => exact nofun
  | literal scans behind inductionHypothesis =>
      intro token member
      rcases List.mem_append.mp member with member | member
      · exact .scanned List.mem_cons_self scans member
      · exact (inductionHypothesis token member).cons _
  | deferred compiles behind inductionHypothesis =>
      refine List.forall_mem_cons.mpr ⟨.value List.mem_cons_self rfl, ?_⟩
      exact fun token member => (inductionHypothesis token member).cons _

/-- An error on the way to the tokens is one of a part. -/
inductive ErrorOf (parts : List Pending) (error : CompileError) : Prop where
  | scanned {text : String} {span : Span} {malformed : Malformed} (member : .literal text span ∈ parts)
      (refuses : tokensFrom ⟨span.offset, span.line, span.column⟩ text.toList = .error malformed)
      (isError : error = .here (.malformedExpression malformed.fault) malformed.span)
  | value {span : Span} {compile : Escaping → CompileM Code} {uses noted : Uses}
      (member : .deferred span compile ∈ parts) (fails : (compile .raw).after uses = (.error error, noted))

theorem ErrorOf.cons {parts : List Pending} {error : CompileError} (part : Pending)
    (of : ErrorOf parts error) : ErrorOf (part :: parts) error := by
  cases of with
  | scanned member refuses isError => exact .scanned (List.mem_cons_of_mem _ member) refuses isError
  | value member fails => exact .value (List.mem_cons_of_mem _ member) fails

theorem errorOf_expressionTokens {parts : List Pending} {uses noted : Uses} {error : CompileError}
    (failed : (expressionTokens parts).after uses = (.error error, noted)) : ErrorOf parts error := by
  induction parts generalizing uses noted with
  | nil => cases failed
  | cons part parts inductionHypothesis =>
      have others : ∀ {between : Uses} {more : List Token → List Token},
          CompileM.after (expressionTokens parts >>= fun tokens => pure (more tokens)) between =
            (.error error, noted) → ErrorOf (part :: parts) error := by
        intro between more failed
        rw [CompileM.after_bind] at failed
        cases ran : (expressionTokens parts).after between with
        | mk outcome last =>
            rw [ran] at failed
            cases outcome with
            | ok tokens => cases failed
            | error other =>
                cases failed
                exact (inductionHypothesis ran).cons part
      cases part with
      | literal text span =>
          rw [expressionTokens, CompileM.after_bind] at failed
          cases scanned : tokensFrom ⟨span.offset, span.line, span.column⟩ text.toList with
          | error malformed =>
              rw [scanned, after_failMalformed_error] at failed
              cases failed
              exact .scanned List.mem_cons_self scanned rfl
          | ok tokens =>
              rw [scanned, after_failMalformed_ok] at failed
              exact others failed
      | deferred span compile =>
          rw [expressionTokens, CompileM.after_bind] at failed
          cases ran : (compile .raw).after uses with
          | mk outcome between =>
              rw [ran] at failed
              cases outcome with
              | error other =>
                  cases failed
                  exact .value List.mem_cons_self ran
              | ok code => exact others failed

/-- The span of a malformed expression is that of the whole argument at its end, or that of what it blames. -/
theorem malformed_cases {Result : Type} {read : Span → List Token → Except Malformed Result}
    (argument : PendingArgument) {fault : Fault} {span : Span} {uses noted : Uses}
    (blames : ∀ tokens malformed, read argument.span tokens = .error malformed →
      Blames argument.span tokens malformed)
    (failed : CompileM.after (expressionTokens argument.parts >>= fun tokens =>
      failMalformed (read argument.span tokens)) uses =
        (.error (.here (.malformedExpression fault) span), noted)) :
    ErrorOf argument.parts (.here (.malformedExpression fault) span) ∨
      (fault.AtEnd ∧ span = argument.span) ∨
      ∃ token, TokenOf argument.parts token ∧ fault.Names token.item ∧ span = token.span := by
  rw [CompileM.after_bind] at failed
  cases ran : (expressionTokens argument.parts).after uses with
  | mk outcome between =>
      rw [ran] at failed
      cases outcome with
      | error error =>
          cases failed
          exact .inl (errorOf_expressionTokens ran)
      | ok tokens =>
          dsimp only at failed
          have tokenizes := expressionTokens_eq_ok_iff.mp ran
          cases outcome : read argument.span tokens with
          | ok result =>
              rw [outcome] at failed
              cases failed
          | error malformed =>
              rw [outcome, after_failMalformed_error] at failed
              cases failed
              cases blames tokens malformed outcome with
              | atEnd isEnd isWhole => exact .inr (.inl ⟨isEnd, isWhole⟩)
              | token member names isSpan =>
                  exact .inr (.inr ⟨_, tokenizes.tokenOf _ member, names, isSpan⟩)

/-! ## Parts and the segments they come from -/

section Parts

variable {registry : Registry} {phrases : Phrases} {inclusion : Inclusion} {segments : List Segment} {span : Span}

theorem exists_of_mem_pendingAll {part : Pending}
    (member : part ∈ pendingAll registry phrases inclusion segments) :
    ∃ segment ∈ segments, pending registry phrases inclusion segment = part := by
  induction segments with
  | nil => cases member
  | cons segment segments inductionHypothesis =>
      rcases List.mem_cons.mp member with rfl | member
      · exact ⟨segment, List.mem_cons_self, rfl⟩
      · rcases inductionHypothesis member with ⟨found, isFound, isPart⟩
        exact ⟨found, List.mem_cons_of_mem _ isFound, isPart⟩

theorem mem_of_literal_mem_pendingAll {text : String}
    (member : .literal text span ∈ pendingAll registry phrases inclusion segments) :
    .literal text span ∈ segments := by
  rcases exists_of_mem_pendingAll member with ⟨segment, isFound, isPart⟩
  cases segment <;> cases isPart
  exact isFound

theorem exists_of_deferred_mem_pendingAll {compile : Escaping → CompileM Code}
    (member : .deferred span compile ∈ pendingAll registry phrases inclusion segments) :
    ∃ segment ∈ segments, segment.literal? = none ∧ segment.span = span := by
  rcases exists_of_mem_pendingAll member with ⟨segment, isFound, isPart⟩
  refine ⟨segment, isFound, ?_⟩
  cases segment <;> cases isPart <;> exact ⟨rfl, rfl⟩

theorem exists_of_mem_pendingNamed {named : List (String × Argument)} {entry : String × PendingArgument}
    (member : entry ∈ pendingNamed registry phrases inclusion named) :
    ∃ written ∈ named, pendingArgument registry phrases inclusion written.2 = entry.2 := by
  induction named with
  | nil => cases member
  | cons written named inductionHypothesis =>
      rcases List.mem_cons.mp member with rfl | member
      · exact ⟨written, List.mem_cons_self, rfl⟩
      · rcases inductionHypothesis member with ⟨found, isFound, isEntry⟩
        exact ⟨found, List.mem_cons_of_mem _ isFound, isEntry⟩

theorem exists_of_mem_pendingBranches {branches : List Markup.Branch} {branch : BranchOf Pending}
    (member : branch ∈ pendingBranches registry phrases inclusion branches) :
    ∃ written ∈ branches, pendingArgument registry phrases inclusion written.condition = branch.condition ∧
      pendingAll registry phrases inclusion written.body = branch.body := by
  induction branches with
  | nil => cases member
  | cons written branches inductionHypothesis =>
      rcases List.mem_cons.mp member with rfl | member
      · exact ⟨written, List.mem_cons_self, rfl, rfl⟩
      · rcases inductionHypothesis member with ⟨found, isFound, isBranch⟩
        exact ⟨found, List.mem_cons_of_mem _ isFound, isBranch⟩

end Parts

/-! ## Tokens and their places in the source -/

/-- Text that starts with a token that a fault names, or with what a fault says is no token. -/
inductive StartsToken (fault : Fault) (length : Nat) : List Char → Prop where
  | named {first : Char} {rest : List Char} {found : Scanned (first :: rest)}
      (notBlank : isAsciiBlank first = false) (isFound : scan first rest = .ok found)
      (names : fault.Names found.item) (isLength : length = byteLength found.lexeme) :
      StartsToken fault length (first :: rest)
  | refused {first : Char} {rest : List Char} (notBlank : isAsciiBlank first = false)
      (isRefused : scan first rest = .error (fault, length)) : StartsToken fault length (first :: rest)

/-- A literal of an argument stands in a source behind some text, and is scanned in pieces up to a rest. -/
structure StandsIn (source : List Char) (argument : Argument) (front written : List Char)
    (pieces : List (List Char)) (rest : List Char) : Prop where
  stands : ∃ behind, source = front ++ (written ++ behind)
  literal : ∃ text, Segment.literal text (coveringSpan front written) ∈ argument.parts ∧
    argument.setting.Spells written text.toList ∧ Scans text.toList pieces rest

/-- What stands in a source in front of what is left of a literal behind some pieces. -/
def startOf (argument : Argument) (front written : List Char) (pieces : List (List Char)) : List Char :=
  front ++ argument.setting.opening written pieces.flatten.length

/-- Some pieces stand in a source without escapes. -/
def Unescaped (argument : Argument) (written : List Char) (pieces : List (List Char)) : Prop :=
  argument.setting.opening written pieces.flatten.length = pieces.flatten

section Places

variable {source front written rest : List Char} {argument : Argument} {pieces : List (List Char)}

theorem setting_ne_body (argument : Argument) : argument.setting ≠ .body := by
  unfold Markup.ArgumentOf.setting
  split <;> nofun

theorem StandsIn.spelled (stands : StandsIn source argument front written pieces rest) :
    (∃ behind, source = startOf argument front written pieces ++ behind) ∧
      List.Forall₂ Markup.IsSpelling pieces.flatten
        ((argument.setting.spellings written).take pieces.flatten.length) := by
  rcases stands with ⟨⟨behind, isSource⟩, text, _, spells, scans⟩
  rw [← scans.flatten_append] at spells
  rcases Markup.Setting.spelled_opening (setting_ne_body argument) spells with ⟨⟨left, isWritten⟩, spelled⟩
  refine ⟨⟨left ++ behind, ?_⟩, spelled⟩
  rw [startOf, List.append_assoc, ← List.append_assoc (argument.setting.opening _ _), ← isWritten, isSource]

variable (stands : StandsIn source argument front written pieces rest)

include stands

theorem StandsIn.offset_iff :
    (reckon (Text.Place.start.after front) pieces).offset = byteLength (startOf argument front written pieces) ↔
      Unescaped argument written pieces := by
  rw [Expression.reckon_offset, ← Text.Place.after_append, Markup.start_after_eq, startOf, Text.byteLength_append,
    Text.byteLength_append, Nat.add_left_cancel_iff, eq_comm]
  exact (Markup.byteLength_of_spelled stands.spelled.2).2

theorem StandsIn.line_iff :
    (reckon (Text.Place.start.after front) pieces).line = lineBehind (startOf argument front written pieces) ↔
      Unbroken pieces := by
  have same : (Text.Place.start.after (front ++ pieces.flatten)).line =
      lineBehind (startOf argument front written pieces) := by
    rw [Markup.start_after_eq, startOf, lineBehind, lineBehind, List.count_append, List.count_append]
    rw [Markup.Setting.opening, Markup.count_break_of_spelled stands.spelled.2]
  rw [← same, Text.Place.after_append]
  exact Expression.reckon_line_iff

/-- The place of a token is right exactly if nothing in front of it is escaped, no token in front of it holds
a line break, and all characters in front of it on its line are single bytes. -/
theorem StandsIn.place_iff :
    reckon (Text.Place.start.after front) pieces =
        Text.Place.start.after (startOf argument front written pieces) ↔
      Unescaped argument written pieces ∧ Unbroken pieces ∧ Narrow pieces.flatten := by
  have unescaped : Unescaped argument written pieces →
      Text.Place.start.after (startOf argument front written pieces) =
        (Text.Place.start.after front).after pieces.flatten := by
    intro unescaped
    rw [startOf, unescaped, Text.Place.after_append]
  constructor
  · intro same
    have isOffset := congrArg Text.Place.offset same
    rw [Markup.start_after_eq (startOf _ _ _ _)] at isOffset
    have isUnescaped := stands.offset_iff.mp isOffset
    rw [unescaped isUnescaped] at same
    exact ⟨isUnescaped, Expression.reckon_eq_iff.mp same⟩
  · rintro ⟨isUnescaped, narrow⟩
    rw [unescaped isUnescaped]
    exact Expression.reckon_eq_iff.mpr narrow

end Places

/-- What an error in the expression of an argument points at. -/
inductive Points (source : List Char) (argument : Argument) (fault : Fault) (span : Span) : Prop where
  /-- The error is at the end of the expression and points at the whole argument. -/
  | atEnd (isEnd : fault.AtEnd) (isWhole : span = argument.span)
  /-- The error is at a variable or a call and points at it. -/
  | atValue {part : Segment} {code : Code} (member : part ∈ argument.parts) (isOther : part.literal? = none)
      (names : fault.Names (.value code)) (isSpan : span = part.span) (located : Located source span)
  /-- The error is at a token of a literal, and its place is reckoned from the pieces in front of the token.
  Its offset is where the token starts, or its line, or all three, exactly if these pieces allow it. -/
  | atToken {front written rest : List Char} {pieces : List (List Char)}
      (stands : StandsIn source argument front written pieces rest)
      (starts : StartsToken fault span.length rest)
      (isPlace : (⟨span.offset, span.line, span.column⟩ : Text.Place) =
        reckon (Text.Place.start.after front) pieces)
      (offset_iff : span.offset = byteLength (startOf argument front written pieces) ↔
        Unescaped argument written pieces)
      (line_iff : span.line = lineBehind (startOf argument front written pieces) ↔ Unbroken pieces)
      (place_iff : (⟨span.offset, span.line, span.column⟩ : Text.Place) =
          Text.Place.start.after (startOf argument front written pieces) ↔
        Unescaped argument written pieces ∧ Unbroken pieces ∧ Narrow pieces.flatten)

section Arguments

variable {source : String} {template : Template} {argument : Argument} {registry : Registry} {phrases : Phrases}
  {inclusion : Inclusion} {fault : Fault} {span : Span}

/-- A literal of an argument stands in the source of the template. -/
theorem exists_standsIn (parsed : Markup.parse source = .ok template)
    (isNode : template.HasNode (.argument argument)) {text : String} {literalSpan : Span}
    (member : .literal text literalSpan ∈ argument.parts) :
    ∃ front written, literalSpan = coveringSpan front written ∧ ∀ pieces rest,
      Scans text.toList pieces rest → StandsIn source.toList argument front written pieces rest := by
  have isChild : Markup.Node.segment argument.setting (.literal text literalSpan) ∈
      (Markup.Node.argument argument).children := List.mem_map_of_mem member
  rcases (isNode.child isChild).exact parsed |>.faithful with ⟨written, ⟨front, behind, isSource, rfl⟩, spells⟩
  exact ⟨front, written, rfl, fun pieces rest scans => ⟨⟨behind, isSource⟩, text, member, spells, scans⟩⟩

/-- What stands in a literal behind some pieces is pointed at as far as the place is reckoned right. -/
theorem points_of_scans (parsed : Markup.parse source = .ok template)
    (isNode : template.HasNode (.argument argument)) {text : String} {literalSpan : Span}
    (member : .literal text literalSpan ∈ argument.parts) {pieces : List (List Char)} {rest : List Char}
    (scans : Scans text.toList pieces rest) (starts : StartsToken fault span.length rest)
    (isPlace : (⟨span.offset, span.line, span.column⟩ : Text.Place) =
      reckon ⟨literalSpan.offset, literalSpan.line, literalSpan.column⟩ pieces) :
    Points source.toList argument fault span := by
  rcases exists_standsIn parsed isNode member with ⟨front, written, rfl, stands⟩
  have stands := stands pieces rest scans
  have isFront : (⟨(coveringSpan front written).offset, (coveringSpan front written).line,
      (coveringSpan front written).column⟩ : Text.Place) = Text.Place.start.after front :=
    (Markup.start_after_eq front).symm
  rw [isFront] at isPlace
  refine .atToken stands starts isPlace ?_ ?_ ?_
  · rw [← stands.offset_iff, ← isPlace]
  · rw [← stands.line_iff, ← isPlace]
  · rw [← stands.place_iff, isPlace]

theorem pendingArgument_eq (argument : Argument) : pendingArgument registry phrases inclusion argument =
    ⟨pendingAll registry phrases inclusion argument.parts, argument.span, argument.quoted⟩ := by
  cases argument
  rfl

/-- A fault of a token points at the token, or at the variable or the call that it stands for. -/
theorem points_of_token (parsed : Markup.parse source = .ok template)
    (isNode : template.HasNode (.argument argument)) {token : Token}
    (ofToken : TokenOf (pendingAll registry phrases inclusion argument.parts) token)
    (names : fault.Names token.item) : Points source.toList argument fault token.span := by
  cases ofToken with
  | scanned member scanned isToken =>
      rcases Expression.exists_scans_of_mem scanned isToken with
        ⟨pieces, first, rest, found, scans, notBlank, isFound, rfl⟩
      exact points_of_scans parsed isNode (mem_of_literal_mem_pendingAll member) scans
        (.named notBlank isFound names rfl) rfl
  | value member isToken =>
      rcases exists_of_deferred_mem_pendingAll member with ⟨part, isPart, isOther, isPartSpan⟩
      rw [isToken] at names ⊢
      have isChild : Markup.Node.segment argument.setting part ∈
          (Markup.Node.argument argument).children := List.mem_map_of_mem isPart
      have located := ((isNode.child isChild).exact parsed).located
      exact .atValue isPart isOther names isPartSpan.symm (isPartSpan ▸ located)

/-- An argument of a template is compiled as a calculation or as a condition, and fails for being malformed. -/
structure Raises (template : Template) (registry : Registry) (phrases : Phrases) (inclusion : Inclusion)
    (argument : Argument) (fault : Fault) (span : Span) : Prop where
  isNode : template.HasNode (.argument argument)
  fails : ∃ uses noted,
    (pendingArgument registry phrases inclusion argument).calculation.after uses =
        (.error (.here (.malformedExpression fault) span), noted) ∨
      (pendingArgument registry phrases inclusion argument).condition.after uses =
        (.error (.here (.malformedExpression fault) span), noted)

/-- Wherever a compilation is malformed, some argument of a template is, and the error points at the fault. -/
def Pointing (source : String) (template : Template) (registry : Registry) (phrases : Phrases)
    (inclusion : Inclusion) (Result : Type) (compilation : CompileM Result) : Prop :=
  ∀ uses noted fault span,
    compilation.after uses = (.error (.here (.malformedExpression fault) span), noted) →
      ∃ argument, Raises template registry phrases inclusion argument fault span ∧
        Points source.toList argument fault span

theorem points_of_malformed {Result : Type} {read : Span → List Token → Except Malformed Result}
    (blames : ∀ whole tokens malformed, read whole tokens = .error malformed → Blames whole tokens malformed)
    (parsed : Markup.parse source = .ok template)
    (has : ∀ part ∈ pendingAll registry phrases inclusion argument.parts,
      PartHas (Pointing source template registry phrases inclusion) part)
    (raises : Raises template registry phrases inclusion argument fault span) {uses noted : Uses}
    (failed : CompileM.after (expressionTokens (pendingAll registry phrases inclusion argument.parts) >>=
      fun tokens => failMalformed (read argument.span tokens)) uses =
        (.error (.here (.malformedExpression fault) span), noted)) :
    ∃ other, Raises template registry phrases inclusion other fault span ∧
      Points source.toList other fault span := by
  have known := malformed_cases
    ⟨pendingAll registry phrases inclusion argument.parts, argument.span, argument.quoted⟩
    (fun tokens malformed => blames argument.span tokens malformed) failed
  have isNode := raises.isNode
  rcases known with ofError | ⟨isEnd, isWhole⟩ | ⟨token, ofToken, names, isSpan⟩
  · cases ofError with
    | scanned member refuses isError =>
        rcases Expression.exists_scans_of_error refuses with
          ⟨pieces, first, rest, width, scans, notBlank, isRefused, isPlace⟩
        cases isError
        refine ⟨argument, raises, ?_⟩
        rw [isPlace]
        exact points_of_scans parsed isNode (mem_of_literal_mem_pendingAll member) scans
          (.refused notBlank isRefused) rfl
    | value member fails =>
        -- The error is raised by a part that is compiled by itself.
        cases has _ member with
        | deferred span all => exact all .raw _ _ _ _ fails
  · exact ⟨argument, raises, .atEnd isEnd isWhole⟩
  · exact ⟨argument, raises, isSpan ▸ points_of_token parsed isNode ofToken names⟩

end Arguments

/-! ## Whole templates -/

section Whole

variable {source : String} {template : Template} {phrases : Phrases} {inclusion : Inclusion}

theorem sequenced_pointing {registry : Registry} :
    Sequenced (Pointing source template registry phrases inclusion) where
  pure := by
    intro Result result uses noted fault span failed
    cases failed
  bind := by
    intro Result Other compilation next first second uses noted fault span failed
    rw [CompileM.after_bind] at failed
    cases ran : compilation.after uses with
    | mk outcome between =>
        rw [ran] at failed
        cases outcome with
        | ok result => exact second result _ _ _ _ failed
        | error error =>
            cases failed
            exact first _ _ _ _ ran

/-- An argument of a template, whose parts point into the template where they are malformed. -/
inductive PointingArgument (source : String) (template : Template) (phrases : Phrases) (inclusion : Inclusion) :
    PendingArgument → Prop where
  | mk {argument : Argument} (isNode : template.HasNode (.argument argument))
      (has : ∀ part ∈ pendingAll Registry.builtIn phrases inclusion argument.parts,
        PartHas (Pointing source template Registry.builtIn phrases inclusion) part) :
      PointingArgument source template phrases inclusion
        (pendingArgument Registry.builtIn phrases inclusion argument)

theorem composed_pointing (parsed : Markup.parse source = .ok template) (phrases : Phrases)
    (inclusion : Inclusion) :
    Composed (Pointing source template Registry.builtIn phrases inclusion)
      (PointingArgument source template phrases inclusion) where
  toSequenced := sequenced_pointing
  failAt := by
    intro Result cause span _ notMalformed uses noted fault place failed
    cases failed
    exact (notMalformed fault rfl).elim
  notePhrase := by
    intro name uses noted fault span failed
    cases failed
  compileArgument := by
    rintro _ ⟨isNode, has⟩ escaping
    rw [pendingArgument_eq]
    exact sequenced_pointing.compileParts has escaping
  calculation := by
    rintro _ ⟨isNode, has⟩ uses noted fault span failed
    have raises : Raises _ _ _ _ _ _ _ := ⟨isNode, uses, noted, .inl failed⟩
    rw [pendingArgument_eq] at failed
    exact points_of_malformed (fun whole _ _ => Expression.blames_of_parseCalculation whole) parsed has raises
      failed
  condition := by
    rintro _ ⟨isNode, has⟩ uses noted fault span failed
    have raises : Raises _ _ _ _ _ _ _ := ⟨isNode, uses, noted, .inr failed⟩
    rw [pendingArgument_eq] at failed
    exact points_of_malformed (fun whole _ _ => Expression.blames_of_parseCondition whole) parsed has raises
      failed

/-- Whatever a node compiles to points into the template where it is malformed. -/
def NodePoints (source : String) (template : Template) (phrases : Phrases) (inclusion : Inclusion) :
    Markup.Node → Prop
  | .segment _ segment =>
      PartHas (Pointing source template Registry.builtIn phrases inclusion)
        (pending Registry.builtIn phrases inclusion segment)
  | .branch branch =>
      PointingArgument source template phrases inclusion
          (pendingArgument Registry.builtIn phrases inclusion branch.condition) ∧
        ∀ part ∈ pendingAll Registry.builtIn phrases inclusion branch.body,
          PartHas (Pointing source template Registry.builtIn phrases inclusion) part
  | .argument argument =>
      PointingArgument source template phrases inclusion
        (pendingArgument Registry.builtIn phrases inclusion argument)

/-- What segments compile to points, if all of them are nodes that do. -/
theorem parts_point (setting : Markup.Setting) {segments : List Segment}
    (all : ∀ segment ∈ segments, NodePoints source template phrases inclusion (.segment setting segment)) :
    ∀ part ∈ pendingAll Registry.builtIn phrases inclusion segments,
      PartHas (Pointing source template Registry.builtIn phrases inclusion) part := by
  intro part member
  rcases exists_of_mem_pendingAll member with ⟨segment, isSegment, rfl⟩
  exact all segment isSegment

/-- What a segment compiles to points, if its children do and inclusions point. -/
theorem segment_points (parsed : Markup.parse source = .ok template)
    (included : ∀ name span escaping, Pointing source template Registry.builtIn phrases inclusion Code
      (inclusion name span escaping)) {setting : Markup.Setting} {segment : Segment}
    (children : ∀ child ∈ (Markup.Node.segment setting segment).children,
      NodePoints source template phrases inclusion child) :
    NodePoints source template phrases inclusion (.segment setting segment) := by
  have composed := composed_pointing parsed phrases inclusion
  cases segment with
  | literal text span => exact .literal text span
  | reference path span => exact .deferred span fun escaping => composed.pure _
  | inclusion name span => exact .deferred span (included name span)
  | call name arguments named span =>
      refine .deferred span (composed.compileCall phrases ⟨?_, ?_⟩)
      · intro argument member
        rw [pendingArguments_eq_map] at member
        rcases List.mem_map.mp member with ⟨written, isWritten, rfl⟩
        exact children _ (List.mem_append_left _ (List.mem_map_of_mem isWritten))
      · intro entry member
        rcases exists_of_mem_pendingNamed member with ⟨written, isWritten, isEntry⟩
        rw [← isEntry]
        exact children (.argument written.2) (List.mem_append_right _ (List.mem_map.mpr ⟨written, isWritten, rfl⟩))
  | choice branches otherwise span =>
      refine .deferred span (composed.compileChoice ?_ ?_)
      · intro branch member
        rcases exists_of_mem_pendingBranches member with ⟨written, isWritten, isCondition, isBody⟩
        rw [← isCondition, ← isBody]
        exact children (.branch written) (List.mem_append_left _ (List.mem_map_of_mem isWritten))
      · intro body isBody
        cases otherwise with
        | none => cases isBody
        | some segments =>
            cases isBody
            exact parts_point .body fun segment member =>
              children _ (List.mem_append_right _ (List.mem_map_of_mem member))
  | loop written value key body span =>
      have ofSource : PointingArgument source template phrases inclusion _ :=
        children (.argument written) List.mem_cons_self
      have ofBody := parts_point .body fun segment member =>
        children _ (List.mem_cons_of_mem _ (List.mem_map_of_mem member))
      refine .deferred span fun escaping => ?_
      refine composed.bind (composed.compileArgument ofSource .raw) fun sourceCode => ?_
      exact composed.bind (composed.compileParts ofBody escaping) fun bodyCode => composed.pure _

/-- The induction is on the nodes, from those without children up. -/
theorem node_points (parsed : Markup.parse source = .ok template)
    (included : ∀ name span escaping, Pointing source template Registry.builtIn phrases inclusion Code
      (inclusion name span escaping)) {node : Markup.Node} (isNode : template.HasNode node) :
    NodePoints source template phrases inclusion node := by
  induction isNode.throughout parsed with
  | @mk node _ below inductionHypothesis =>
      have children : ∀ child ∈ node.children, NodePoints source template phrases inclusion child :=
        fun child member => inductionHypothesis child member (isNode.child member)
      cases node with
      | segment setting segment => exact segment_points parsed included children
      | branch branch =>
          refine ⟨children _ List.mem_cons_self, parts_point .body fun segment member => ?_⟩
          exact children _ (List.mem_cons_of_mem _ (List.mem_map_of_mem member))
      | argument argument =>
          refine .mk isNode (parts_point argument.setting fun segment member => ?_)
          exact children _ (List.mem_map_of_mem member)

theorem pointing_throw {Result : Type} {error : CompileError}
    (other : ∀ fault span, error ≠ .here (.malformedExpression fault) span) :
    Pointing source template Registry.builtIn phrases inclusion Result (throw error) := by
  intro uses noted fault span failed
  cases failed
  exact absurd rfl (other fault span)

/-- What fails in an included template is reported as being in there. -/
theorem includeTemplate_points (source : String) (template : Template) (phrases : Phrases)
    (inclusion : Inclusion) (environment : Environment) (context : Context) (stack : List String)
    (name : String) (span : Span) (escaping : Escaping) :
    Pointing source template Registry.builtIn phrases inclusion Code
      (includeTemplate environment Registry.builtIn context stack name span escaping) := by
  rw [includeTemplate_eq]
  split
  · exact pointing_throw (by simp)
  · refine sequenced_pointing.bind ?_ fun _ => ?_
    · intro uses noted fault span failed
      cases failed
    · cases environment.template name context.style with
      | error errors =>
          rw [includeFound]
          split
          · exact pointing_throw (by simp)
          · exact sequenced_pointing.pure _
      | ok present =>
          cases present with
          | none => exact pointing_throw (by simp)
          | some included =>
              rw [includeFound]
              split
              · intro uses noted fault place failed
                rw [CompileM.after_adapt] at failed
                have isError := (Prod.mk.inj failed).1
                cases outcome : (CompileM.after _ uses).1 <;> rw [outcome] at isError <;> cases isError
              · exact sequenced_pointing.pure _

/-- Where a malformed expression in a template points: while the template is compiled in some environment, by
itself or inside others, an argument is compiled as a calculation or as a condition and is malformed.  An error
at a variable, a call or the whole argument points at it.  An error at a token of a literal points at the token
exactly if the text in front of it in the literal has no escapes, no token in front of it holds a line break,
and all characters in front of it on its line are single bytes. -/
theorem malformed_points (parsed : Markup.parse source = .ok template) (environment : Environment)
    (context : Context) (stack : List String) {escaping : Escaping} {uses noted : Uses} {fault : Fault}
    {span : Span} (failed : (compileSegments Registry.builtIn phrases
      (includeTemplate environment Registry.builtIn context stack) escaping template.segments).after uses =
        (.error (.here (.malformedExpression fault) span), noted)) :
    ∃ argument, Raises template Registry.builtIn phrases
        (includeTemplate environment Registry.builtIn context stack) argument fault span ∧
      Points source.toList argument fault span := by
  have included := includeTemplate_points source template phrases
    (includeTemplate environment Registry.builtIn context stack) environment context stack
  have parts := parts_point .body fun segment member => node_points parsed included (.top member)
  exact sequenced_pointing.compileParts parts escaping _ _ _ _ failed

end Whole

/-! ### A token behind an escaped string -/

/-- The message of an error in a calculation or a condition, with the span that it points at. -/
def malformed? {Result : Type} : Except CompileError Result → Option (String × Span)
  | .error (.here (.malformedExpression fault) span) => some (fault.message, span)
  | _ => none

theorem exists_of_malformed? {Result : Type} {outcome : Except CompileError Result} {message : String}
    {span : Span} (found : malformed? outcome = some (message, span)) :
    ∃ fault, fault.message = message ∧ outcome = .error (.here (.malformedExpression fault) span) := by
  unfold malformed? at found
  split at found
  · cases found
    exact ⟨_, rfl, rfl⟩
  · cases found

def refusedSource : String :=
  "\x7bif(\"\\\"a\\\" b\", x)\x7d"

def refusedTemplate : Template :=
  (Markup.parse refusedSource).toOption.get (by decide +kernel)

theorem parse_refusedSource : Markup.parse refusedSource = .ok refusedTemplate :=
  eq_ok_get _

def emptySite : Environment :=
  .ofSources [] []

def noPhrases : Phrases :=
  fun _ => none

def refusedCompilation : CompileM Code :=
  compileSegments Registry.builtIn noPhrases (includeTemplate emptySite Registry.builtIn ⟨0, 0, true⟩ ["page"]) .html
    refusedTemplate.segments

theorem malformed_points_refusedTemplate : ∃ fault argument,
    fault.message = "unexpected 'b'" ∧
    (refusedCompilation.after Uses.none).1 = .error (.here (.malformedExpression fault) ⟨9, 1, 10, 1⟩) ∧
    Raises refusedTemplate Registry.builtIn noPhrases
      (includeTemplate emptySite Registry.builtIn ⟨0, 0, true⟩ ["page"]) argument fault ⟨9, 1, 10, 1⟩ ∧
    Points refusedSource.toList argument fault ⟨9, 1, 10, 1⟩ := by
  have refused : malformed? (refusedCompilation.after Uses.none).1 = some ("unexpected 'b'", ⟨9, 1, 10, 1⟩) := by
    decide +kernel
  rcases exists_of_malformed? refused with ⟨fault, isMessage, isOutcome⟩
  rcases malformed_points parse_refusedSource emptySite ⟨0, 0, true⟩ ["page"] (Prod.ext isOutcome rfl) with
    ⟨argument, raises, points⟩
  exact ⟨fault, argument, isMessage, isOutcome, raises, points⟩

/-- The error at the word `b` points two bytes in front of the only `b` of the source. -/
theorem refusedTemplate_misses_token :
    Markup.parse refusedSource = .ok refusedTemplate ∧
    malformed? ((compileTemplate emptySite Registry.builtIn ⟨0, 0, true⟩ "page" refusedTemplate).mapError
      CompileFailure.error) = some ("unexpected 'b'", ⟨9, 1, 10, 1⟩) ∧
    ∀ front behind, refusedSource.toList = front ++ 'b' :: behind →
      byteLength front = 11 ∧ lineBehind front = 1 ∧ columnBehind front = 12 := by
  refine ⟨parse_refusedSource, by decide +kernel, fun front behind isSource => ?_⟩
  have only : ∀ index < refusedSource.toList.length, refusedSource.toList[index]? = some 'b' →
      byteLength (refusedSource.toList.take index) = 11 ∧ lineBehind (refusedSource.toList.take index) = 1 ∧
        columnBehind (refusedSource.toList.take index) = 12 := by
    decide +kernel
  have isHere := only front.length
  rw [isSource, List.take_left] at isHere
  exact isHere (by simp) (by simp)

end Compile
end TemplateCascade

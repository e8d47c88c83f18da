import Mathlib
import TemplateCascade.Proofs.Markup.Reading

namespace TemplateCascade
namespace Markup

/-!
# What derives is read

Tokens that the grammar derives are read by the parser, whatever they stand in front of, as long as the
construct around them can go on there.  With what is read deriving, the parser succeeds exactly on the
templates of the grammar, and its tree is the one of every derivation.
-/

open Text

/-- Something is read off the front of some tokens, and the rest is left. -/
def Reads {Result : Type} {tokens : List Token} (outcome : Except ParseError (Parsed Result tokens))
    (result : Result) (rest : List Token) : Prop :=
  ∃ shorter, outcome = .ok ⟨result, rest, shorter⟩

/-- An argument ends here. -/
def EndsArgument (rest : List Token) : Prop :=
  ∃ token behind, rest = token :: behind ∧ (token.kind = .comma ∨ token.kind = .callEnd)

/-! ## What derivations start with -/

theorem DerivesParts.kind_of_head {change : List Char → List Char} {tokens : List Token}
    {parts : List Segment} (derives : DerivesParts change tokens parts) {token : Token}
    {behind : List Token} (isHead : tokens = token :: behind) :
    token.kind = .text ∨ token.kind = .variableReference ∨ token.kind = .callStart := by
  cases derives with
  | nil => cases isHead
  | text isText more =>
      cases isHead
      exact .inl isText
  | reference isReference more =>
      cases isHead
      exact .inr (.inl isReference)
  | call first more =>
      rcases first.opens with ⟨opening, rest, _, _, _, _, rfl, opens, _⟩
      cases isHead
      exact .inr (.inr opens)

/-- Parts with what ends them behind start with no quote and with no name. -/
theorem DerivesParts.exists_head {change : List Char → List Char} {tokens rest : List Token}
    {parts : List Segment} (derives : DerivesParts change tokens parts) (ends : EndsArgument rest) :
    ∃ token behind, tokens ++ rest = token :: behind ∧ token.kind ≠ .quoteOpen ∧
      token.kind ≠ .argumentName := by
  rcases tokens with _ | ⟨token, behind⟩
  · rcases ends with ⟨token, behind, rfl, kind⟩
    refine ⟨token, behind, rfl, ?_, ?_⟩
    · rcases kind with kind | kind <;> simp [kind]
    · rcases kind with kind | kind <;> simp [kind]
  · refine ⟨token, behind ++ rest, rfl, ?_, ?_⟩
    · rcases derives.kind_of_head rfl with kind | kind | kind <;> simp [kind]
    · rcases derives.kind_of_head rfl with kind | kind | kind <;> simp [kind]

theorem DerivesCall.length_pos {used : List Token} {call : Segment} (derives : DerivesCall used call) :
    0 < used.length := by
  rcases derives.opens with ⟨_, _, _, _, _, _, rfl, _, _⟩
  exact Nat.succ_pos _

/-- A value with what ends its argument behind starts with no name. -/
theorem DerivesValue.exists_head {start : Span} {tokens rest : List Token} {value : Argument}
    (derives : DerivesValue start tokens value) (ends : EndsArgument rest) :
    ∃ token behind, tokens ++ rest = token :: behind ∧ token.kind ≠ .argumentName := by
  cases derives with
  | quoted opens content closes blank => exact ⟨_, _, rfl, by simp [opens]⟩
  | plain content =>
      rcases content.exists_head ends with ⟨token, behind, whole, _, notName⟩
      exact ⟨token, behind, whole, notName⟩

/-- No argument without a name that derives is missing. -/
theorem present_of_derives {tokens : List Token} {read : List NamedArgument} :
    DerivesArguments tokens read → ∀ value, (none, value) ∈ read → value.isMissing = false
  | .one only => by
      intro value member
      cases List.mem_singleton.mp member
      cases only with
      | positional content present => exact Bool.eq_false_iff.mpr (mt content.isMissing_iff.mp present)
  | .more first isComma behind => by
      intro value member
      rcases List.mem_cons.mp member with rfl | later
      · cases first with
        | positional content present => exact Bool.eq_false_iff.mpr (mt content.isMissing_iff.mp present)
      · exact present_of_derives behind value later

/-! ## One token at a time -/

section Steps

variable {finish token opening closing comma : Token} {tokens behind left rest : List Token}
  {parts : List Segment} {call : Segment} {value : Argument} {start span : Span}

theorem skipBlankText_ends (ends : EndsArgument rest) : Reads (skipBlankText rest) () rest := by
  rcases ends with ⟨token, behind, rfl, kind⟩
  have notText : token.kind ≠ .text := by
    rcases kind with kind | kind <;> simp [kind]
  refine ⟨Nat.le_refl _, ?_⟩
  rw [skipBlankText, if_neg notText]
  rfl

theorem skipBlankText_blank (isText : token.kind = .text)
    (blank : ∀ character ∈ token.lexeme, isBlank character = true)
    (more : Reads (skipBlankText behind) () rest) : Reads (skipBlankText (token :: behind)) () rest := by
  rcases more with ⟨shorter, ran⟩
  refine ⟨Nat.le_succ_of_le shorter, ?_⟩
  rw [skipBlankText, if_pos isText, trimBlanks_eq_nil_iff.mpr blank, if_pos List.isEmpty_nil, ran]
  rfl

theorem parseParts_ends (ends : EndsArgument rest) : Reads (parseParts finish rest) [] rest := by
  rcases ends with ⟨token, behind, rfl, kind⟩
  refine ⟨Nat.le_refl _, ?_⟩
  rw [parseParts]
  rcases kind with kind | kind <;> rw [kind] <;> rfl

theorem parseParts_text (isText : token.kind = .text) (more : Reads (parseParts finish behind) parts rest) :
    Reads (parseParts finish (token :: behind))
      (Segment.consLiteral (String.ofList token.lexeme) token.span parts) rest := by
  rcases more with ⟨shorter, ran⟩
  refine ⟨Nat.le_succ_of_le shorter, ?_⟩
  rw [parseParts, isText]
  dsimp only
  rw [ran]
  rfl

theorem parseParts_reference (isReference : token.kind = .variableReference)
    (more : Reads (parseParts finish behind) parts rest) :
    Reads (parseParts finish (token :: behind)) (referenceOf token :: parts) rest := by
  rcases more with ⟨shorter, ran⟩
  refine ⟨Nat.le_succ_of_le shorter, ?_⟩
  rw [parseParts, isReference]
  dsimp only
  rw [ran]
  rfl

theorem parseParts_call (opens : token.kind = .callStart)
    (first : Reads (parseCall finish token behind) call left)
    (more : Reads (parseParts finish left) parts rest) :
    Reads (parseParts finish (token :: behind)) (call :: parts) rest := by
  rcases first with ⟨shorter, ranFirst⟩
  rcases more with ⟨shorterStill, ran⟩
  refine ⟨Nat.le_succ_of_le (shorterStill.trans shorter), ?_⟩
  rw [parseParts, opens]
  dsimp only
  rw [ranFirst]
  dsimp only [bind, Except.bind]
  rw [ran]

theorem parseQuoted_closes {quote : Char} (closes : closing.kind = .quoteClose) :
    Reads (parseQuoted finish quote (closing :: rest)) ([], closing.span) rest := by
  refine ⟨Nat.le_succ _, ?_⟩
  rw [parseQuoted, closes]
  rfl

theorem parseQuoted_text {quote : Char} (isText : token.kind = .text)
    (more : Reads (parseQuoted finish quote behind) (parts, span) rest) :
    Reads (parseQuoted finish quote (token :: behind))
      (Segment.consLiteral (String.ofList (unescape token.lexeme)) token.span parts, span) rest := by
  rcases more with ⟨shorter, ran⟩
  refine ⟨Nat.le_succ_of_le shorter, ?_⟩
  rw [parseQuoted, isText]
  dsimp only
  rw [ran]
  rfl

theorem parseQuoted_reference {quote : Char} (isReference : token.kind = .variableReference)
    (more : Reads (parseQuoted finish quote behind) (parts, span) rest) :
    Reads (parseQuoted finish quote (token :: behind)) (referenceOf token :: parts, span) rest := by
  rcases more with ⟨shorter, ran⟩
  refine ⟨Nat.le_succ_of_le shorter, ?_⟩
  rw [parseQuoted, isReference]
  dsimp only
  rw [ran]
  rfl

theorem parseQuoted_call {quote : Char} (opens : token.kind = .callStart)
    (first : Reads (parseCall finish token behind) call left)
    (more : Reads (parseQuoted finish quote left) (parts, span) rest) :
    Reads (parseQuoted finish quote (token :: behind)) (call :: parts, span) rest := by
  rcases first with ⟨shorter, ranFirst⟩
  rcases more with ⟨shorterStill, ran⟩
  refine ⟨Nat.le_succ_of_le (shorterStill.trans shorter), ?_⟩
  rw [parseQuoted, opens]
  dsimp only
  rw [ranFirst]
  dsimp only [bind, Except.bind]
  rw [ran]

theorem parseValue_quoted (opens : token.kind = .quoteOpen)
    (content : Reads (parseQuoted finish (token.lexeme.headD '"') behind) (parts, span) left)
    (blank : Reads (skipBlankText left) () rest) :
    Reads (parseValue finish start (token :: behind)) ⟨parts, token.span.merge span, true⟩ rest := by
  rcases content with ⟨shorter, ranContent⟩
  rcases blank with ⟨shorterStill, ran⟩
  refine ⟨Nat.le_succ_of_le (shorterStill.trans shorter), ?_⟩
  rw [parseValue, if_pos opens, ranContent]
  dsimp only [bind, Except.bind]
  rw [ran]

theorem parseValue_plain (notQuoted : token.kind ≠ .quoteOpen)
    (content : Reads (parseParts finish (token :: behind)) parts rest) :
    Reads (parseValue finish start (token :: behind))
      ⟨trimParts parts, partsSpan start (trimParts parts), false⟩ rest := by
  rcases content with ⟨shorter, ran⟩
  refine ⟨shorter, ?_⟩
  rw [parseValue, if_neg notQuoted, ran]
  rfl

theorem parseArgument_named (isName : token.kind = .argumentName)
    (content : Reads (parseValue finish token.span behind) value rest) :
    Reads (parseArgument finish (token :: behind)) (some (argumentName token), value) rest := by
  rcases content with ⟨shorter, ran⟩
  refine ⟨Nat.le_succ_of_le shorter, ?_⟩
  rw [parseArgument, if_pos isName, ran]
  rfl

theorem parseArgument_positional (notName : token.kind ≠ .argumentName)
    (content : Reads (parseValue finish token.span (token :: behind)) value rest) :
    Reads (parseArgument finish (token :: behind)) (none, value) rest := by
  rcases content with ⟨shorter, ran⟩
  refine ⟨shorter, ?_⟩
  rw [parseArgument, if_neg notName, ran]
  rfl

theorem parseArguments_one {name : String} {argument : NamedArgument} (closes : closing.kind = .callEnd)
    (only : Reads (parseArgument finish tokens) argument (closing :: rest)) :
    Reads (parseArguments finish name tokens) ([argument], closing.span) rest := by
  rcases only with ⟨shorter, ran⟩
  refine ⟨Nat.le_of_succ_le shorter, ?_⟩
  rw [parseArguments, ran]
  dsimp only [bind, Except.bind]
  rw [closes]

theorem parseArguments_more {name : String} {argument : NamedArgument} {others : List NamedArgument}
    (isComma : comma.kind = .comma) (first : Reads (parseArgument finish tokens) argument (comma :: left))
    (more : Reads (parseArguments finish name left) (others, span) rest) :
    Reads (parseArguments finish name tokens) (argument :: others, span) rest := by
  rcases first with ⟨shorter, ranFirst⟩
  rcases more with ⟨shorterStill, ran⟩
  refine ⟨shorterStill.trans (Nat.le_of_succ_le shorter), ?_⟩
  rw [parseArguments, ranFirst]
  dsimp only [bind, Except.bind]
  rw [isComma]
  dsimp only
  rw [ran]

theorem parseCall_reads_of {read : List NamedArgument}
    (arguments : Reads (parseArguments finish (functionName opening) tokens) (read, span) rest)
    (assembled : assembleCall (functionName opening) read (opening.span.merge span) = .ok call) :
    Reads (parseCall finish opening tokens) call rest := by
  rcases arguments with ⟨shorter, ran⟩
  refine ⟨shorter, ?_⟩
  rw [parseCall, ran]
  dsimp only [bind, Except.bind]
  rw [assembled]

end Steps

/-! ## Blank arguments -/

theorem skipBlankText_reads {blanks rest : List Token} (blank : AllBlank blanks)
    (ends : EndsArgument rest) : Reads (skipBlankText (blanks ++ rest)) () rest := by
  induction blanks with
  | nil => exact skipBlankText_ends ends
  | cons token behind inductionHypothesis =>
      have blank := List.forall_mem_cons.mp blank
      exact skipBlankText_blank blank.1.1 blank.1.2 (inductionHypothesis blank.2)

/-- A call of blank tokens is read as a single argument, which is missing. -/
theorem parseArguments_blank {finish closing : Token} {name : String} {tokens rest : List Token}
    (blank : AllBlank tokens) (closes : closing.kind = .callEnd) : ∃ value, value.isMissing = true ∧
      Reads (parseArguments finish name (tokens ++ closing :: rest)) ([(none, value)], closing.span) rest := by
  have ends : EndsArgument (closing :: rest) := ⟨closing, rest, rfl, .inr closes⟩
  have content : ∃ raw, (∀ part ∈ raw, Segment.IsBlank part) ∧
      Reads (parseParts finish (tokens ++ closing :: rest)) (joinLiterals raw) (closing :: rest) := by
    induction tokens with
    | nil => exact ⟨[], nofun, parseParts_ends ends⟩
    | cons token behind inductionHypothesis =>
        have blank := List.forall_mem_cons.mp blank
        rcases inductionHypothesis blank.2 with ⟨raw, rawBlank, reads⟩
        refine ⟨.literal (String.ofList token.lexeme) token.span :: raw,
          List.forall_mem_cons.mpr ⟨?_, rawBlank⟩, parseParts_text blank.1.1 reads⟩
        rw [isBlank_literal, String.toList_ofList]
        exact blank.1.2
  rcases content with ⟨raw, rawBlank, reads⟩
  have head : ∃ token behind, tokens ++ closing :: rest = token :: behind ∧ token.kind ≠ .quoteOpen ∧
      token.kind ≠ .argumentName := by
    rcases tokens with _ | ⟨token, behind⟩
    · exact ⟨closing, rest, rfl, by simp [closes], by simp [closes]⟩
    · have isText := (blank token List.mem_cons_self).1
      exact ⟨token, behind ++ closing :: rest, rfl, by simp [isText], by simp [isText]⟩
  rcases head with ⟨token, behind, whole, notQuoted, notName⟩
  rw [whole] at reads ⊢
  refine ⟨_, ?_, parseArguments_one closes
    (parseArgument_positional notName (parseValue_plain notQuoted reads))⟩
  rw [trimParts_joinLiterals.mpr rawBlank]
  rfl

theorem partsSpan_eq {start other : Span} {parts : List Segment} (isPart : parts ≠ []) :
    partsSpan start parts = partsSpan other parts := by
  rcases parts with _ | ⟨first, rest⟩
  · exact absurd rfl isPart
  · unfold partsSpan
    rw [List.head?_cons, List.getLast?_cons]

/-! ## Inline constructs -/

mutual

theorem parseParts_reads {tokens : List Token} {parts : List Segment} :
    DerivesParts id tokens parts → ∀ (finish : Token) {rest : List Token}, EndsArgument rest →
      Reads (parseParts finish (tokens ++ rest)) (joinLiterals parts) rest
  | .nil => fun finish _ ends => parseParts_ends ends
  | .text isText more => fun finish _ ends => parseParts_text isText (parseParts_reads more finish ends)
  | .reference isReference more => fun finish _ ends =>
      parseParts_reference isReference (parseParts_reads more finish ends)
  | .call first more => fun finish rest ends => by
      have isUsed := first.length_pos
      have others := parseParts_reads more finish ends
      rcases parseCall_reads first finish with ⟨opening, behind, rfl, opens, reads⟩
      rw [first.joinLiterals_eq, List.append_assoc]
      exact parseParts_call opens (reads _) others
termination_by 8 * tokens.length + 1
decreasing_by
  all_goals try simp only [List.length_cons, List.length_append]
  all_goals omega

theorem parseQuoted_reads {tokens : List Token} {parts : List Segment} :
    DerivesParts unescape tokens parts → ∀ (finish : Token) (quote : Char) {closing : Token}
      (rest : List Token), closing.kind = .quoteClose →
      Reads (parseQuoted finish quote (tokens ++ closing :: rest)) (joinLiterals parts, closing.span) rest
  | .nil => fun finish _ _ _ closes => parseQuoted_closes closes
  | .text isText more => fun finish quote _ rest closes =>
      parseQuoted_text isText (parseQuoted_reads more finish quote rest closes)
  | .reference isReference more => fun finish quote _ rest closes =>
      parseQuoted_reference isReference (parseQuoted_reads more finish quote rest closes)
  | .call first more => fun finish quote closing rest closes => by
      have isUsed := first.length_pos
      have others := parseQuoted_reads more finish quote rest closes
      rcases parseCall_reads first finish with ⟨opening, behind, rfl, opens, reads⟩
      rw [first.joinLiterals_eq, List.append_assoc]
      exact parseQuoted_call opens (reads _) others
termination_by 8 * tokens.length + 1
decreasing_by
  all_goals try simp only [List.length_cons, List.length_append]
  all_goals omega

theorem parseCall_reads {used : List Token} {call : Segment} :
    DerivesCall used call → ∀ finish : Token, ∃ opening behind, used = opening :: behind ∧
      opening.kind = .callStart ∧ ∀ rest, Reads (parseCall finish opening (behind ++ rest)) call rest
  | .bare opens blank closes => fun finish => by
      refine ⟨_, _, rfl, opens, fun rest => ?_⟩
      rcases parseArguments_blank blank closes with ⟨value, missing, reads⟩
      rw [List.append_assoc]
      exact parseCall_reads_of reads (assembleCall_eq_ok_iff.mpr (.inl ⟨value, rfl, missing, rfl⟩))
  | .filled opens arguments closes => fun finish => by
      refine ⟨_, _, rfl, opens, fun rest => ?_⟩
      rw [List.append_assoc]
      exact parseCall_reads_of (parseArguments_reads arguments finish _ rest closes)
        (assembleCall_eq_ok_iff.mpr (.inr ⟨present_of_derives arguments, rfl⟩))
termination_by 8 * used.length
decreasing_by
  all_goals try simp only [List.length_cons, List.length_append]
  all_goals omega

theorem parseArguments_reads {tokens : List Token} {read : List NamedArgument} :
    DerivesArguments tokens read → ∀ (finish : Token) (name : String) {closing : Token} (rest : List Token),
      closing.kind = .callEnd →
      Reads (parseArguments finish name (tokens ++ closing :: rest)) (read, closing.span) rest
  | .one only => fun finish _ closing rest closes => by
      have ends : EndsArgument (closing :: rest) := ⟨closing, rest, rfl, .inr closes⟩
      exact parseArguments_one closes (parseArgument_reads only finish ends)
  | @DerivesArguments.more comma _ used _ _ first isComma behind => fun finish name closing rest closes => by
      have others := parseArguments_reads behind finish name rest closes
      have ends : EndsArgument (comma :: (used ++ closing :: rest)) := ⟨comma, _, rfl, .inl isComma⟩
      rw [List.append_assoc, List.cons_append]
      exact parseArguments_more isComma (parseArgument_reads first finish ends) others
termination_by 8 * tokens.length + 4
decreasing_by
  all_goals try simp only [List.length_cons, List.length_append]
  all_goals omega

theorem parseArgument_reads {tokens : List Token} {argument : NamedArgument} :
    DerivesArgument tokens argument → ∀ (finish : Token) {rest : List Token}, EndsArgument rest →
      Reads (parseArgument finish (tokens ++ rest)) argument rest
  | .named isName content => fun finish _ ends =>
      parseArgument_named isName (parseValue_reads content finish _ ends (.inl rfl))
  | .positional content present => fun finish rest ends => by
      rcases content.exists_head ends with ⟨token, behind, whole, notName⟩
      have reads := parseValue_reads content finish token.span ends (.inr present)
      rw [whole] at reads ⊢
      exact parseArgument_positional notName reads
termination_by 8 * tokens.length + 3
decreasing_by
  all_goals try simp only [List.length_cons]
  all_goals omega

theorem parseValue_reads {start : Span} {tokens : List Token} {value : Argument} :
    DerivesValue start tokens value → ∀ (finish : Token) (other : Span) {rest : List Token},
      EndsArgument rest → other = start ∨ ¬ AllBlank tokens →
      Reads (parseValue finish other (tokens ++ rest)) value rest
  | .quoted opens content closes blank => fun finish other rest ends _ => by
      rw [List.cons_append, List.append_assoc, List.cons_append]
      exact parseValue_quoted opens (parseQuoted_reads content finish _ _ closes)
        (skipBlankText_reads blank ends)
  | @DerivesValue.plain start tokens parts content => fun finish other rest ends isStart => by
      rcases content.exists_head ends with ⟨token, behind, whole, notQuoted, _⟩
      have reads := parseParts_reads content finish ends
      rw [whole] at reads ⊢
      have spans : partsSpan start (trimParts (joinLiterals parts)) =
          partsSpan other (trimParts (joinLiterals parts)) := by
        rcases isStart with rfl | present
        · rfl
        · refine partsSpan_eq fun nothing => present ?_
          rw [← content.isBlank_iff]
          exact trimParts_joinLiterals.mp nothing
      rw [spans]
      exact parseValue_plain notQuoted reads
termination_by 8 * tokens.length + 2
decreasing_by
  all_goals try simp only [List.length_cons, List.length_append]
  all_goals omega

end

/-! ## Tags -/

section Steps

variable {finish token name opening ending closing : Token} {tokens behind left rest : List Token}
  {parts : List Segment} {block call : Segment} {attributes read : Attributes} {span : Span}

theorem parseAttributes_ends {known : Attributes} (ends : ending.kind = .tagEnd ∨ ending.kind = .tagSelfClose) :
    Reads (parseAttributes finish known (ending :: rest)) (known, ending) rest := by
  refine ⟨Nat.le_succ _, ?_⟩
  rw [parseAttributes]
  rcases ends with kind | kind <;> rw [kind] <;> rfl

theorem parseAttributes_more {known : Attributes} (isName : name.kind = .attributeName)
    (content : Reads (parseQuoted finish '"' behind) (parts, span) left)
    (more : Reads (parseAttributes finish
      (putEntry known (attributeNameOf name) ⟨parts, name.span.merge span, true⟩) left) (read, ending) rest) :
    Reads (parseAttributes finish known (name :: behind)) (read, ending) rest := by
  rcases content with ⟨shorter, ranContent⟩
  rcases more with ⟨shorterStill, ran⟩
  refine ⟨Nat.le_succ_of_le (shorterStill.trans shorter), ?_⟩
  rw [parseAttributes, isName]
  dsimp only
  rw [ranContent]
  dsimp only [bind, Except.bind]
  rw [ran]

/-! ## Bodies and blocks, one token at a time -/

theorem parseBody_stops (stops : Stops rest) : Reads (parseBody finish rest) [] rest := by
  refine ⟨Nat.le_refl _, ?_⟩
  rcases rest with _ | ⟨token, behind⟩
  · rw [parseBody]
    rfl
  · rw [parseBody]
    rcases stops token behind rfl with closes | isBranch
    · rw [closes]
      rfl
    · have opens : token.kind = .tagStart := by
        rw [isBranchTag, Bool.and_eq_true, decide_eq_true_iff] at isBranch
        exact isBranch.1
      rw [opens]
      dsimp only
      rw [if_pos isBranch]
      rfl

theorem parseBody_text (isText : token.kind = .text) (more : Reads (parseBody finish behind) parts rest) :
    Reads (parseBody finish (token :: behind))
      (Segment.consLiteral (String.ofList token.lexeme) token.span parts) rest := by
  rcases more with ⟨shorter, ran⟩
  refine ⟨Nat.le_succ_of_le shorter, ?_⟩
  rw [parseBody, isText]
  dsimp only
  rw [ran]
  rfl

theorem parseBody_reference (isReference : token.kind = .variableReference)
    (more : Reads (parseBody finish behind) parts rest) :
    Reads (parseBody finish (token :: behind)) (referenceOf token :: parts) rest := by
  rcases more with ⟨shorter, ran⟩
  refine ⟨Nat.le_succ_of_le shorter, ?_⟩
  rw [parseBody, isReference]
  dsimp only
  rw [ran]
  rfl

theorem parseBody_call (opens : token.kind = .callStart)
    (first : Reads (parseCall finish token behind) call left)
    (more : Reads (parseBody finish left) parts rest) :
    Reads (parseBody finish (token :: behind)) (call :: parts) rest := by
  rcases first with ⟨shorter, ranFirst⟩
  rcases more with ⟨shorterStill, ran⟩
  refine ⟨Nat.le_succ_of_le (shorterStill.trans shorter), ?_⟩
  rw [parseBody, opens]
  dsimp only
  rw [ranFirst]
  dsimp only [bind, Except.bind]
  rw [ran]

theorem parseBody_block (opens : token.kind = .tagStart) (notBranch : isBranchTag token = false)
    (first : Reads (parseBlock finish token behind) block left)
    (more : Reads (parseBody finish left) parts rest) :
    Reads (parseBody finish (token :: behind)) (block :: parts) rest := by
  rcases first with ⟨shorter, ranFirst⟩
  rcases more with ⟨shorterStill, ran⟩
  refine ⟨Nat.le_succ_of_le (shorterStill.trans shorter), ?_⟩
  rw [parseBody, opens]
  dsimp only
  rw [if_neg (by simp [notBranch]), ranFirst]
  dsimp only [bind, Except.bind]
  rw [ran]

theorem parseBlock_choice {condition : Argument} {branches : List Branch}
    {otherwise : Option (List Segment)} (isIf : openedTag opening = "if")
    (tag : Reads (parseAttributes finish [] tokens) ([("is", condition)], ending) left)
    (isOpen : ending.kind = .tagEnd)
    (more : Reads (parseBranches finish opening (some (condition, opening.span)) left)
      (branches, otherwise, span) rest) :
    Reads (parseBlock finish opening tokens) (.choice branches otherwise (opening.span.merge span)) rest := by
  rcases tag with ⟨shorter, ranTag⟩
  rcases more with ⟨shorterStill, ran⟩
  have opened : requireOpen opening ending = .ok () := requireOpen_eq_ok_iff.mpr (by simp [isOpen])
  refine ⟨shorterStill.trans shorter, ?_⟩
  rw [parseBlock, ranTag]
  dsimp only [bind, Except.bind]
  rw [isIf]
  rw [opened]
  dsimp only
  rw [branchCondition_eq_ok_iff.mpr rfl]
  dsimp only
  rw [ran]
  rfl

theorem parseBlock_loop {source : Argument} {value : String} {key : Option String}
    (isLoop : openedTag opening = "foreach")
    (tag : Reads (parseAttributes finish [] tokens) (attributes, ending) left)
    (isOpen : ending.kind = .tagEnd) (loops : LoopOf attributes source value key)
    (body : Reads (parseBody finish left) parts (closing :: rest)) (closes : Closes closing "foreach") :
    Reads (parseBlock finish opening tokens)
      (.loop source value key parts (opening.span.merge closing.span)) rest := by
  rcases tag with ⟨shorter, ranTag⟩
  rcases body with ⟨shorterStill, ran⟩
  have opened : requireOpen opening ending = .ok () := requireOpen_eq_ok_iff.mpr (by simp [isOpen])
  have isMatching : requireMatching opening closing = .ok () :=
    requireMatching_eq_ok_iff.mpr (isLoop.trans closes.isNamed.symm)
  refine ⟨(Nat.le_of_succ_le shorterStill).trans shorter, ?_⟩
  rw [parseBlock, ranTag]
  dsimp only [bind, Except.bind]
  rw [isLoop]
  rw [opened]
  dsimp only
  rw [loopHead_eq_ok_iff.mpr loops]
  dsimp only
  rw [ran]
  dsimp only
  rw [if_pos closes.kind, isMatching]
  rfl

theorem parseBlock_inclusion {value : Argument} {text : String} (isInclude : openedTag opening = "include")
    (tag : Reads (parseAttributes finish [] tokens) ([("template", value)], ending) rest)
    (isClosed : ending.kind = .tagSelfClose) (literal : value.literalText? = some text)
    (present : trim text ≠ "") :
    Reads (parseBlock finish opening tokens)
      (.inclusion (trim text) (opening.span.merge ending.span)) rest := by
  rcases tag with ⟨shorter, ranTag⟩
  refine ⟨shorter, ?_⟩
  rw [parseBlock, ranTag]
  dsimp only [bind, Except.bind]
  rw [isInclude]
  rw [parseInclusion_eq_ok_iff.mpr ⟨isClosed, value, text, rfl, literal, present, rfl⟩]
  rfl

theorem parseBranches_closes {condition : Argument}
    (body : Reads (parseBody finish tokens) parts (closing :: rest))
    (closes : Closes closing (openedTag opening)) :
    Reads (parseBranches finish opening (some (condition, span)) tokens)
      ([⟨condition, parts, span⟩], none, closing.span) rest := by
  rcases body with ⟨shorter, ran⟩
  refine ⟨Nat.le_of_succ_le shorter, ?_⟩
  rw [parseBranches, ran]
  dsimp only [bind, Except.bind]
  rw [closes.kind]
  dsimp only
  rw [requireMatching_eq_ok_iff.mpr closes.isNamed.symm]

theorem parseBranches_last (body : Reads (parseBody finish tokens) parts (closing :: rest))
    (closes : Closes closing (openedTag opening)) :
    Reads (parseBranches finish opening none tokens) ([], some parts, closing.span) rest := by
  rcases body with ⟨shorter, ran⟩
  refine ⟨Nat.le_of_succ_le shorter, ?_⟩
  rw [parseBranches, ran]
  dsimp only [bind, Except.bind]
  rw [closes.kind]
  dsimp only
  rw [requireMatching_eq_ok_iff.mpr closes.isNamed.symm]

theorem parseBranches_elseif {condition next : Argument} {branches : List Branch}
    {otherwise : Option (List Segment)} {last : Span}
    (body : Reads (parseBody finish tokens) parts (token :: behind)) (opens : token.kind = .tagStart)
    (isElseif : openedTag token = "elseif")
    (tag : Reads (parseAttributes finish [] behind) ([("is", next)], ending) left)
    (isClosed : ending.kind = .tagSelfClose)
    (more : Reads (parseBranches finish opening (some (next, token.span)) left)
      (branches, otherwise, last) rest) :
    Reads (parseBranches finish opening (some (condition, span)) tokens)
      (⟨condition, parts, span⟩ :: branches, otherwise, last) rest := by
  rcases body with ⟨shorter, ranBody⟩
  rcases tag with ⟨shorterTag, ranTag⟩
  rcases more with ⟨shorterStill, ran⟩
  refine ⟨(shorterStill.trans shorterTag).trans (Nat.le_of_succ_le shorter), ?_⟩
  rw [parseBranches, ranBody]
  dsimp only [bind, Except.bind]
  rw [opens]
  dsimp only
  rw [ranTag]
  dsimp only
  rw [requireSelfClosing_eq_ok_iff.mpr isClosed]
  dsimp only
  rw [if_neg (by simp), if_pos isElseif, branchCondition_eq_ok_iff.mpr rfl]
  dsimp only [pure, Except.pure]
  rw [ran]

theorem parseBranches_else {condition : Argument} {branches : List Branch}
    {otherwise : Option (List Segment)} {last : Span}
    (body : Reads (parseBody finish tokens) parts (token :: behind)) (opens : token.kind = .tagStart)
    (isElse : openedTag token = "else")
    (tag : Reads (parseAttributes finish [] behind) ([], ending) left)
    (isClosed : ending.kind = .tagSelfClose)
    (more : Reads (parseBranches finish opening none left) (branches, otherwise, last) rest) :
    Reads (parseBranches finish opening (some (condition, span)) tokens)
      (⟨condition, parts, span⟩ :: branches, otherwise, last) rest := by
  rcases body with ⟨shorter, ranBody⟩
  rcases tag with ⟨shorterTag, ranTag⟩
  rcases more with ⟨shorterStill, ran⟩
  refine ⟨(shorterStill.trans shorterTag).trans (Nat.le_of_succ_le shorter), ?_⟩
  rw [parseBranches, ranBody]
  dsimp only [bind, Except.bind]
  rw [opens]
  dsimp only
  rw [ranTag]
  dsimp only
  rw [requireSelfClosing_eq_ok_iff.mpr isClosed]
  dsimp only
  rw [if_neg (by simp), if_neg (by simp [isElse])]
  dsimp only [pure, Except.pure, refuseExtra]
  rw [ran]

end Steps

/-! ## Blocks that derive -/

theorem parseAttributes_reads {used : List Token} {entries : Attributes}
    (derives : DerivesAttributes used entries) (finish : Token) {ending : Token} (rest : List Token)
    (ends : ending.kind = .tagEnd ∨ ending.kind = .tagSelfClose) (known : Attributes) :
    Reads (parseAttributes finish known (used ++ ending :: rest))
      (entries.foldl (fun known entry => putEntry known entry.1 entry.2) known, ending) rest := by
  induction derives generalizing known with
  | nil => exact parseAttributes_ends ends
  | cons isName content closes more inductionHypothesis =>
      rw [List.cons_append, List.append_assoc, List.cons_append]
      exact parseAttributes_more isName (parseQuoted_reads content finish '"' _ closes) (inductionHypothesis _)

/-- A tag is read behind the token that opens it. -/
theorem DerivesTag.reads {opening ending : Token} {name : String} {used : List Token}
    {attributes : Attributes} (derives : DerivesTag opening name ending used attributes)
    (ends : ending.kind = .tagEnd ∨ ending.kind = .tagSelfClose) :
    ∃ behind, used = opening :: behind ∧ opening.kind = .tagStart ∧ openedTag opening = name ∧
      ∀ finish rest, Reads (parseAttributes finish [] (behind ++ rest)) (attributes, ending) rest := by
  rcases derives with @⟨tokens, entries, opens, isNamed, listed⟩
  refine ⟨tokens ++ [ending], rfl, opens, isNamed, fun finish rest => ?_⟩
  rw [List.append_assoc, ← foldl_putEntry]
  exact parseAttributes_reads listed finish rest ends []

theorem stops_of_closes {closing : Token} {name : String} {rest : List Token} (closes : Closes closing name) :
    Stops (closing :: rest) := by
  rintro _ _ ⟨⟩
  exact .inl closes.kind

theorem stops_of_tag {opening : Token} {rest : List Token} (opens : opening.kind = .tagStart)
    (isNamed : openedTag opening = "elseif" ∨ openedTag opening = "else") : Stops (opening :: rest) := by
  rintro _ _ ⟨⟩
  right
  rcases isNamed with isNamed | isNamed <;> simp [isBranchTag, opens, isNamed]

theorem DerivesOtherwise.stops {used : List Token} {otherwise : Option (List Segment)}
    (derives : DerivesOtherwise used otherwise) {rest : List Token} (stops : Stops rest) :
    Stops (used ++ rest) := by
  cases derives with
  | none => exact stops
  | some head isClosed body =>
      rcases head.reads (.inr isClosed) with ⟨behind, rfl, opens, isElse, _⟩
      exact stops_of_tag opens (.inr isElse)

theorem DerivesBranches.stops {used : List Token} {branches : List Branch}
    (derives : DerivesBranches used branches) {rest : List Token} (stops : Stops rest) :
    Stops (used ++ rest) := by
  cases derives with
  | nil => exact stops
  | cons head isClosed body more =>
      rcases head.reads (.inr isClosed) with ⟨behind, rfl, opens, isElseif, _⟩
      exact stops_of_tag opens (.inl isElseif)

/-- A body is read wherever it ends. -/
def BodyReads (finish : Token) (tokens : List Token) (parts : List Segment) : Prop :=
  ∀ rest, Stops rest → Reads (parseBody finish (tokens ++ rest)) parts rest

/-- What follows the first body of a choice is read with it. -/
def ChoiceReads (finish opening closing : Token) (tokens : List Token) (branches : List Branch)
    (otherwise : Option (List Segment)) : Prop :=
  ∀ (condition : Argument) (span : Span) (body : List Token) (parts : List Segment) (rest : List Token),
    BodyReads finish body parts →
      Reads (parseBranches finish opening (some (condition, span)) (body ++ (tokens ++ closing :: rest)))
        (⟨condition, parts, span⟩ :: branches, otherwise, closing.span) rest

mutual

theorem parseBody_reads {tokens : List Token} {parts : List Segment} :
    DerivesBody tokens parts → ∀ finish : Token, BodyReads finish tokens (joinLiterals parts)
  | .nil => fun _ _ stops => parseBody_stops stops
  | .text isText more => fun finish rest stops => parseBody_text isText (parseBody_reads more finish rest stops)
  | .reference isReference more => fun finish rest stops =>
      parseBody_reference isReference (parseBody_reads more finish rest stops)
  | .call first more => fun finish rest stops => by
      have others := parseBody_reads more finish rest stops
      rcases parseCall_reads first finish with ⟨opening, behind, rfl, opens, reads⟩
      rw [first.joinLiterals_eq, List.append_assoc]
      exact parseBody_call opens (reads _) others
  | .block first more => fun finish rest stops => by
      have others := parseBody_reads more finish rest stops
      rcases parseBlock_reads first finish with ⟨opening, behind, rfl, opens, notBranch, reads⟩
      rw [first.joinLiterals_eq, List.append_assoc]
      exact parseBody_block opens notBranch (reads _) others

theorem parseBlock_reads {used : List Token} {block : Segment} :
    DerivesBlock used block → ∀ finish : Token, ∃ opening behind, used = opening :: behind ∧
      opening.kind = .tagStart ∧ isBranchTag opening = false ∧
        ∀ rest, Reads (parseBlock finish opening (behind ++ rest)) block rest
  | @DerivesBlock.choice opening _ _ _ _ _ _ condition _ _ _ head isOpen body more last closes =>
      fun finish => by
      rcases head.reads (.inl isOpen) with ⟨behind, rfl, opens, isIf, tag⟩
      have bodyReads := parseBody_reads body finish
      have closes : Closes _ (openedTag _) := isIf ▸ closes
      have lastReads := parseOtherwise_reads last finish closes
      have choiceReads := parseBranches_reads more finish last closes lastReads
      refine ⟨_, _, List.cons_append, opens, by simp [isBranchTag, isIf], fun rest => ?_⟩
      have reads := choiceReads condition opening.span _ _ rest bodyReads
      rw [List.append_assoc] at reads
      rw [List.append_assoc, List.append_assoc, List.append_assoc, List.append_assoc]
      exact parseBlock_choice isIf (tag _ _) isOpen reads
  | .loop head isOpen loops body closes => fun finish => by
      rcases head.reads (.inl isOpen) with ⟨behind, rfl, opens, isLoop, tag⟩
      have bodyReads := parseBody_reads body finish
      refine ⟨_, _, List.cons_append, opens, by simp [isBranchTag, isLoop], fun rest => ?_⟩
      rw [List.append_assoc, List.append_assoc]
      exact parseBlock_loop isLoop (tag _ _) isOpen loops (bodyReads _ (stops_of_closes closes)) closes
  | .inclusion head isClosed literal present => fun finish => by
      rcases head.reads (.inr isClosed) with ⟨behind, rfl, opens, isInclude, tag⟩
      refine ⟨_, _, rfl, opens, by simp [isBranchTag, isInclude], fun rest => ?_⟩
      exact parseBlock_inclusion isInclude (tag _ _) isClosed literal present

/-- The branches of a choice are read behind its first body. -/
theorem parseBranches_reads {branchTokens : List Token} {branches : List Branch} :
    DerivesBranches branchTokens branches → ∀ (finish : Token) {opening closing : Token}
      {lastTokens : List Token} {otherwise : Option (List Segment)}, DerivesOtherwise lastTokens otherwise →
      Closes closing (openedTag opening) → ChoiceReads finish opening closing lastTokens [] otherwise →
      ChoiceReads finish opening closing (branchTokens ++ lastTokens) branches otherwise
  | .nil => fun _ _ _ _ _ _ _ lastReads => lastReads
  | @DerivesBranches.cons tagOpening _ _ _ _ next _ _ head isClosed body more =>
      fun finish opening closing lastTokens otherwise last closes lastReads => by
      have bodyReads := parseBody_reads body finish
      have moreReads := parseBranches_reads more finish last closes lastReads
      rcases head.reads (.inr isClosed) with ⟨behind, rfl, opens, isElseif, tag⟩
      intro condition span first parts rest firstReads
      have reads := moreReads next tagOpening.span _ _ rest bodyReads
      rw [List.append_assoc] at reads
      rw [List.append_assoc, List.append_assoc, List.append_assoc, List.cons_append]
      exact parseBranches_elseif (firstReads _ (stops_of_tag opens (.inl isElseif))) opens isElseif (tag _ _)
        isClosed reads

/-- The branch without a condition is read behind a body. -/
theorem parseOtherwise_reads {lastTokens : List Token} {otherwise : Option (List Segment)} :
    DerivesOtherwise lastTokens otherwise → ∀ (finish : Token) {opening closing : Token},
      Closes closing (openedTag opening) → ChoiceReads finish opening closing lastTokens [] otherwise
  | .none => fun _ _ _ closes _ _ _ _ _ firstReads =>
      parseBranches_closes (firstReads _ (stops_of_closes closes)) closes
  | .some head isClosed body => fun finish opening closing closes => by
      have bodyReads := parseBody_reads body finish
      rcases head.reads (.inr isClosed) with ⟨behind, rfl, opens, isElse, tag⟩
      intro condition span first parts rest firstReads
      have stops : Stops (closing :: rest) := stops_of_closes closes
      have reads := parseBranches_last (bodyReads _ stops) closes
      rw [List.append_assoc, List.cons_append]
      exact parseBranches_else (firstReads _ (stops_of_tag opens (.inr isElse))) opens isElse (tag _ _)
        isClosed reads

end

/-! ## Whole templates -/

theorem parseTokens_eq_ok_iff {finish : Token} {tokens : List Token} {template : Template} :
    parseTokens finish tokens = .ok template ↔
      ∃ parts, DerivesBody tokens parts ∧ template = ⟨joinLiterals parts⟩ := by
  constructor
  · intro ran
    rcases exists_of_bind_eq_ok ran with ⟨⟨body, left, shorter⟩, inside, ran⟩
    rcases derives_of_parseBody inside with ⟨used, parts, split, derives, joined, _⟩
    dsimp only at ran split joined
    rcases left with _ | ⟨token, behind⟩
    · cases ran
      rw [List.append_nil] at split
      exact ⟨parts, split ▸ derives, congrArg Template.mk joined⟩
    · dsimp only at ran
      split at ran <;> cases ran
  · rintro ⟨parts, derives, rfl⟩
    have reads := parseBody_reads derives finish [] nofun
    rw [List.append_nil] at reads
    rcases reads with ⟨shorter, ran⟩
    rw [parseTokens, ran]
    rfl

/-- The sources that parse are those that lex without an error and whose tokens derive as a body in front of
the end of the source, and the tree is that of the derivation. -/
theorem parse_eq_ok_iff {source : String} {template : Template} :
    parse source = .ok template ↔ (lex source).errors = [] ∧
      ∃ tokens finish parts, (lex source).allTokens = tokens ++ [finish] ∧ finish.kind = .endOfSource ∧
        DerivesBody tokens parts ∧ template = ⟨joinLiterals parts⟩ := by
  have whole : (∃ tokens finish parts, (lex source).allTokens = tokens ++ [finish] ∧
      finish.kind = .endOfSource ∧ DerivesBody tokens parts ∧ template = ⟨joinLiterals parts⟩) ↔
        ∃ parts, DerivesBody (lex source).tokens parts ∧ template = ⟨joinLiterals parts⟩ := by
    constructor
    · rintro ⟨tokens, finish, parts, split, _, derives, isTree⟩
      have same := (List.append_inj' split rfl).1
      exact ⟨parts, same ▸ derives, isTree⟩
    · rintro ⟨parts, derives, isTree⟩
      exact ⟨_, _, parts, rfl, rfl, derives, isTree⟩
  rw [whole, parse_eq_ok_iff_parseTokens, parseTokens_eq_ok_iff]

end Markup
end TemplateCascade

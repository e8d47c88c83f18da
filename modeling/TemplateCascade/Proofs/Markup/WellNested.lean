import Mathlib
import TemplateCascade.Proofs.Markup.Tiling

namespace TemplateCascade
namespace Markup

/-!
# Well-nested tokens

The tokens of a source without lexical errors are properly bracketed: calls, quoted values and tags are
closed by what closes them, and nothing stands where the construct around it cannot have it.  The words of
such tokens are described by themselves here, without the lexer.  That the lexer yields them is proved from
the end of the source backwards: what a stack of open constructs asks of the tokens still to come is a word
for each of them, and every step turns what the constructs behind its token ask into what those before it do.
-/

open Text

/-! ## Words -/

/-- Text or a variable. -/
def Token.IsPlain (token : Token) : Prop :=
  token.kind = .text ∨ token.kind = .variableReference

mutual

/-- Text, variables and whole calls in any order. -/
inductive InlineWord : List Token → Prop where
  | nil : InlineWord []
  | plain {token : Token} {tokens : List Token} (isPlain : token.IsPlain) (more : InlineWord tokens) :
      InlineWord (token :: tokens)
  | call {used tokens : List Token} (first : CallWord used) (more : InlineWord tokens) :
      InlineWord (used ++ tokens)

/-- A call from its opening to its closing. -/
inductive CallWord : List Token → Prop where
  | mk {opening closing : Token} {tokens : List Token} (opens : opening.kind = .callStart)
      (inside : ArgumentsWord tokens) (closes : closing.kind = .callEnd) :
      CallWord (opening :: (tokens ++ [closing]))

/-- Arguments with commas between them; each of them may be empty. -/
inductive ArgumentsWord : List Token → Prop where
  | one {tokens : List Token} (only : ArgumentWord tokens) : ArgumentsWord tokens
  | more {comma : Token} {tokens rest : List Token} (first : ArgumentWord tokens)
      (isComma : comma.kind = .comma) (behind : ArgumentsWord rest) : ArgumentsWord (tokens ++ comma :: rest)

/-- An argument, which may start with its name. -/
inductive ArgumentWord : List Token → Prop where
  | named {name : Token} {tokens : List Token} (isName : name.kind = .argumentName)
      (value : ValueWord tokens) : ArgumentWord (name :: tokens)
  | unnamed {tokens : List Token} (value : ValueWord tokens) : ArgumentWord tokens

/-- The value of an argument, which may start with a quoted text. -/
inductive ValueWord : List Token → Prop where
  | quoted {opening closing : Token} {tokens rest : List Token} (opens : opening.kind = .quoteOpen)
      (inside : InlineWord tokens) (closes : closing.kind = .quoteClose) (behind : InlineWord rest) :
      ValueWord (opening :: (tokens ++ closing :: rest))
  | plain {tokens : List Token} (inside : InlineWord tokens) : ValueWord tokens

end

/-- Attributes with their quoted values, one behind the other. -/
inductive AttributesWord : List Token → Prop where
  | nil : AttributesWord []
  | cons {name closing : Token} {tokens rest : List Token} (isName : name.kind = .attributeName)
      (inside : InlineWord tokens) (closes : closing.kind = .quoteClose) (more : AttributesWord rest) :
      AttributesWord (name :: (tokens ++ closing :: rest))

/-- A token ends an opening tag. -/
def Token.EndsTag (token : Token) : Prop :=
  token.kind = .tagEnd ∨ token.kind = .tagSelfClose

/-- Text, variables, closing tags, whole calls and whole opening tags in any order.  Which tags belong
together is not a matter of words. -/
inductive WellNested : List Token → Prop where
  | nil : WellNested []
  | plain {token : Token} {tokens : List Token} (isPlain : token.IsPlain) (more : WellNested tokens) :
      WellNested (token :: tokens)
  | closingTag {token : Token} {tokens : List Token} (closes : token.kind = .tagClose)
      (more : WellNested tokens) : WellNested (token :: tokens)
  | call {used tokens : List Token} (first : CallWord used) (more : WellNested tokens) :
      WellNested (used ++ tokens)
  | tag {opening ending : Token} {tokens rest : List Token} (opens : opening.kind = .tagStart)
      (inside : AttributesWord tokens) (ends : ending.EndsTag) (more : WellNested rest) :
      WellNested (opening :: (tokens ++ ending :: rest))

/-! ## Words that are read from their middle -/

/-- What may follow inside an argument that has begun: the rest of it, and further arguments. -/
inductive ArgumentRest : List Token → Prop where
  | last {tokens : List Token} (inside : InlineWord tokens) : ArgumentRest tokens
  | more {comma : Token} {tokens rest : List Token} (inside : InlineWord tokens)
      (isComma : comma.kind = .comma) (behind : ArgumentsWord rest) : ArgumentRest (tokens ++ comma :: rest)

/-- What may follow the name of an argument. -/
inductive ValueRest : List Token → Prop where
  | quoted {opening closing : Token} {tokens rest : List Token} (opens : opening.kind = .quoteOpen)
      (inside : InlineWord tokens) (closes : closing.kind = .quoteClose) (behind : ArgumentRest rest) :
      ValueRest (opening :: (tokens ++ closing :: rest))
  | plain {tokens : List Token} (behind : ArgumentRest tokens) : ValueRest tokens

section Words

variable {token name : Token} {used tokens : List Token}

theorem ArgumentRest.prependPlain (isPlain : token.IsPlain) :
    ArgumentRest tokens → ArgumentRest (token :: tokens)
  | .last inside => .last (.plain isPlain inside)
  | .more inside isComma behind => .more (.plain isPlain inside) isComma behind

theorem ArgumentRest.prependCall (first : CallWord used) :
    ArgumentRest tokens → ArgumentRest (used ++ tokens)
  | .last inside => .last (.call first inside)
  | .more inside isComma behind => by
      rw [← List.append_assoc]
      exact .more (.call first inside) isComma behind

/-- The rest of some arguments is the value of the first one, and those behind it. -/
theorem ValueRest.split (rest : ValueRest tokens) : ∃ value others, tokens = value ++ others ∧
    ValueWord value ∧ (others = [] ∨ ∃ comma more, others = comma :: more ∧ comma.kind = .comma ∧
      ArgumentsWord more) := by
  cases rest with
  | quoted opens inside closes behind =>
      cases behind with
      | last content => exact ⟨_, [], (List.append_nil _).symm, .quoted opens inside closes content, .inl rfl⟩
      | more content isComma others =>
          exact ⟨_, _, by simp, .quoted opens inside closes content, .inr ⟨_, _, rfl, isComma, others⟩⟩
  | plain behind =>
      cases behind with
      | last content => exact ⟨_, [], (List.append_nil _).symm, .plain content, .inl rfl⟩
      | more content isComma others => exact ⟨_, _, rfl, .plain content, .inr ⟨_, _, rfl, isComma, others⟩⟩

theorem ValueRest.arguments (rest : ValueRest tokens) : ArgumentsWord tokens := by
  rcases rest.split with ⟨value, others, rfl, isValue, rfl | ⟨comma, more, rfl, isComma, behind⟩⟩
  · rw [List.append_nil]
    exact .one (.unnamed isValue)
  · exact .more (.unnamed isValue) isComma behind

theorem ValueRest.named (isName : name.kind = .argumentName) (rest : ValueRest tokens) :
    ArgumentsWord (name :: tokens) := by
  rcases rest.split with ⟨value, others, rfl, isValue, rfl | ⟨comma, more, rfl, isComma, behind⟩⟩
  · rw [List.append_nil]
    exact .one (.named isName isValue)
  · exact .more (.named isName isValue) isComma behind

end Words

/-! ## What open constructs ask of the tokens to come -/

/-- A word, what closes it, and what follows. -/
def Closed (word : List Token → Prop) (closes : Token → Prop) (behind : List Token → Prop)
    (tokens : List Token) : Prop :=
  ∃ inside closing rest, tokens = inside ++ closing :: rest ∧ word inside ∧ closes closing ∧ behind rest

/-- The tokens to come close all constructs that are open, the innermost first. -/
def ClosesAll : List Mode → List Token → Prop
  | [] => WellNested
  | .argumentStart _ :: outer => Closed ArgumentsWord (·.kind = .callEnd) (ClosesAll outer)
  | .argumentValue _ :: outer => Closed ValueRest (·.kind = .callEnd) (ClosesAll outer)
  | .argument _ _ :: outer => Closed ArgumentRest (·.kind = .callEnd) (ClosesAll outer)
  | .quoted _ _ :: outer => Closed InlineWord (·.kind = .quoteClose) (ClosesAll outer)
  | .tag _ :: outer => Closed AttributesWord Token.EndsTag (ClosesAll outer)

theorem Closed.weaken {word larger : List Token → Prop} {closes : Token → Prop}
    {behind : List Token → Prop} {tokens : List Token} (closed : Closed word closes behind tokens)
    (grow : ∀ inside, word inside → larger inside) : Closed larger closes behind tokens := by
  rcases closed with ⟨inside, closing, rest, split, isWord, isClosing, isBehind⟩
  exact ⟨inside, closing, rest, split, grow inside isWord, isClosing, isBehind⟩

/-- What stands in front of a word belongs to it if the word with it is a word. -/
theorem Closed.prepend {word : List Token → Prop} {closes : Token → Prop} {behind : List Token → Prop}
    {tokens : List Token} (closed : Closed word closes behind tokens) (front : List Token)
    {larger : List Token → Prop} (grow : ∀ inside, word inside → larger (front ++ inside)) :
    Closed larger closes behind (front ++ tokens) := by
  rcases closed with ⟨inside, closing, rest, rfl, isWord, isClosing, isBehind⟩
  exact ⟨front ++ inside, closing, rest, by simp, grow inside isWord, isClosing, isBehind⟩

/-- A quoted value in front of a word belongs to it if the word with it is a word. -/
theorem Closed.prependQuoted {word : List Token → Prop} {closes : Token → Prop} {behind : List Token → Prop}
    {tokens : List Token} (closed : Closed InlineWord (·.kind = .quoteClose) (Closed word closes behind) tokens)
    (opening : Token) {larger : List Token → Prop} (grow : ∀ inside closing rest, InlineWord inside →
      closing.kind = .quoteClose → word rest → larger (opening :: (inside ++ closing :: rest))) :
    Closed larger closes behind (opening :: tokens) := by
  rcases closed with ⟨inside, closing, _, rfl, isInline, isClosing, rest, ending, left, rfl, isWord, ends,
    isBehind⟩
  exact ⟨opening :: (inside ++ closing :: rest), ending, left, by simp,
    grow inside closing rest isInline isClosing isWord, ends, isBehind⟩

/-- Where variables and calls are taken. -/
inductive TakesInline : List Mode → Prop where
  | body : TakesInline []
  | argument (depth : Nat) (opened : Span) (outer : List Mode) : TakesInline (.argument depth opened :: outer)
  | quoted (quote : Char) (opened : Span) (outer : List Mode) : TakesInline (.quoted quote opened :: outer)

section Asking

variable {here outer : List Mode} {token : Token} {used tokens : List Token}

theorem ClosesAll.prependPlain (takes : TakesInline here) (isPlain : token.IsPlain)
    (closes : ClosesAll here tokens) : ClosesAll here (token :: tokens) := by
  cases takes with
  | body => exact .plain isPlain closes
  | argument depth opened outer => exact closes.prepend [token] fun _ => .prependPlain isPlain
  | quoted quote opened outer => exact closes.prepend [token] fun _ => .plain isPlain

theorem ClosesAll.prependCall (takes : TakesInline here) (first : CallWord used)
    (closes : ClosesAll here tokens) : ClosesAll here (used ++ tokens) := by
  cases takes with
  | body => exact .call first closes
  | argument depth opened outer => exact closes.prepend used fun _ => .prependCall first
  | quoted quote opened outer => exact closes.prepend used fun _ => .call first

end Asking

/-! ## What a step can do -/

/-- How a token without a fault changes what is open, and what the characters of variables and of openings
of calls are. -/
inductive Passes : List Mode → TokenKind → List Char → List Mode → Prop where
  | text {here : List Mode} (takes : TakesInline here) (lexeme : List Char) : Passes here .text lexeme here
  | argumentText (before after : Nat) (opened : Span) (outer : List Mode) (lexeme : List Char) :
      Passes (.argument before opened :: outer) .text lexeme (.argument after opened :: outer)
  | reference {here : List Mode} (takes : TakesInline here) (path : List Char) :
      Passes here .variableReference ('\x7b' :: '$' :: (path ++ ['\x7d'])) here
  | callStart {here : List Mode} (takes : TakesInline here) (name : List Char) (opened : Span) :
      Passes here .callStart ('\x7b' :: (name ++ ['('])) (.argumentStart opened :: here)
  | comma (depth : Nat) (opened : Span) (outer : List Mode) (lexeme : List Char) :
      Passes (.argument depth opened :: outer) .comma lexeme (.argumentStart opened :: outer)
  | callEnd (depth : Nat) (opened : Span) (outer : List Mode) (lexeme : List Char) :
      Passes (.argument depth opened :: outer) .callEnd lexeme outer
  | begun {opened : Span} {outer after : List Mode} {kind : TokenKind} {lexeme : List Char}
      (inside : Passes (.argument 0 opened :: outer) kind lexeme after) :
      Passes (.argumentStart opened :: outer) kind lexeme after
  | valueBegun {opened : Span} {outer after : List Mode} {kind : TokenKind} {lexeme : List Char}
      (inside : Passes (.argument 0 opened :: outer) kind lexeme after) :
      Passes (.argumentValue opened :: outer) kind lexeme after
  | argumentName (opened : Span) (outer : List Mode) (lexeme : List Char) :
      Passes (.argumentStart opened :: outer) .argumentName lexeme (.argumentValue opened :: outer)
  | quoteOpen (opened : Span) (outer : List Mode) (lexeme : List Char) (quote : Char) (quoteOpened : Span) :
      Passes (.argumentStart opened :: outer) .quoteOpen lexeme
        (.quoted quote quoteOpened :: .argument 0 opened :: outer)
  | valueQuoteOpen (opened : Span) (outer : List Mode) (lexeme : List Char) (quote : Char)
      (quoteOpened : Span) :
      Passes (.argumentValue opened :: outer) .quoteOpen lexeme
        (.quoted quote quoteOpened :: .argument 0 opened :: outer)
  | quoteClose (quote : Char) (opened : Span) (outer : List Mode) (lexeme : List Char) :
      Passes (.quoted quote opened :: outer) .quoteClose lexeme outer
  | tagClose (lexeme : List Char) : Passes [] .tagClose lexeme []
  | tagStart (lexeme : List Char) (opened : Span) : Passes [] .tagStart lexeme [.tag opened]
  | attributeName (opened : Span) (outer : List Mode) (lexeme : List Char) (quoteOpened : Span) :
      Passes (.tag opened :: outer) .attributeName lexeme (.quoted '"' quoteOpened :: .tag opened :: outer)
  | tagEnd (opened : Span) (outer : List Mode) (lexeme : List Char) :
      Passes (.tag opened :: outer) .tagEnd lexeme outer
  | tagSelfClose (opened : Span) (outer : List Mode) (lexeme : List Char) :
      Passes (.tag opened :: outer) .tagSelfClose lexeme outer

namespace Passes

variable {before after outer : List Mode} {kind : TokenKind} {lexeme : List Char}

/-- What the constructs behind a token ask turns into what those before it ask. -/
theorem closesAll (passes : Passes before kind lexeme after) {token : Token} (isKind : token.kind = kind)
    {tokens : List Token} (closes : ClosesAll after tokens) : ClosesAll before (token :: tokens) := by
  induction passes with
  | text takes => exact closes.prependPlain takes (.inl isKind)
  | argumentText => exact closes.prepend [token] fun _ => .prependPlain (.inl isKind)
  | reference takes => exact closes.prependPlain takes (.inr isKind)
  | callStart takes =>
      rcases closes with ⟨inside, closing, rest, rfl, arguments, isClosing, behind⟩
      have closed := ClosesAll.prependCall takes (.mk isKind arguments isClosing) behind
      simpa using closed
  | comma =>
      exact closes.prepend [token] fun _ arguments => .more .nil isKind arguments
  | callEnd => exact ⟨[], token, tokens, rfl, .last .nil, isKind, closes⟩
  | begun inside inductionHypothesis =>
      exact (inductionHypothesis isKind closes).weaken fun _ rest => (ValueRest.plain rest).arguments
  | valueBegun inside inductionHypothesis =>
      exact (inductionHypothesis isKind closes).weaken fun _ => .plain
  | argumentName => exact closes.prepend [token] fun _ rest => rest.named isKind
  | quoteOpen =>
      exact closes.prependQuoted token fun _ _ _ isInline isClosing rest =>
        (ValueRest.quoted isKind isInline isClosing rest).arguments
  | valueQuoteOpen => exact closes.prependQuoted token fun _ _ _ => .quoted isKind
  | quoteClose => exact ⟨[], token, tokens, rfl, .nil, isKind, closes⟩
  | tagClose => exact .closingTag isKind closes
  | tagStart =>
      rcases closes with ⟨inside, ending, rest, rfl, attributes, ends, behind⟩
      exact .tag isKind attributes ends behind
  | attributeName => exact closes.prependQuoted token fun _ _ _ => .cons isKind
  | tagEnd => exact ⟨[], token, tokens, rfl, .nil, .inl isKind, closes⟩
  | tagSelfClose => exact ⟨[], token, tokens, rfl, .nil, .inr isKind, closes⟩

end Passes

namespace Scanned

variable {here outer : List Mode} {input : List Char} {scanned : Scanned input}

/-- A token without a fault passes from the constructs before it to those behind it. -/
abbrev PassesFrom (before : List Mode) {input : List Char} (scanned : Scanned input) : Prop :=
  scanned.fault = none → ∀ span, Passes before scanned.kind scanned.lexeme (scanned.modes span)

theorem passesFrom_of_fault {before : List Mode} {scanned : Scanned input} (faulty : scanned.fault ≠ none) :
    scanned.PassesFrom before :=
  fun faultless => absurd faultless faulty

theorem passes_scanVariable (takes : TakesInline here) {after : List Char} :
    (scanVariable here after).PassesFrom here := by
  unfold scanVariable
  dsimp only
  split
  · split
    · exact passesFrom_of_fault (Option.some_ne_none _)
    · exact fun _ _ => .reference takes _
  · exact passesFrom_of_fault (Option.some_ne_none _)

theorem passes_scanCall? (takes : TakesInline here) {after : List Char} {scanned : Scanned ('\x7b' :: after)}
    (found : scanCall? here after = some scanned) : scanned.PassesFrom here := by
  unfold scanCall? at found
  split at found
  · next first more rest _ _ =>
      cases found
      exact fun _ span => .callStart takes (first :: more) span
  · cases found

theorem passes_scanInline? (takes : TakesInline here) (found : scanInline? here input = some scanned) :
    scanned.PassesFrom here := by
  unfold scanInline? at found
  split at found
  · split at found
    · cases found
      exact passes_scanVariable takes
    · exact passes_scanCall? takes found
  · exact passes_scanCall? takes found
  · cases found

theorem passes_scanTag? (found : scanTag? [] input = some scanned) : scanned.PassesFrom [] := by
  unfold scanTag? at found
  split at found
  · split at found
    · cases found
      unfold scanClosingTag
      dsimp only
      split
      · exact fun _ _ => .tagClose _
      · exact passesFrom_of_fault (Option.some_ne_none _)
    · cases found
  · split at found
    · split at found
      · cases found
        exact fun _ span => .tagStart _ span
      · cases found
    · cases found

theorem passes_scanArgument {depth : Nat} {opened : Span} {first : Char} {rest : List Char} :
    (scanArgument depth opened outer first rest).PassesFrom (.argument depth opened :: outer) := by
  unfold scanArgument
  dsimp only
  split
  · exact fun _ _ => .comma depth opened outer _
  · split
    · split
      · exact fun _ _ => .callEnd depth opened outer _
      · exact passesFrom_of_fault (Option.some_ne_none _)
    · split
      · next found => exact passes_scanInline? (.argument depth opened outer) found
      · exact fun _ _ => .argumentText depth _ opened outer _

/-- At the start of an argument, with or without its name, a name or a quote is taken. -/
theorem passes_scanArgumentStart? {named : Bool} {opened : Span}
    (found : scanArgumentStart? named opened outer input = some scanned) :
    scanned.PassesFrom ((if named then .argumentValue opened else .argumentStart opened) :: outer) := by
  unfold scanArgumentStart? at found
  dsimp only at found
  split at found
  · cases found
  · split at found
    · next quote _ _ _ =>
        cases found
        cases named with
        | false => exact fun _ span => .quoteOpen opened outer _ quote span
        | true => exact fun _ span => .valueQuoteOpen opened outer _ quote span
    · split at found
      · cases found
      · next unnamed =>
          split at found
          · cases found
          · cases found
            rw [Bool.not_eq_true] at unnamed
            subst unnamed
            exact fun _ _ => .argumentName opened outer _
          · cases found

theorem passes_start {named : Bool} {opened : Span} {first : Char} {rest : List Char} :
    ((scanArgumentStart? named opened outer (first :: rest)).getD
      (scanArgument 0 opened outer first rest)).PassesFrom
        ((if named then .argumentValue opened else .argumentStart opened) :: outer) := by
  cases found : scanArgumentStart? named opened outer (first :: rest) with
  | some scanned => exact passes_scanArgumentStart? found
  | none =>
      intro faultless span
      have inside := passes_scanArgument faultless span
      cases named with
      | false => exact .begun inside
      | true => exact .valueBegun inside

theorem passes_scanQuoted {quote : Char} {opened : Span} {first : Char} {rest : List Char} :
    (scanQuoted quote opened outer first rest).PassesFrom (.quoted quote opened :: outer) := by
  have takes : TakesInline (.quoted quote opened :: outer) := .quoted quote opened outer
  unfold scanQuoted
  dsimp only
  split
  · exact fun _ _ => .quoteClose quote opened outer _
  · split
    · next found => exact passes_scanInline? takes found
    · split
      · split
        · exact fun _ _ => .text takes _
        · exact fun _ _ => .text takes _
      · exact fun _ _ => .text takes _

theorem passes_scanInTag? {opened : Span} (found : scanInTag? opened outer input = some scanned) :
    scanned.PassesFrom (.tag opened :: outer) := by
  unfold scanInTag? at found
  dsimp only at found
  split at found
  · cases found
  · split at found
    · split at found
      · cases found
        exact fun _ span => .attributeName opened outer _ span
      · cases found
        exact passesFrom_of_fault (Option.some_ne_none _)
    · split at found
      · cases found
        exact fun _ _ => .tagEnd opened outer _
      · split at found
        · cases found
          exact fun _ _ => .tagSelfClose opened outer _
        · cases found
          exact passesFrom_of_fault (Option.some_ne_none _)

end Scanned

theorem passes_of_step {modes : List Mode} {first : Char} {rest : List Char} {scanned : Scanned (first :: rest)}
    (found : step modes first rest = .token scanned) : scanned.PassesFrom modes := by
  unfold step at found
  split at found
  · unfold stepInText at found
    split at found
    · split at found <;> cases found
    · split at found
      · next isInline =>
          cases found
          exact Scanned.passes_scanInline? .body isInline
      · split at found
        · next isTag =>
            cases found
            exact Scanned.passes_scanTag? isTag
        · cases found
          exact fun _ _ => .text .body _
  · cases found
    exact Scanned.passes_start
  · cases found
    exact Scanned.passes_start
  · cases found
    exact Scanned.passes_scanArgument
  · cases found
    exact Scanned.passes_scanQuoted
  · split at found
    · next isFound =>
        cases found
        exact Scanned.passes_scanInTag? isFound
    · cases found

/-! ## The whole source -/

/-- The characters of a variable and of the opening of a call stand between what marks them as such. -/
structure Token.Delimited (token : Token) : Prop where
  reference : token.kind = .variableReference → ∃ path, token.lexeme = '\x7b' :: '$' :: (path ++ ['\x7d'])
  callStart : token.kind = .callStart → ∃ name, token.lexeme = '\x7b' :: (name ++ ['('])

theorem Passes.delimited {before after : List Mode} {kind : TokenKind} {lexeme : List Char}
    (passes : Passes before kind lexeme after) (span : Span) : Token.Delimited ⟨kind, lexeme, span⟩ := by
  induction passes with
  | reference takes path => exact ⟨fun _ => ⟨path, rfl⟩, nofun⟩
  | callStart takes name => exact ⟨nofun, fun _ => ⟨name, rfl⟩⟩
  | begun _ inductionHypothesis => exact inductionHypothesis
  | valueBegun _ inductionHypothesis => exact inductionHypothesis
  | _ => exact ⟨nofun, nofun⟩

/-- Without errors the tokens from a place on close what is open there. -/
theorem closesAll_of_lexFrom {place : Place} {modes : List Mode} {source : List Char}
    (errorFree : (lexFrom place modes source).errors = []) :
    ClosesAll modes (lexFrom place modes source).tokens ∧
      ∀ token ∈ (lexFrom place modes source).tokens, token.Delimited := by
  fun_induction lexFrom place modes source with
  | case1 place modes =>
      have closed : modes = [] := List.map_eq_nil_iff.mp errorFree
      subst closed
      exact ⟨.nil, List.forall_mem_nil _⟩
  | case2 place modes first rest scanned found start span =>
      rename_i shorter inductionHypothesis
      rcases List.append_eq_nil_iff.mp errorFree with ⟨faultless, errorFree⟩
      rw [List.map_eq_nil_iff, Option.toList_eq_nil_iff] at faultless
      have passes := passes_of_step found faultless span
      rcases inductionHypothesis errorFree with ⟨closes, delimited⟩
      exact ⟨passes.closesAll rfl closes, List.forall_mem_cons.mpr ⟨passes.delimited span, delimited⟩⟩
  | case3 place modes first rest skipped left isSkipped whole found shorter inductionHypothesis =>
      exact inductionHypothesis errorFree
  | case4 => cases errorFree
  | case5 place modes first rest found =>
      exact absurd (List.map_eq_nil_iff.mp errorFree) (open_of_step found)

end Markup
end TemplateCascade

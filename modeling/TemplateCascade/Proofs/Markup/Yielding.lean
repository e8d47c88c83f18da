import Mathlib
import TemplateCascade.Proofs.Markup.Beginnings
import TemplateCascade.Proofs.Markup.Derivability

namespace TemplateCascade
namespace Markup

/-!
# The tokens of written source

A source that is written with some tokens in mind should give just these tokens again.  That is said here
step by step: with the constructs that are open at some place, a step takes a token of some kind off the front
and goes on behind it.  Where the source starts is left open, and so the spans of the tokens are not spoken of.
-/

open Text

/-- The kind and the characters of a token, wherever it stands. -/
abbrev Shape := TokenKind × List Char

def Token.shape (token : Token) : Shape :=
  (token.kind, token.lexeme)

/-- With some constructs open, a source gives tokens of these shapes and no error, wherever it starts. -/
def Yields (modes : List Mode) (source : List Char) (shapes : List Shape) : Prop :=
  ∀ place, (lexFrom place modes source).errors = [] ∧
    (lexFrom place modes source).tokens.map Token.shape = shapes

/-- A scanned token is of some kind, with other constructs open behind it. -/
structure Scanned.Gives {input : List Char} (scanned : Scanned input) (kind : TokenKind)
    (lexeme left : List Char) (after : Span → List Mode) : Prop where
  kind_eq : scanned.kind = kind
  lexeme_eq : scanned.lexeme = lexeme
  rest_eq : scanned.rest = left
  modes_eq : scanned.modes = after
  faultless : scanned.fault = none

/-- One step takes a token off the front of a source. -/
def Takes (modes : List Mode) (source : List Char) (kind : TokenKind) (lexeme left : List Char)
    (after : Span → List Mode) : Prop :=
  ∃ first rest scanned, source = first :: rest ∧ step modes first rest = .token scanned ∧
    scanned.Gives kind lexeme left after

theorem exists_of_shape_cons {tokens : List Token} {kind : TokenKind} {lexeme : List Char} {shapes : List Shape}
    (shaped : tokens.map Token.shape = (kind, lexeme) :: shapes) :
    ∃ token rest, tokens = token :: rest ∧ token.kind = kind ∧ token.lexeme = lexeme ∧
      rest.map Token.shape = shapes := by
  rcases List.map_eq_cons_iff.mp shaped with ⟨token, rest, rfl, isShape, areShapes⟩
  rcases Prod.mk.inj isShape with ⟨isKind, isLexeme⟩
  exact ⟨token, rest, rfl, isKind, isLexeme, areShapes⟩

theorem yields_nil : Yields [] [] [] := by
  intro place
  rw [lexFrom]
  exact ⟨rfl, rfl⟩

theorem Takes.yields {modes : List Mode} {source lexeme left : List Char} {kind : TokenKind}
    {after : Span → List Mode} {shapes : List Shape} (takes : Takes modes source kind lexeme left after)
    (behind : ∀ span, Yields (after span) left shapes) : Yields modes source ((kind, lexeme) :: shapes) := by
  rcases takes with ⟨first, rest, scanned, rfl, found, rfl, rfl, rfl, rfl, faultless⟩
  intro place
  rw [lexFrom, found]
  dsimp only [Lexed.prepend]
  rcases behind (Span.covering (place.after scanned.skipped) scanned.lexeme)
    ((place.after scanned.skipped).after scanned.lexeme) with ⟨noErrors, areShapes⟩
  rw [faultless, noErrors, List.map_cons, areShapes]
  exact ⟨rfl, rfl⟩

/-- What is derived from the tokens of a source without errors is what it parses to. -/
theorem parse_of_derives {source : String} {parts : List Segment} (errorFree : (lex source).errors = [])
    (derives : DerivesBody (lex source).tokens parts) : parse source = .ok ⟨joinLiterals parts⟩ :=
  parse_eq_ok_iff_parseTokens.mpr ⟨errorFree, parseTokens_eq_ok_iff.mpr ⟨parts, derives, rfl⟩⟩

/-! ## Identifiers -/

theorem isIdentifierPart_of_mem {name : List Char} (isName : isIdentifier name = true) {character : Char}
    (member : character ∈ name) : isIdentifierPart character = true := by
  cases name with
  | nil => cases isName
  | cons initial more =>
      rw [isIdentifier, Bool.and_eq_true, List.all_eq_true] at isName
      rcases List.mem_cons.mp member with rfl | member
      · rcases Bool.or_eq_true _ _ ▸ isName.1 with isLetter | isUnderscore
        · rw [isIdentifierPart, isLetter, Bool.true_or, Bool.true_or]
        · rw [isIdentifierPart, isUnderscore, Bool.or_true]
      · exact isName.2 character member

theorem not_isBlank_of_isIdentifierStart {character : Char} (isStart : isIdentifierStart character = true) :
    isBlank character = false := by
  have bounds : (97 ≤ character.toNat ∧ character.toNat ≤ 122) ∨
      (65 ≤ character.toNat ∧ character.toNat ≤ 90) ∨ character.toNat = 95 := by
    simp only [isIdentifierStart, isAsciiLetter, Bool.or_eq_true, Bool.and_eq_true, decide_eq_true_iff,
      beq_iff_eq] at isStart
    rcases isStart with (⟨lower, upper⟩ | ⟨lower, upper⟩) | rfl
    · exact .inl ⟨lower, upper⟩
    · exact .inr (.inl ⟨lower, upper⟩)
    · exact .inr (.inr rfl)
  simp only [isBlank, Bool.or_eq_false_iff, Bool.and_eq_false_iff, decide_eq_false_iff_not, beq_eq_false_iff_ne]
  omega

/-! ## Variables and calls in text -/

theorem scanCall?_gives (modes : List Mode) {name : List Char} (isName : isIdentifier name = true)
    (rest : List Char) : ∃ scanned, scanCall? modes (name ++ '(' :: rest) = some scanned ∧
      scanned.Gives .callStart ('\x7b' :: (name ++ ['('])) rest fun span => .argumentStart span :: modes := by
  rcases leadingIdentifier_append isName (by decide : isIdentifierPart '(' = false) rest with ⟨named, left⟩
  unfold scanCall?
  split
  · next first more behind isLeading isBehind =>
      rw [named] at isLeading
      rw [left] at isBehind
      cases isBehind
      exact ⟨_, rfl, rfl, congrArg (fun name => '\x7b' :: (name ++ ['('])) isLeading.symm, rfl, rfl, rfl⟩
  · next notCalled =>
      cases name with
      | nil => cases isName
      | cons first more => exact (notCalled _ _ _ named left).elim

/-- The path of a variable: names that are not empty, and the first one starts like an identifier. -/
structure IsPath (path : List Char) : Prop where
  starts : startsIdentifier path = true
  isPart : ∀ character ∈ path, isPathPart character = true
  isNamed : ∀ name ∈ splitPath path, name ≠ []

theorem scanVariable_gives {modes : List Mode} {path : List Char} (isPath : IsPath path) (rest : List Char) :
    (scanVariable modes (path ++ '\x7d' :: rest)).Gives .variableReference ('\x7b' :: '$' :: (path ++ ['\x7d']))
      rest fun _ => modes := by
  have whole : (path ++ '\x7d' :: rest).takeWhile isPathPart = path := by
    rw [List.takeWhile_append_of_pos isPath.isPart, List.takeWhile_cons_of_neg (by decide), List.append_nil]
  have behind : (path ++ '\x7d' :: rest).dropWhile isPathPart = '\x7d' :: rest := by
    rw [List.dropWhile_append_of_pos isPath.isPart, List.dropWhile_cons_of_neg (by decide)]
  have wellFormed : (splitPath path).any List.isEmpty = false := by
    rw [List.any_eq_false]
    exact fun name member isEmpty => isPath.isNamed name member (List.isEmpty_iff.mp isEmpty)
  unfold scanVariable
  dsimp only
  split
  · next left isLeft =>
      rw [behind] at isLeft
      cases isLeft
      refine ⟨?_, congrArg (fun path => '\x7b' :: '$' :: (path ++ ['\x7d'])) whole, rfl, rfl, ?_⟩
      all_goals
        dsimp only
        rw [whole, wellFormed]
        rfl
  · next notClosed => exact (notClosed _ behind).elim

theorem scanInline?_call {modes : List Mode} {name : List Char} (isName : isIdentifier name = true)
    (rest : List Char) : scanInline? modes ('\x7b' :: (name ++ '(' :: rest)) =
      scanCall? modes (name ++ '(' :: rest) := by
  cases name with
  | nil => cases isName
  | cons first more =>
      rw [List.cons_append, scanInline?]
      rintro after ⟨⟩
      cases isName

theorem scanInline?_variable {modes : List Mode} {path : List Char} (isPath : IsPath path) (rest : List Char) :
    scanInline? modes ('\x7b' :: '$' :: (path ++ '\x7d' :: rest)) =
      some (scanVariable modes (path ++ '\x7d' :: rest)) := by
  rw [scanInline?, if_pos]
  have starts := isPath.starts
  cases path with
  | nil => cases starts
  | cons first more => exact starts

theorem step_inline {after : List Char} {scanned : Scanned ('\x7b' :: after)}
    (found : scanInline? [] ('\x7b' :: after) = some scanned) : step [] '\x7b' after = .token scanned := by
  change stepInText '\x7b' after = .token scanned
  unfold stepInText
  split
  · next isComment => cases isComment
  · rw [found]

theorem takes_call {name : List Char} (isName : isIdentifier name = true) (rest : List Char) :
    Takes [] ('\x7b' :: (name ++ '(' :: rest)) .callStart ('\x7b' :: (name ++ ['('])) rest
      fun span => [.argumentStart span] := by
  rcases scanCall?_gives [] isName rest with ⟨scanned, found, gives⟩
  exact ⟨_, _, scanned, rfl, step_inline ((scanInline?_call isName rest).trans found), gives⟩

theorem takes_variable {path : List Char} (isPath : IsPath path) (rest : List Char) :
    Takes [] ('\x7b' :: '$' :: (path ++ '\x7d' :: rest)) .variableReference
      ('\x7b' :: '$' :: (path ++ ['\x7d'])) rest fun _ => [] :=
  ⟨_, _, _, rfl, step_inline (scanInline?_variable isPath rest), scanVariable_gives isPath rest⟩

/-! ## Text -/

theorem scanCall?_eq_none {modes : List Mode} {after : List Char} (notCalled : calledName? ('\x7b' :: after) = none) :
    scanCall? modes after = none := by
  unfold scanCall?
  split
  · next first more rest isLeading isBehind =>
      rw [calledName?, isLeading, isBehind] at notCalled
      cases notCalled
  · rfl

theorem scanInline?_eq_none {modes : List Mode} {text : List Char} (notInline : startsInline text = false) :
    scanInline? modes text = none := by
  unfold scanInline?
  split
  · next after =>
      rw [startsInline] at notInline
      rw [if_neg (Bool.eq_false_iff.mp notInline)]
      exact scanCall?_eq_none rfl
  · next after notReference =>
      unfold startsInline at notInline
      split at notInline
      · next behind same => exact (notReference behind (List.cons.inj same).2).elim
      · exact scanCall?_eq_none (Option.not_isSome_iff_eq_none.mp (Bool.eq_false_iff.mp notInline))
  · rfl

theorem scanTag?_eq_none {modes : List Mode} {text : List Char} (notTag : startsTag text = false) :
    scanTag? modes text = none := by
  unfold startsTag at notTag
  unfold scanTag?
  split
  · next after closes =>
      rw [closes] at notTag
      exact if_neg (Bool.eq_false_iff.mp notTag)
  · next notClosing =>
      rw [notClosing] at notTag
      split
      · next after opens =>
          rw [opens] at notTag
          exact if_neg (Bool.eq_false_iff.mp notTag)
      · rfl

/-- Where nothing begins, a step takes text. -/
theorem step_text {first : Char} {rest : List Char} (nothing : ¬ Begins (first :: rest)) :
    step [] first rest = .token (scanText [] first rest) := by
  have noConstruct := Bool.eq_false_iff.mpr (startsConstruct_iff.not.mpr nothing)
  rw [startsConstruct, Bool.or_eq_false_iff] at noConstruct
  change stepInText first rest = .token (scanText [] first rest)
  unfold stepInText
  split
  · next after isComment =>
      rw [dropLiteral?_eq_some_iff] at isComment
      exact absurd (isComment ▸ .comment after) nothing
  · rw [scanInline?_eq_none noConstruct.1, scanTag?_eq_none noConstruct.2]

/-- A run of text ends where the first construct begins. -/
theorem breakBefore_eq {stop : List Char → Bool} {text tail : List Char}
    (goesOn : ∀ seen left, text = seen ++ left → left ≠ [] → stop (left ++ tail) = false)
    (stops : tail = [] ∨ stop tail = true) : breakBefore stop (text ++ tail) = (text, tail) := by
  induction text with
  | nil =>
      rw [List.nil_append]
      cases tail with
      | nil => rfl
      | cons first rest =>
          rw [breakBefore, if_pos (stops.resolve_left (List.cons_ne_nil _ _))]
  | cons character rest inductionHypothesis =>
      have here := goesOn [] (character :: rest) rfl (List.cons_ne_nil _ _)
      have others := inductionHypothesis fun seen left split isLeft =>
        goesOn (character :: seen) left (by rw [split]; rfl) isLeft
      rw [List.cons_append] at here ⊢
      rw [breakBefore, here, others]
      rfl

/-- Text in which nothing begins is one token up to a place where something does. -/
theorem takes_text {text tail : List Char} (isText : text ≠ [])
    (plain : ∀ seen left, text = seen ++ left → left ≠ [] → ¬ Begins (left ++ tail))
    (stops : tail = [] ∨ Begins tail) : Takes [] (text ++ tail) .text text tail fun _ => [] := by
  cases text with
  | nil => exact absurd rfl isText
  | cons first rest =>
      have run : breakBefore startsConstruct (rest ++ tail) = (rest, tail) := by
        refine breakBefore_eq ?_ (stops.imp_right startsConstruct_iff.mpr)
        intro seen left split isLeft
        refine Bool.eq_false_iff.mpr (startsConstruct_iff.not.mpr ?_)
        exact plain (first :: seen) left (by rw [split]; rfl) isLeft
      refine ⟨first, rest ++ tail, _, rfl, step_text (plain [] (first :: rest) rfl isText), ?_⟩
      exact ⟨rfl, congrArg (fun run : List Char × List Char => first :: run.1) run, congrArg Prod.snd run, rfl,
        rfl⟩

end Markup
end TemplateCascade

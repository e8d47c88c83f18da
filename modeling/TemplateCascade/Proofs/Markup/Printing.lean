import Mathlib
import TemplateCascade.Proofs.Markup.Yielding

namespace TemplateCascade
namespace Markup

/-!
# Writing arguments

A call whose arguments are plain text can be written so that it is read back as it was meant.  In quotes any
text can be written, with a backslash in front of backslashes and quotes; without quotes only what does not
look like a name, a quote, or the end of the argument.  Reading gives the text of a quoted argument exactly,
and that of any other without the blanks around it.
-/

open Text

/-- An argument that is text: the name it is given by, if any, and the quotes it is written in, if any. -/
structure TextArgument where
  name : Option String
  text : String
  quote : Option Char
deriving DecidableEq, Repr

/-- What an argument holds: its text, if it is nothing but text, and whether it stands in quotes. -/
structure Contents where
  text : Option String
  quoted : Bool
deriving DecidableEq, Repr

/-- A call with what its arguments hold. -/
structure CallContents where
  function : String
  positional : List Contents
  named : List (String × Contents)
deriving DecidableEq, Repr

/-- Text as it is written in quotes. -/
def escape (quote : Char) (text : List Char) : List Char :=
  text.flatMap fun character =>
    if character = '\\' ∨ character = quote then ['\\', character] else [character]

/-- Whether the parentheses of a text are balanced, with some open in front of it, and no comma is outside of
all of them. -/
def isEnclosed : Nat → List Char → Bool
  | depth, [] => depth == 0
  | depth, '(' :: rest => isEnclosed (depth + 1) rest
  | depth, ')' :: rest => depth != 0 && isEnclosed (depth - 1) rest
  | depth, ',' :: rest => depth != 0 && isEnclosed depth rest
  | depth, _ :: rest => isEnclosed depth rest

/-- Text that can be an argument without quotes. -/
structure IsBare (named : Bool) (text : List Char) : Prop where
  notBlank : ∃ character ∈ text, isBlank character = false
  enclosed : isEnclosed 0 text = true
  notQuoted : (dropLeadingBlanks text).head? ≠ some '"' ∧ (dropLeadingBlanks text).head? ≠ some '\''
  /-- Without a name, the text does not start with one: an identifier with a single equals sign. -/
  notNamed : named = false → ∀ name rest, isIdentifier name = true →
    dropLeadingBlanks text = name ++ '=' :: rest → rest.head? = some '='

namespace TextArgument

/-- An argument can be written as it is meant to be. -/
structure Writable (argument : TextArgument) : Prop where
  isName : ∀ name ∈ argument.name, isIdentifier name.toList = true
  isQuote : ∀ quote ∈ argument.quote, quote = '"' ∨ quote = '\''
  noBrace : '\x7b' ∉ argument.text.toList
  bare : argument.quote = none → IsBare argument.name.isSome argument.text.toList
  /-- Behind the equals sign of a name stands no other one. -/
  single : argument.quote = none → argument.name.isSome = true → argument.text.toList.head? ≠ some '='

/-- The text of an argument, in its quotes if it has some. -/
def value (argument : TextArgument) : List Char :=
  match argument.quote with
  | some quote => quote :: (escape quote argument.text.toList ++ [quote])
  | none => argument.text.toList

/-- An argument with its name in front. -/
def source (argument : TextArgument) : List Char :=
  match argument.name with
  | some name => name.toList ++ '=' :: argument.value
  | none => argument.value

/-- What is to be read: the text exactly if it stands in quotes, otherwise without the blanks around it. -/
def contents (argument : TextArgument) : Contents :=
  ⟨some (if argument.quote.isSome then argument.text else trim argument.text), argument.quote.isSome⟩

end TextArgument

def ArgumentOf.contents (argument : Argument) : Contents :=
  ⟨argument.literalText?, argument.quoted⟩

/-- The call that a template is, if it is a call and nothing else. -/
def Template.onlyCall? (template : Template) : Option CallContents :=
  match template.segments with
  | [.call name arguments named _] =>
      some ⟨name, arguments.map ArgumentOf.contents, named.map fun entry => (entry.1, entry.2.contents)⟩
  | _ => none

/-- A call with its arguments, which are separated by commas. -/
def callSource (function : String) (arguments : List TextArgument) : String :=
  String.ofList ('\x7b' :: (function.toList ++
    '(' :: ([','].intercalate (arguments.map TextArgument.source) ++ [')', '\x7d'])))

/-! ## Escapes -/

theorem escape_cons (quote first : Char) (rest : List Char) : escape quote (first :: rest) =
    if first = '\\' ∨ first = quote then '\\' :: first :: escape quote rest
    else first :: escape quote rest := by
  rw [escape, List.flatMap_cons, ← escape]
  split <;> rfl

theorem unescape_plain {first : Char} (notBackslash : first ≠ '\\') (rest : List Char) :
    unescape (first :: rest) = first :: unescape rest := by
  cases rest with
  | nil => rfl
  | cons second rest => rw [unescape, if_neg (by simp [notBackslash])]

/-- Unescaping takes back what escaping did. -/
theorem unescape_escape {quote : Char} (isQuote : quote = '"' ∨ quote = '\'') (text : List Char) :
    unescape (escape quote text) = text := by
  induction text with
  | nil => rfl
  | cons first rest inductionHypothesis =>
      rw [escape_cons]
      split
      · next isEscaped =>
          have isMarked : first = '\\' ∨ first = '"' ∨ first = '\'' := by
            rcases isEscaped with isBackslash | rfl
            · exact .inl isBackslash
            · exact .inr isQuote
          rw [unescape, if_pos (by simpa [or_assoc] using isMarked), inductionHypothesis]
      · next plain =>
          rw [not_or] at plain
          rw [unescape_plain plain.1, inductionHypothesis]

section Quotes

variable {quote : Char} {text tail : List Char} {opened : Span} {outer : List Mode}

theorem startsInline_of_ne {first : Char} (notBrace : first ≠ '\x7b') (rest : List Char) :
    startsInline (first :: rest) = false := by
  refine Bool.eq_false_iff.mpr (startsInline_iff.not.mpr ?_)
  rintro (⟨_, _, isBrace, _⟩ | ⟨_, _, isBrace, _⟩)
  · exact notBrace (List.cons.inj isBrace).1
  · exact notBrace (List.cons.inj isBrace).1

theorem quotedRun_quote : quotedRun quote (quote :: tail) = ([], quote :: tail) := by
  unfold quotedRun
  exact if_pos rfl

theorem quotedRun_escaped (notBackslash : '\\' ≠ quote) (escaped : Char) :
    quotedRun quote ('\\' :: escaped :: tail) =
      ('\\' :: escaped :: (quotedRun quote tail).1, (quotedRun quote tail).2) := by
  rw [quotedRun.eq_def]
  dsimp only
  rw [if_neg notBackslash, startsInline_of_ne (by decide), if_neg Bool.false_ne_true, if_pos rfl]

theorem quotedRun_plain {first : Char} (notQuote : first ≠ quote) (notBackslash : first ≠ '\\')
    (notBrace : first ≠ '\x7b') :
    quotedRun quote (first :: tail) = (first :: (quotedRun quote tail).1, (quotedRun quote tail).2) := by
  rw [quotedRun.eq_def]
  dsimp only
  rw [if_neg notQuote, startsInline_of_ne notBrace, if_neg Bool.false_ne_true, if_neg notBackslash]

theorem quotedRun_escape (tail : List Char) (notBackslash : '\\' ≠ quote) (noBrace : '\x7b' ∉ text) :
    quotedRun quote (escape quote text ++ quote :: tail) = (escape quote text, quote :: tail) := by
  induction text with
  | nil => exact quotedRun_quote
  | cons first rest inductionHypothesis =>
      rw [List.mem_cons, not_or] at noBrace
      have more := inductionHypothesis noBrace.2
      rw [escape_cons]
      split
      · rw [List.cons_append, List.cons_append, quotedRun_escaped notBackslash, more]
      · next plain =>
          rw [not_or] at plain
          rw [List.cons_append, quotedRun_plain plain.2 plain.1 (Ne.symm noBrace.1), more]

theorem scanQuoted_escaped (opened : Span) (outer : List Mode) (notBackslash : '\\' ≠ quote)
    (escaped : Char) (tail : List Char) :
    (scanQuoted quote opened outer '\\' (escaped :: tail)).Gives .text
      ('\\' :: escaped :: (quotedRun quote tail).1) (quotedRun quote tail).2
      fun _ => .quoted quote opened :: outer := by
  unfold scanQuoted
  rw [if_neg notBackslash, scanInline?_eq_none (startsInline_of_ne (by decide) _), if_pos rfl]
  exact ⟨rfl, rfl, rfl, rfl, rfl⟩

theorem scanQuoted_plain {first : Char} (opened : Span) (outer : List Mode) (notQuote : first ≠ quote)
    (notBackslash : first ≠ '\\') (notBrace : first ≠ '\x7b') (tail : List Char) :
    (scanQuoted quote opened outer first tail).Gives .text (first :: (quotedRun quote tail).1)
      (quotedRun quote tail).2 fun _ => .quoted quote opened :: outer := by
  unfold scanQuoted
  rw [if_neg notQuote, scanInline?_eq_none (startsInline_of_ne notBrace _), if_neg notBackslash]
  exact ⟨rfl, rfl, rfl, rfl, rfl⟩

theorem takes_escaped (notBackslash : '\\' ≠ quote) (noBrace : '\x7b' ∉ text) (isText : text ≠ []) :
    Takes (.quoted quote opened :: outer) (escape quote text ++ quote :: tail) .text (escape quote text)
      (quote :: tail) fun _ => .quoted quote opened :: outer := by
  cases text with
  | nil => exact absurd rfl isText
  | cons first rest =>
      rw [List.mem_cons, not_or] at noBrace
      have more := quotedRun_escape tail notBackslash noBrace.2
      rw [escape_cons]
      split
      · refine ⟨'\\', first :: (escape quote rest ++ quote :: tail), _, rfl, rfl, ?_⟩
        have gives := scanQuoted_escaped opened outer notBackslash first (escape quote rest ++ quote :: tail)
        rwa [more] at gives
      · next plain =>
          rw [not_or] at plain
          refine ⟨first, escape quote rest ++ quote :: tail, _, rfl, rfl, ?_⟩
          have gives := scanQuoted_plain opened outer plain.2 plain.1 (Ne.symm noBrace.1)
            (escape quote rest ++ quote :: tail)
          rwa [more] at gives

theorem takes_quoteClose : Takes (.quoted quote opened :: outer) (quote :: tail) .quoteClose [quote] tail
    fun _ => outer :=
  ⟨quote, tail, _, rfl, congrArg Step.token (if_pos rfl), rfl, rfl, rfl, rfl, rfl⟩

end Quotes

/-! ## Arguments without quotes -/

/-- What stands behind an argument: a comma, or the end of the call. -/
inductive EndsValue : List Char → Prop where
  | comma (rest : List Char) : EndsValue (',' :: rest)
  | callEnd (rest : List Char) : EndsValue (')' :: '\x7d' :: rest)

theorem EndsValue.exists_cons {tail : List Char} (ends : EndsValue tail) :
    ∃ first rest, tail = first :: rest ∧ (first = ',' ∨ first = ')') := by
  cases ends with
  | comma rest => exact ⟨_, _, rfl, .inl rfl⟩
  | callEnd rest => exact ⟨_, _, rfl, .inr rfl⟩

section Bare

variable {text tail : List Char} {opened : Span} {outer : List Mode}

theorem argumentRun_ends (ends : EndsValue tail) : argumentRun 0 tail = ([], 0, tail) := by
  cases ends with
  | comma rest => exact if_pos rfl
  | callEnd rest => exact if_pos rfl

/-- The parentheses that are open behind a character that does not end an argument. -/
def depthBehind (depth : Nat) (character : Char) : Nat :=
  if character = '(' then depth + 1 else if character = ')' then depth - 1 else depth

/-- A character at the front of an enclosed text does not end the argument, and the rest is enclosed in what
is open behind it. -/
theorem isEnclosed_cons {depth : Nat} {first : Char} {rest : List Char}
    (enclosed : isEnclosed depth (first :: rest) = true) :
    (depth = 0 && (first = ',' || first = ')')) = false ∧ isEnclosed (depthBehind depth first) rest = true := by
  unfold isEnclosed at enclosed
  split at enclosed
  · next isNil => cases isNil
  · next isCons =>
      cases isCons
      exact ⟨by simp, enclosed⟩
  · next isCons =>
      cases isCons
      rw [Bool.and_eq_true] at enclosed
      exact ⟨by simpa using enclosed.1, enclosed.2⟩
  · next isCons =>
      cases isCons
      rw [Bool.and_eq_true] at enclosed
      exact ⟨by simpa using enclosed.1, enclosed.2⟩
  · next notOpening notClosing notComma isCons =>
      cases isCons
      have plain : first ≠ '(' ∧ first ≠ ')' ∧ first ≠ ',' :=
        ⟨notOpening, notClosing, notComma⟩
      rw [depthBehind, if_neg plain.1, if_neg plain.2.1]
      exact ⟨by simp [plain], enclosed⟩

/-- An enclosed text is one run up to what ends the argument. -/
theorem argumentRun_append_of_enclosed {depth : Nat} (enclosed : isEnclosed depth text = true)
    (noBrace : '\x7b' ∉ text) (ends : EndsValue tail) : argumentRun depth (text ++ tail) = (text, 0, tail) := by
  induction text generalizing depth with
  | nil =>
      rw [isEnclosed, beq_iff_eq] at enclosed
      rw [enclosed]
      exact argumentRun_ends ends
  | cons first rest inductionHypothesis =>
      rw [List.mem_cons, not_or] at noBrace
      rcases isEnclosed_cons enclosed with ⟨goesOn, enclosed⟩
      rw [List.cons_append, argumentRun, goesOn, if_neg Bool.false_ne_true,
        startsInline_of_ne (Ne.symm noBrace.1), if_neg Bool.false_ne_true]
      have more := inductionHypothesis enclosed noBrace.2
      rw [depthBehind] at more
      dsimp only
      rw [more]

theorem scanArgument_gives {first : Char} {rest : List Char} (enclosed : isEnclosed 0 (first :: rest) = true)
    (noBrace : '\x7b' ∉ first :: rest) (ends : EndsValue tail) :
    (scanArgument 0 opened outer first (rest ++ tail)).Gives .text (first :: rest) tail
      fun _ => .argument 0 opened :: outer := by
  rw [List.mem_cons, not_or] at noBrace
  rcases isEnclosed_cons enclosed with ⟨goesOn, enclosed⟩
  have run := argumentRun_append_of_enclosed enclosed noBrace.2 ends
  rw [depthBehind] at run
  rw [Bool.and_or_distrib_left, Bool.or_eq_false_iff] at goesOn
  unfold scanArgument
  rw [goesOn.1, goesOn.2, if_neg Bool.false_ne_true, if_neg Bool.false_ne_true,
    scanInline?_eq_none (startsInline_of_ne (Ne.symm noBrace.1) _)]
  refine ⟨rfl, ?_, ?_, ?_, rfl⟩
  · exact congrArg (fun run : List Char × Nat × List Char => first :: run.1) run
  · exact congrArg (fun run : List Char × Nat × List Char => run.2.2) run
  · exact congrArg (fun run : List Char × Nat × List Char =>
      fun _ : Span => Mode.argument run.2.1 opened :: outer) run

end Bare

/-! ## Starts of arguments -/

/-- What is open in front of an argument, behind its name or where there is none. -/
def Mode.start (named : Bool) (opened : Span) : Mode :=
  if named then .argumentValue opened else .argumentStart opened

theorem step_start {named : Bool} {opened : Span} {outer : List Mode} (first : Char) (rest : List Char) :
    step (.start named opened :: outer) first rest =
      .token ((scanArgumentStart? named opened outer (first :: rest)).getD
        (scanArgument 0 opened outer first rest)) := by
  cases named <;> rfl

section Starts

variable {named : Bool} {opened : Span} {outer : List Mode} {text tail : List Char}

theorem scanArgumentStart?_quote {quote : Char} (isQuote : quote = '"' ∨ quote = '\'') :
    ∃ scanned, scanArgumentStart? named opened outer (quote :: tail) = some scanned ∧
      scanned.Gives .quoteOpen [quote] tail fun span => .quoted quote span :: .argument 0 opened :: outer := by
  have noBlanks : dropLeadingBlanks (quote :: tail) = quote :: tail :=
    List.dropWhile_cons_of_neg (by rcases isQuote with rfl | rfl <;> decide)
  have decided : (decide (quote = '"') || decide (quote = '\'')) = true := by simpa using isQuote
  unfold scanArgumentStart?
  dsimp only
  split
  · next isNil =>
      rw [noBlanks] at isNil
      cases isNil
  · next first rest isCons =>
      rw [noBlanks] at isCons
      cases isCons
      rw [if_pos decided]
      exact ⟨_, rfl, rfl, rfl, rfl, rfl, rfl⟩

theorem scanArgumentStart?_name {name : List Char} (isName : isIdentifier name = true)
    (single : tail.head? ≠ some '=') :
    ∃ scanned, scanArgumentStart? false opened outer (name ++ '=' :: tail) = some scanned ∧
      scanned.Gives .argumentName (name ++ ['=']) tail fun _ => .argumentValue opened :: outer := by
  rcases leadingIdentifier_append isName (by decide : isIdentifierPart '=' = false) tail with ⟨named, left⟩
  cases name with
  | nil => cases isName
  | cons initial more =>
      have starts : isIdentifierStart initial = true := (Bool.and_eq_true _ _ ▸ isName).1
      have notBlank : ¬ isBlank initial = true := by
        rw [not_isBlank_of_isIdentifierStart starts]
        exact Bool.false_ne_true
      have noBlanks : dropLeadingBlanks (initial :: more ++ '=' :: tail) = initial :: more ++ '=' :: tail :=
        List.dropWhile_cons_of_neg notBlank
      have isKept : (initial :: more ++ '=' :: tail).takeWhile isBlank = [] := List.takeWhile_cons_of_neg notBlank
      unfold scanArgumentStart?
      dsimp only
      split
      · next isNil =>
          rw [noBlanks] at isNil
          cases isNil
      · next first rest isCons =>
          rw [noBlanks] at isCons
          cases isCons
          have plain : (decide (initial = '"') || decide (initial = '\'')) = false := by
            rw [Bool.or_eq_false_iff, decide_eq_false_iff_not, decide_eq_false_iff_not]
            constructor <;> rintro rfl <;> cases starts
          rw [if_neg (Bool.eq_false_iff.mp plain), if_neg Bool.false_ne_true]
          split
          · next isDouble =>
              cases left.symm.trans isDouble
              exact absurd rfl single
          · next found others behind notDouble isLeading isBehind =>
              cases left.symm.trans isBehind
              cases named.symm.trans isLeading
              exact ⟨_, rfl, rfl, congrArg (· ++ initial :: (more ++ ['='])) isKept, rfl, rfl, rfl⟩
          · next notSingle => exact (notSingle initial more tail named left).elim

/-- Where no quote and no name is in front, the argument goes on as text. -/
theorem scanArgumentStart?_eq_none
    (notQuoted : (dropLeadingBlanks text).head? ≠ some '"' ∧ (dropLeadingBlanks text).head? ≠ some '\'')
    (notNamed : named = false → ∀ name rest, isIdentifier name = true →
      dropLeadingBlanks text = name ++ '=' :: rest → rest.head? = some '=') :
    scanArgumentStart? named opened outer text = none := by
  unfold scanArgumentStart?
  dsimp only
  split
  · rfl
  · next first rest isCons =>
      rw [isCons, List.head?_cons, Ne, Ne, Option.some_inj, Option.some_inj] at notQuoted
      rw [if_neg (by simp [notQuoted])]
      split
      · rfl
      · next isUnnamed =>
          have notNamed := notNamed (Bool.eq_false_iff.mpr isUnnamed)
          split
          · rfl
          · next initial more tail notDouble isLeading isBehind =>
              have split := leadingIdentifier_append_afterIdentifier (first :: rest)
              rw [isLeading, isBehind] at split
              have isName : isIdentifier (leadingIdentifier (first :: rest)) = true :=
                isIdentifier_leadingIdentifier (isLeading ▸ List.cons_ne_nil _ _)
              rw [isLeading] at isName
              have isDouble := notNamed (initial :: more) tail isName (by rw [isCons, split])
              rcases List.head?_eq_some_iff.mp isDouble with ⟨behind, rfl⟩
              exact (notDouble behind rfl).elim
          · rfl

theorem takes_of_scanned {first : Char} {rest lexeme left : List Char} {kind : TokenKind}
    {after : Span → List Mode}
    (found : ∃ scanned, scanArgumentStart? named opened outer (first :: rest) = some scanned ∧
      scanned.Gives kind lexeme left after) :
    Takes (.start named opened :: outer) (first :: rest) kind lexeme left after := by
  rcases found with ⟨scanned, found, gives⟩
  refine ⟨first, rest, scanned, rfl, ?_, gives⟩
  rw [step_start, found, Option.getD_some]

theorem takes_quoteOpen {quote : Char} (isQuote : quote = '"' ∨ quote = '\'') :
    Takes (.start named opened :: outer) (quote :: tail) .quoteOpen [quote] tail
      fun span => .quoted quote span :: .argument 0 opened :: outer :=
  takes_of_scanned (scanArgumentStart?_quote isQuote)

theorem takes_name {name : List Char} (isName : isIdentifier name = true) (single : tail.head? ≠ some '=') :
    Takes (.start false opened :: outer) (name ++ '=' :: tail) .argumentName (name ++ ['=']) tail
      fun _ => .start true opened :: outer := by
  cases name with
  | nil => cases isName
  | cons initial more => exact takes_of_scanned (scanArgumentStart?_name isName single)

theorem dropLeadingBlanks_ne_nil (notBlank : ∃ character ∈ text, isBlank character = false) :
    dropLeadingBlanks text ≠ [] := by
  rw [dropLeadingBlanks, Ne, List.dropWhile_eq_nil_iff]
  rcases notBlank with ⟨character, member, notBlank⟩
  intro blank
  rw [blank character member] at notBlank
  cases notBlank

theorem dropLeadingBlanks_append (notBlank : ∃ character ∈ text, isBlank character = false)
    (tail : List Char) :
    dropLeadingBlanks (text ++ tail) = dropLeadingBlanks text ++ tail := by
  rw [dropLeadingBlanks, List.dropWhile_append, if_neg]
  · rfl
  · exact fun isEmpty => dropLeadingBlanks_ne_nil notBlank (List.isEmpty_iff.mp isEmpty)

/-- A name that starts a text with the end of an argument behind it starts the text. -/
theorem exists_of_name_append {name rest kept : List Char} (isName : isIdentifier name = true)
    (ends : EndsValue tail) (same : kept ++ tail = name ++ '=' :: rest) :
    ∃ behind, kept = name ++ '=' :: behind ∧ rest = behind ++ tail := by
  rcases ends.exists_cons with ⟨first, others, rfl, isEnd⟩
  rcases List.append_eq_append_iff.mp same with ⟨between, isName', isTail⟩ | ⟨between, isKept, isRest⟩
  · cases between with
    | nil =>
        cases isTail
        rcases isEnd with isEnd | isEnd <;> cases isEnd
    | cons character more =>
        cases isTail
        have isPart : isIdentifierPart first = true :=
          isIdentifierPart_of_mem isName (isName' ▸ List.mem_append_right kept List.mem_cons_self)
        rcases isEnd with rfl | rfl <;> cases isPart
  · cases between with
    | nil =>
        cases isRest
        rcases isEnd with isEnd | isEnd <;> cases isEnd
    | cons character more =>
        cases isRest
        exact ⟨more, isKept, rfl⟩

theorem takes_bare (bare : IsBare named text) (noBrace : '\x7b' ∉ text) (ends : EndsValue tail) :
    Takes (.start named opened :: outer) (text ++ tail) .text text tail fun _ => .argument 0 opened :: outer := by
  have kept := dropLeadingBlanks_append bare.notBlank tail
  have notEmpty := dropLeadingBlanks_ne_nil bare.notBlank
  have notStart : scanArgumentStart? named opened outer (text ++ tail) = none := by
    refine scanArgumentStart?_eq_none ?_ ?_
    · rw [kept, List.head?_append_of_ne_nil _ notEmpty]
      exact bare.notQuoted
    · intro isUnnamed name rest isName isNamed
      rw [kept] at isNamed
      rcases exists_of_name_append isName ends isNamed with ⟨behind, isKept, rfl⟩
      have double := bare.notNamed isUnnamed name behind isName isKept
      rw [List.head?_append, double]
      rfl
  cases text with
  | nil => exact absurd rfl notEmpty
  | cons first rest =>
      refine ⟨first, rest ++ tail, _, rfl, ?_, scanArgument_gives bare.enclosed noBrace ends⟩
      rw [List.cons_append] at notStart
      rw [step_start, notStart, Option.getD_none]

theorem takes_comma : Takes (.argument 0 opened :: outer) (',' :: tail) .comma [','] tail
    fun _ => .start false opened :: outer :=
  ⟨',', tail, _, rfl, rfl, rfl, rfl, rfl, rfl, rfl⟩

theorem takes_callEnd : Takes (.argument 0 opened :: outer) (')' :: '\x7d' :: tail) .callEnd [')', '\x7d'] tail
    fun _ => outer :=
  ⟨')', '\x7d' :: tail, _, rfl, rfl, rfl, rfl, rfl, rfl, rfl⟩

/-- A call may end right where it starts. -/
theorem takes_callEnd_bare : Takes (.start false opened :: outer) (')' :: '\x7d' :: tail) .callEnd [')', '\x7d'] tail
    fun _ => outer :=
  ⟨')', '\x7d' :: tail, _, rfl, rfl, rfl, rfl, rfl, rfl, rfl⟩

end Starts

/-! ## Tokens of a written call -/

namespace TextArgument

/-- The tokens of the text of an argument with its quotes. -/
def valueShapes (argument : TextArgument) : List Shape :=
  match argument.quote with
  | some quote =>
      (.quoteOpen, [quote]) ::
        ((if argument.text.toList = [] then [] else [(.text, escape quote argument.text.toList)]) ++
          [(.quoteClose, [quote])])
  | none => [(.text, argument.text.toList)]

/-- The tokens of an argument with its name. -/
def shapes (argument : TextArgument) : List Shape :=
  match argument.name with
  | some name => (.argumentName, name.toList ++ ['=']) :: argument.valueShapes
  | none => argument.valueShapes

section Lexing

variable {argument : TextArgument} {opened : Span} {outer : List Mode} {tail : List Char} {shapes : List Shape}

theorem Writable.yields_value (writable : argument.Writable) (ends : EndsValue tail)
    (behind : Yields (.argument 0 opened :: outer) tail shapes) :
    Yields (.start argument.name.isSome opened :: outer) (argument.value ++ tail)
      (argument.valueShapes ++ shapes) := by
  rcases argument with ⟨name, text, _ | quote⟩
  · exact (takes_bare (writable.bare rfl) writable.noBrace ends).yields fun _ => behind
  · have isQuote := writable.isQuote quote rfl
    have notBackslash : '\\' ≠ quote := by rcases isQuote with rfl | rfl <;> decide
    have closes : ∀ span, Yields (.quoted quote span :: .argument 0 opened :: outer) (quote :: tail)
        ((.quoteClose, [quote]) :: shapes) := fun span => takes_quoteClose.yields fun _ => behind
    rw [value, valueShapes, List.cons_append, List.cons_append, List.append_assoc, List.append_assoc]
    refine (takes_quoteOpen isQuote).yields fun span => ?_
    by_cases isEmpty : text.toList = []
    · rw [if_pos isEmpty, isEmpty]
      exact closes span
    · rw [if_neg isEmpty]
      exact (takes_escaped notBackslash writable.noBrace isEmpty).yields fun _ => closes span

/-- The value of a named argument does not start with an equals sign. -/
theorem Writable.head?_value (writable : argument.Writable) (isNamed : argument.name.isSome = true)
    (tail : List Char) :
    (argument.value ++ tail).head? ≠ some '=' := by
  rcases argument with ⟨name, text, _ | quote⟩
  · have bare := writable.bare rfl
    rcases bare.notBlank with ⟨character, member, _⟩
    have apart := writable.single rfl isNamed
    rw [value]
    cases written : text.toList with
    | nil =>
        rw [written] at member
        cases member
    | cons first rest =>
        rw [written] at apart
        exact apart
  · rintro ⟨⟩
    rcases writable.isQuote _ rfl with isQuote | isQuote <;> cases isQuote

theorem Writable.yields (writable : argument.Writable) (ends : EndsValue tail)
    (behind : Yields (.argument 0 opened :: outer) tail shapes) :
    Yields (.start false opened :: outer) (argument.source ++ tail) (argument.shapes ++ shapes) := by
  have yields := writable.yields_value ends behind
  have single := fun isNamed => writable.head?_value isNamed tail
  rcases argument with ⟨_ | name, text, quote⟩
  · exact yields
  · rw [source, TextArgument.shapes, List.append_assoc, List.cons_append]
    exact (takes_name (writable.isName name rfl) (single rfl)).yields fun _ => yields

end Lexing

end TextArgument

/-- The tokens of arguments with commas between them. -/
def argumentShapes (arguments : List TextArgument) : List Shape :=
  [(.comma, [','])].intercalate (arguments.map TextArgument.shapes)

theorem yields_arguments {opened : Span} {outer : List Mode} {tail : List Char} {shapes : List Shape}
    (behind : Yields outer tail shapes) (first : TextArgument) (others : List TextArgument)
    (writable : ∀ argument ∈ first :: others, argument.Writable) :
    Yields (.start false opened :: outer)
      ([','].intercalate ((first :: others).map TextArgument.source) ++ ')' :: '\x7d' :: tail)
      (argumentShapes (first :: others) ++ (.callEnd, [')', '\x7d']) :: shapes) := by
  induction others generalizing first with
  | nil =>
      rw [argumentShapes, List.map_singleton, List.map_singleton, List.intercalate_singleton,
        List.intercalate_singleton]
      exact (writable first List.mem_cons_self).yields (.callEnd tail) (takes_callEnd.yields fun _ => behind)
  | cons second others inductionHypothesis =>
      have more := inductionHypothesis second fun argument member =>
        writable argument (List.mem_cons_of_mem _ member)
      rw [argumentShapes, List.map_cons, List.map_cons, List.map_cons, List.map_cons,
        List.intercalate_cons_cons, List.intercalate_cons_cons]
      simp only [List.append_assoc]
      exact (writable first List.mem_cons_self).yields (.comma _) (takes_comma.yields fun _ => more)

/-- A written call gives the tokens of its arguments between those that open and close it. -/
theorem yields_callSource {function : String} {arguments : List TextArgument}
    (isFunction : isIdentifier function.toList = true) (writable : ∀ argument ∈ arguments, argument.Writable) :
    Yields [] (callSource function arguments).toList
      ((.callStart, '\x7b' :: (function.toList ++ ['('])) ::
        (argumentShapes arguments ++ [(.callEnd, [')', '\x7d'])])) := by
  rw [callSource, String.toList_ofList]
  refine (takes_call isFunction _).yields fun span => ?_
  cases arguments with
  | nil => exact takes_callEnd_bare.yields fun _ => yields_nil
  | cons first others => exact yields_arguments yields_nil first others writable

/-! ## Reading the tokens -/

theorem trimParts_literal {text : String} (notBlank : ∃ character ∈ text.toList, isBlank character = false)
    (span : Span) : ∃ trimmedSpan, trimParts [.literal text span] = [.literal (trim text) trimmedSpan] := by
  have isText : (trim text == "") = false := by
    rw [beq_eq_false_iff_ne, trim]
    intro isEmpty
    have nothing := congrArg String.toList isEmpty
    rw [String.toList_ofList] at nothing
    rcases notBlank with ⟨character, member, notBlank⟩
    rw [trimBlanks_eq_nil_iff.mp nothing character member] at notBlank
    cases notBlank
  have kept : ∀ trimmedSpan, [Segment.literal (trim text) trimmedSpan].filter (fun part => !isEmptyLiteral part) =
      [.literal (trim text) trimmedSpan] := fun _ =>
    List.filter_cons_of_pos (by rw [isEmptyLiteral, isText]; rfl)
  rw [trimParts, trimFirst, trimLast, String.toList_ofList]
  exact ⟨_, kept _⟩

theorem literalText?_singleton {text : String} {span whole : Span} {quoted : Bool} :
    ArgumentOf.literalText? ⟨[.literal text span], whole, quoted⟩ = some text := by
  have single : String.join [text] = text := by
    rw [String.join_cons, String.join_nil, String.append_empty]
  exact congrArg some single

namespace TextArgument

variable {argument : TextArgument} {tokens : List Token}

/-- The tokens of a value are read as the text that was meant. -/
theorem Writable.derivesValue (writable : argument.Writable)
    (shaped : tokens.map Token.shape = argument.valueShapes) (start : Span) :
    (∃ value, DerivesValue start tokens value ∧ value.contents = argument.contents) ∧ ¬ AllBlank tokens := by
  rcases argument with ⟨name, text, _ | quote⟩
  · rcases exists_of_shape_cons shaped with ⟨token, rest, rfl, isText, isLexeme, areShapes⟩
    rw [List.map_eq_nil_iff] at areShapes
    subst areShapes
    have notBlank := (writable.bare rfl).notBlank
    rcases trimParts_literal notBlank token.span with ⟨span, trimmed⟩
    have isSame : String.ofList (id token.lexeme) = text := by
      rw [isLexeme, id, String.ofList_toList]
    refine ⟨⟨_, .plain (.text isText .nil), ?_⟩, fun blank => ?_⟩
    · rw [isSame]
      change Contents.mk (ArgumentOf.literalText? ⟨trimParts [.literal text token.span], _, false⟩) false = _
      rw [trimmed, literalText?_singleton]
      rfl
    · rcases notBlank with ⟨character, member, notBlank⟩
      rw [(blank token List.mem_cons_self).2 character (isLexeme ▸ member)] at notBlank
      cases notBlank
  · rcases exists_of_shape_cons shaped with ⟨opening, rest, rfl, opens, _, areShapes⟩
    refine ⟨?_, fun blank => ?_⟩
    · by_cases isEmpty : text.toList = []
      · rw [if_pos isEmpty, List.nil_append] at areShapes
        rcases exists_of_shape_cons areShapes with ⟨closing, behind, rfl, closes, _, nothing⟩
        rw [List.map_eq_nil_iff] at nothing
        subst nothing
        refine ⟨_, @DerivesValue.quoted _ _ _ [] _ _ opens .nil closes nofun, ?_⟩
        have isText : text = "" := String.toList_eq_nil_iff.mp isEmpty
        rw [isText]
        rfl
      · rw [if_neg isEmpty, List.singleton_append] at areShapes
        rcases exists_of_shape_cons areShapes with ⟨inner, rest, rfl, isText, isLexeme, areShapes⟩
        rcases exists_of_shape_cons areShapes with ⟨closing, behind, rfl, closes, _, nothing⟩
        rw [List.map_eq_nil_iff] at nothing
        subst nothing
        refine ⟨_, @DerivesValue.quoted _ _ _ [inner] _ _ opens (.text isText .nil) closes nofun, ?_⟩
        rw [isLexeme, unescape_escape (writable.isQuote quote rfl), String.ofList_toList]
        exact congrArg (Contents.mk · true) literalText?_singleton
    · cases opens.symm.trans (blank opening List.mem_cons_self).1

theorem argumentName_eq {name : List Char} (isName : isIdentifier name = true) {token : Token}
    (isLexeme : token.lexeme = name ++ ['=']) : argumentName token = String.ofList name := by
  cases name with
  | nil => cases isName
  | cons initial more =>
      have starts : isIdentifierStart initial = true := (Bool.and_eq_true _ _ ▸ isName).1
      have noBlanks : trimBlanks (initial :: more ++ ['=']) = initial :: more ++ ['='] := by
        rw [trimBlanks, dropLeadingBlanks, List.cons_append,
          List.dropWhile_cons_of_neg (by rw [not_isBlank_of_isIdentifierStart starts]; exact Bool.false_ne_true),
          dropTrailingBlanks, ← List.cons_append, List.reverse_append, List.reverse_singleton,
          List.singleton_append, List.dropWhile_cons_of_neg (by decide), List.reverse_cons, List.reverse_reverse]
      rw [argumentName, isLexeme, noBlanks, List.dropLast_concat]

/-- The tokens of an argument are read as the argument that was meant. -/
theorem Writable.derives (writable : argument.Writable) (shaped : tokens.map Token.shape = argument.shapes) :
    ∃ value, DerivesArgument tokens (argument.name, value) ∧ value.contents = argument.contents := by
  rcases argument with ⟨_ | name, text, quote⟩
  · rcases writable.derivesValue shaped (Span.point Place.start) with ⟨⟨value, derives, isContents⟩, present⟩
    exact ⟨value, .positional derives present, isContents⟩
  · rcases exists_of_shape_cons shaped with ⟨token, rest, rfl, isName, isLexeme, areShapes⟩
    rcases writable.derivesValue areShapes token.span with ⟨⟨value, derives, isContents⟩, _⟩
    refine ⟨value, ?_, isContents⟩
    have named := argumentName_eq (writable.isName name rfl) isLexeme
    rw [String.ofList_toList] at named
    rw [← named]
    exact .named isName derives

end TextArgument

theorem derivesArguments_of_shapes (first : TextArgument) (others : List TextArgument) {tokens : List Token}
    (writable : ∀ argument ∈ first :: others, argument.Writable)
    (shaped : tokens.map Token.shape = argumentShapes (first :: others)) :
    ∃ read, DerivesArguments tokens read ∧ read.map (fun argument => (argument.1, argument.2.contents)) =
      (first :: others).map fun argument => (argument.name, argument.contents) := by
  induction others generalizing first tokens with
  | nil =>
      rw [argumentShapes, List.map_singleton, List.intercalate_singleton] at shaped
      rcases (writable first List.mem_cons_self).derives shaped with ⟨value, derives, isContents⟩
      exact ⟨_, .one derives, by rw [List.map_singleton, isContents]; rfl⟩
  | cons second others inductionHypothesis =>
      rw [argumentShapes, List.map_cons, List.map_cons, List.intercalate_cons_cons, List.append_assoc] at shaped
      rcases List.map_eq_append_iff.mp shaped with ⟨used, behind, rfl, isFirst, areOthers⟩
      rcases exists_of_shape_cons areOthers with ⟨comma, rest, rfl, isComma, _, areOthers⟩
      rcases (writable first List.mem_cons_self).derives isFirst with ⟨value, derives, isContents⟩
      rcases inductionHypothesis second (fun argument member => writable argument (List.mem_cons_of_mem _ member))
        areOthers with ⟨read, derivesMore, areContents⟩
      exact ⟨_, .more derives isComma derivesMore, by rw [List.map_cons, areContents, isContents]; rfl⟩

theorem lastOfEach_map {Entry Image : Type} (change : Entry → Image) (entries : List (String × Entry)) :
    lastOfEach (entries.map fun entry => (entry.1, change entry.2)) =
      (lastOfEach entries).map fun entry => (entry.1, change entry.2) := by
  have found : ∀ (entries : List (String × Entry)) (name : String),
      entryNamed? (entries.map fun entry => (entry.1, change entry.2)) name =
        (entryNamed? entries name).map change := by
    intro entries name
    induction entries with
    | nil => rfl
    | cons entry entries inductionHypothesis =>
        rw [entryNamed?, List.map_cons, List.lookup_cons, ← entryNamed?, inductionHypothesis, entryNamed?,
          entryNamed?, List.lookup_cons]
        split <;> rfl
  rw [lastOfEach, lastOfEach, ← List.map_reverse, List.map_map, List.map_filterMap]
  refine List.filterMap_congr fun name _ => ?_
  rw [found, Option.map_map, Option.map_map]
  rfl

theorem map_contents_positionalOf (read : List NamedArgument) :
    (positionalOf read).map ArgumentOf.contents =
      (read.map fun argument => (argument.1, argument.2.contents)).filterMap fun argument =>
        if argument.1.isNone then some argument.2 else none := by
  rw [positionalOf, List.map_filterMap, List.filterMap_map]
  refine List.filterMap_congr fun argument _ => ?_
  rcases argument with ⟨_ | name, value⟩ <;> rfl

theorem map_contents_namedOf (read : List NamedArgument) :
    (namedOf read).map (fun entry => (entry.1, entry.2.contents)) =
      (read.map fun argument => (argument.1, argument.2.contents)).filterMap fun argument =>
        argument.1.map fun name => (name, argument.2) := by
  rw [namedOf, List.map_filterMap, List.filterMap_map]
  refine List.filterMap_congr fun argument _ => ?_
  rcases argument with ⟨_ | name, value⟩ <;> rfl

/-- A call with written arguments is read back: it is all there is, its positional arguments are the texts
without a name in order, and its named arguments are those with a name, each name at its first place and with
its last text. -/
theorem parse_callSource {function : String} {arguments : List TextArgument}
    (isFunction : isIdentifier function.toList = true) (writable : ∀ argument ∈ arguments, argument.Writable) :
    ∃ template, parse (callSource function arguments) = .ok template ∧ template.onlyCall? =
      some ⟨function, (arguments.filter fun argument => argument.name.isNone).map TextArgument.contents,
        lastOfEach (arguments.filterMap fun argument =>
          argument.name.map fun name => (name, argument.contents))⟩ := by
  rcases yields_callSource isFunction writable Place.start with ⟨errorFree, shaped⟩
  rcases exists_of_shape_cons shaped with ⟨opening, rest, isLexed, opens, isName, areOthers⟩
  rcases List.map_eq_append_iff.mp areOthers with ⟨inner, last, rfl, areArguments, isLast⟩
  rcases exists_of_shape_cons isLast with ⟨closing, nothing, rfl, closes, _, isNil⟩
  rw [List.map_eq_nil_iff] at isNil
  subst isNil
  have isFunctionName : functionName opening = function := by
    rw [functionName, isName, List.drop_succ_cons, List.drop_zero, List.dropLast_concat, String.ofList_toList]
  have parses : ∀ {call : Segment}, DerivesCall (opening :: (inner ++ [closing])) call →
      parse (callSource function arguments) = .ok ⟨joinLiterals [call]⟩ := by
    intro call derives
    refine parse_of_derives errorFree ?_
    have body : DerivesBody (opening :: (inner ++ [closing]) ++ []) [call] := .call derives .nil
    rw [List.append_nil, ← isLexed] at body
    exact body
  cases arguments with
  | nil =>
      have isEmpty : inner = [] := List.map_eq_nil_iff.mp areArguments
      subst isEmpty
      have parsed := parses (.bare opens nofun closes)
      rw [isFunctionName] at parsed
      exact ⟨_, parsed, rfl⟩
  | cons first others =>
      rcases derivesArguments_of_shapes first others writable areArguments with ⟨read, derives, areContents⟩
      have parsed := parses (.filled opens derives closes)
      rw [isFunctionName] at parsed
      refine ⟨_, parsed, ?_⟩
      have positional := map_contents_positionalOf read
      have named := lastOfEach_map ArgumentOf.contents (namedOf read)
      rw [map_contents_namedOf] at named
      rw [areContents, List.filterMap_map] at positional named
      refine congrArg₂ (fun positional named => some (CallContents.mk function positional named))
        (positional.trans ?_) named.symm
      rw [← List.filterMap_eq_map, List.filterMap_filter]
      rfl

/-! ### A call with all kinds of arguments -/

def variedArguments : List TextArgument :=
  [⟨none, " a (b, c) ", none⟩, ⟨some "k", "plain", none⟩, ⟨some "k", "say \"hi\\", some '"'⟩,
    ⟨none, "", some '\''⟩]

theorem variedArguments_writable : ∀ argument ∈ variedArguments, argument.Writable := by
  have noNames : ∀ text : List Char, '=' ∉ text → ∀ name rest, isIdentifier name = true →
      dropLeadingBlanks text = name ++ '=' :: rest → rest.head? = some '=' := by
    intro text noEqual name rest _ isNamed
    refine absurd ?_ noEqual
    refine (List.dropWhile_suffix isBlank).subset ?_
    rw [dropLeadingBlanks] at isNamed
    rw [isNamed]
    exact List.mem_append_right name List.mem_cons_self
  rw [variedArguments, List.forall_mem_cons, List.forall_mem_cons, List.forall_mem_cons, List.forall_mem_singleton]
  refine ⟨
    ⟨nofun, nofun, by decide, fun _ => ⟨⟨'a', by decide, by decide⟩, by decide, by decide +kernel, ?_⟩, nofun⟩,
    ⟨?_, nofun, by decide,
      fun _ => ⟨⟨'p', by decide, by decide⟩, by decide, by decide +kernel, nofun⟩, fun _ _ => by decide⟩,
    ⟨?_, ?_, by decide, nofun, nofun⟩, ⟨nofun, ?_, by decide, nofun, nofun⟩⟩
  · exact fun _ => noNames _ (by decide)
  · rintro name ⟨⟩
    decide +kernel
  · rintro name ⟨⟩
    decide +kernel
  · rintro quote ⟨⟩
    exact .inl rfl
  · rintro quote ⟨⟩
    exact .inr rfl

theorem parse_variedArguments : ∃ template, parse (callSource "f" variedArguments) = .ok template ∧
    template.onlyCall? = some ⟨"f", [⟨some "a (b, c)", false⟩, ⟨some "", true⟩],
      [("k", ⟨some "say \"hi\\", true⟩)]⟩ := by
  rcases parse_callSource (by decide : isIdentifier "f".toList = true) variedArguments_writable with
    ⟨template, parsed, isCall⟩
  refine ⟨template, parsed, isCall.trans ?_⟩
  decide +kernel

/-! ### A named text that starts with an equals sign -/

def doubledArgument : TextArgument :=
  ⟨some "a", "=b", none⟩

/-- Behind the equals sign of its name such a text is read as part of an argument without a name. -/
theorem doubledArgument_misread : IsBare true "=b".toList ∧ '\x7b' ∉ "=b".toList ∧
    callSource "f" [doubledArgument] = "\x7bf(a==b)\x7d" ∧
    (parse (callSource "f" [doubledArgument])).toOption.bind Template.onlyCall? =
      some ⟨"f", [⟨some "a==b", false⟩], []⟩ := by
  exact ⟨⟨⟨'=', by decide, by decide⟩, by decide, by decide +kernel, nofun⟩, by decide, by decide +kernel,
    by decide +kernel⟩

end Markup
end TemplateCascade

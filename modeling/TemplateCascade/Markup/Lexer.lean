import TemplateCascade.Markup.Fault
import TemplateCascade.Text.Blank
import TemplateCascade.Text.Identifier

namespace TemplateCascade
namespace Markup

/-!
# From source to tokens

What a character means depends on where it stands: in literal text, in the argument list of a call,
in a quoted value or inside a block tag.  Inline constructs nest, so the lexer keeps a stack of the
constructs that are open, each with the span of its opening token.  A step takes one token off the
front of the source and says which constructs are open after it.  A step records that the characters
it passed over, those of its token and those it leaves make up its input, so no step can lose text
and every step shortens what is left.
-/

open Text

/-- A construct that is open. -/
inductive Mode where
  /-- Just inside a call or after a comma: a name or a quote may come. -/
  | argumentStart (opened : Span)
  /-- Just after the name of an argument: a quote may come. -/
  | argumentValue (opened : Span)
  /-- Inside an argument, with some parentheses open. -/
  | argument (depth : Nat) (opened : Span)
  | quoted (quote : Char) (opened : Span)
  | tag (opened : Span)
deriving DecidableEq, Repr

namespace Mode

/-- The error for a construct that is open at the end of the source. -/
def unfinished : Mode → ParseError
  | .argumentStart opened | .argumentValue opened | .argument _ opened => ⟨.unclosedCall, opened⟩
  | .quoted quote opened => ⟨.unclosedQuote quote, opened⟩
  | .tag opened => ⟨.unclosedTag, opened⟩

end Mode

/-! ## Where constructs start -/

def tagOpening : List Char := ['<', 't', 'p', 'l', ':']
def tagClosing : List Char := ['<', '/', 't', 'p', 'l', ':']
def commentOpening : List Char := tagOpening ++ ['c', 'o', 'm', 'm', 'e', 'n', 't', '>']
def commentClosing : List Char := tagClosing ++ ['c', 'o', 'm', 'm', 'e', 'n', 't', '>']

/-- What follows a literal at the front of a text, `none` when the text starts otherwise. -/
def dropLiteral? : List Char → List Char → Option (List Char)
  | [], text => some text
  | _ :: _, [] => none
  | expected :: literal, character :: text =>
      if expected = character then dropLiteral? literal text else none

theorem dropLiteral?_eq_some {literal text rest : List Char}
    (found : dropLiteral? literal text = some rest) : literal ++ rest = text := by
  induction literal generalizing text with
  | nil => simpa [dropLiteral?] using found.symm
  | cons expected literal ih =>
      cases text with
      | nil => simp [dropLiteral?] at found
      | cons character text =>
          simp only [dropLiteral?] at found
          split at found
          · next same => simp [same, ih found]
          · simp at found

theorem dropLiteral?_append (literal rest : List Char) :
    dropLiteral? literal (literal ++ rest) = some rest := by
  induction literal with
  | nil => rfl
  | cons character literal ih => simp [dropLiteral?, ih]

/-- Whether a text starts with an identifier. -/
def startsIdentifier : List Char → Bool
  | [] => false
  | character :: _ => isIdentifierStart character

/-- The name of the function whose call starts here. -/
def calledName? : List Char → Option (List Char)
  | '\x7b' :: after =>
      match leadingIdentifier after, afterIdentifier after with
      | first :: name, '(' :: _ => some (first :: name)
      | _, _ => none
  | _ => none

/-- Whether a variable or a call starts here. -/
def startsInline (text : List Char) : Bool :=
  match text with
  | '\x7b' :: '$' :: after => startsIdentifier after
  | _ => (calledName? text).isSome

/-- Whether an opening or closing block tag starts here. -/
def startsTag (text : List Char) : Bool :=
  match dropLiteral? tagClosing text with
  | some after => startsIdentifier after
  | none =>
      match dropLiteral? tagOpening text with
      | some after => startsIdentifier after
      | none => false

/-- Whether literal text ends here because a construct starts. -/
def startsConstruct (text : List Char) : Bool :=
  startsInline text || startsTag text

/-! ## Runs of text -/

/-- Split a text before the first place where `stop` holds of what follows. -/
def breakBefore (stop : List Char → Bool) : List Char → List Char × List Char
  | [] => ([], [])
  | character :: rest =>
      if stop (character :: rest) then ([], character :: rest)
      else
        let (run, left) := breakBefore stop rest
        (character :: run, left)

theorem breakBefore_append (stop : List Char → Bool) (text : List Char) :
    (breakBefore stop text).1 ++ (breakBefore stop text).2 = text := by
  induction text with
  | nil => rfl
  | cons character rest ih =>
      simp only [breakBefore]
      split
      · rfl
      · simp [ih]

/--
The text of an unquoted argument and how many parentheses are open after it.  Parentheses inside the
argument are kept and balanced; outside of them a comma or a closing parenthesis ends it, and so does
an inline construct anywhere.
-/
def argumentRun (depth : Nat) : List Char → List Char × Nat × List Char
  | [] => ([], depth, [])
  | character :: rest =>
      if depth = 0 && (character = ',' || character = ')') then ([], depth, character :: rest)
      else if startsInline (character :: rest) then ([], depth, character :: rest)
      else
        let after :=
          if character = '(' then depth + 1 else if character = ')' then depth - 1 else depth
        let (run, final, left) := argumentRun after rest
        (character :: run, final, left)

theorem argumentRun_append (depth : Nat) (text : List Char) :
    (argumentRun depth text).1 ++ (argumentRun depth text).2.2 = text := by
  induction text generalizing depth with
  | nil => rfl
  | cons character rest ih =>
      simp only [argumentRun]
      split
      · rfl
      · split
        · rfl
        · simp [ih]

/--
The text of a quoted value up to its closing quote or an inline construct.  A backslash takes the
next character with it, whatever that is.
-/
def quotedRun (quote : Char) : List Char → List Char × List Char
  | [] => ([], [])
  | character :: rest =>
      if character = quote then ([], character :: rest)
      else if startsInline (character :: rest) then ([], character :: rest)
      else if character = '\\' then
        match rest with
        | [] => (['\\'], [])
        | escaped :: left =>
            let (run, left) := quotedRun quote left
            ('\\' :: escaped :: run, left)
      else
        let (run, left) := quotedRun quote rest
        (character :: run, left)

theorem quotedRun_append (quote : Char) (text : List Char) :
    (quotedRun quote text).1 ++ (quotedRun quote text).2 = text := by
  fun_induction quotedRun quote text <;> simp_all

/-! ## One step -/

/-- One token taken off the front of `input`. -/
structure Scanned (input : List Char) where
  kind : TokenKind
  /-- White space in front of the token that belongs to no token. -/
  skipped : List Char
  lexeme : List Char
  rest : List Char
  /-- The constructs that are open after the token, innermost first, given the token's own span. -/
  modes : Span → List Mode
  /-- What is wrong with the token. -/
  fault : Option Fault
  lexeme_ne_nil : lexeme ≠ []
  append_eq : skipped ++ lexeme ++ rest = input

theorem Scanned.length_rest_lt {input : List Char} (scanned : Scanned input) :
    scanned.rest.length < input.length := by
  have total := congrArg List.length scanned.append_eq
  have positive := List.length_pos_iff.mpr scanned.lexeme_ne_nil
  simp only [List.length_append] at total
  omega

/-- The parts of a variable's path; names are separated by points. -/
def splitPath (path : List Char) : List (List Char) :=
  path.splitOn '.'

/-- A character of a variable's path. -/
def isPathPart (character : Char) : Bool :=
  isIdentifierPart character || character == '.'

/-- A variable, given what follows its opening brace and dollar sign. -/
def scanVariable (modes : List Mode) (after : List Char) : Scanned ('\x7b' :: '$' :: after) :=
  let path := after.takeWhile isPathPart
  match left : after.dropWhile isPathPart with
  | '\x7d' :: rest =>
      let malformed := (splitPath path).any List.isEmpty
      { kind := if malformed then .error else .variableReference
        skipped := []
        lexeme := '\x7b' :: '$' :: (path ++ ['\x7d'])
        rest := rest
        modes := fun _ => modes
        fault := if malformed then some (.malformedPath (String.ofList path)) else none
        lexeme_ne_nil := by simp
        append_eq := by
          have split := List.takeWhile_append_dropWhile (p := isPathPart) (l := after)
          rw [left] at split
          simp [path, split] }
  | rest =>
      { kind := .error
        skipped := []
        lexeme := '\x7b' :: '$' :: path
        rest := rest
        modes := fun _ => modes
        fault := some (.unclosedVariable (String.ofList path))
        lexeme_ne_nil := by simp
        append_eq := by
          have split := List.takeWhile_append_dropWhile (p := isPathPart) (l := after)
          rw [left] at split
          simp [path, split] }

/-- The opening of a call, given what follows its brace and the name found there. -/
def scanCall? (modes : List Mode) (after : List Char) : Option (Scanned ('\x7b' :: after)) :=
  match name : leadingIdentifier after, left : afterIdentifier after with
  | first :: more, '(' :: rest =>
      some
        { kind := .callStart
          skipped := []
          lexeme := '\x7b' :: first :: (more ++ ['('])
          rest := rest
          modes := fun span => .argumentStart span :: modes
          fault := none
          lexeme_ne_nil := by simp
          append_eq := by
            have split := leadingIdentifier_append_afterIdentifier after
            rw [name, left] at split
            simp [← split] }
  | _, _ => none

/-- A variable or the opening of a call, if one starts here. -/
def scanInline? (modes : List Mode) : (input : List Char) → Option (Scanned input)
  | '\x7b' :: '$' :: after =>
      if startsIdentifier after then some (scanVariable modes after)
      else scanCall? modes ('$' :: after)
  | '\x7b' :: after => scanCall? modes after
  | _ => none

/-- A closing tag, given what follows its opening characters. -/
def scanClosingTag (modes : List Mode) {input after : List Char}
    (found : tagClosing ++ after = input) : Scanned input :=
  let name := leadingIdentifier after
  let blanks := (afterIdentifier after).takeWhile isAsciiBlank
  match left : (afterIdentifier after).dropWhile isAsciiBlank with
  | '>' :: rest =>
      { kind := .tagClose
        skipped := []
        lexeme := tagClosing ++ name ++ blanks ++ ['>']
        rest := rest
        modes := fun _ => modes
        fault := none
        lexeme_ne_nil := by simp
        append_eq := by
          have split := List.takeWhile_append_dropWhile (p := isAsciiBlank)
            (l := afterIdentifier after)
          have whole := leadingIdentifier_append_afterIdentifier after
          rw [left] at split
          simp [name, blanks, split, whole, found] }
  | rest =>
      { kind := .error
        skipped := []
        lexeme := tagClosing ++ name ++ blanks
        rest := rest
        modes := fun _ => modes
        fault := some .unclosedClosingTag
        lexeme_ne_nil := by simp [tagClosing]
        append_eq := by
          have split := List.takeWhile_append_dropWhile (p := isAsciiBlank)
            (l := afterIdentifier after)
          have whole := leadingIdentifier_append_afterIdentifier after
          rw [left] at split
          simp [name, blanks, split, whole, found] }

/-- The opening of a block tag, given what follows its opening characters. -/
def scanOpeningTag (modes : List Mode) {input after : List Char}
    (found : tagOpening ++ after = input) : Scanned input :=
  { kind := .tagStart
    skipped := []
    lexeme := tagOpening ++ leadingIdentifier after
    rest := afterIdentifier after
    modes := fun span => .tag span :: modes
    fault := none
    lexeme_ne_nil := by simp [tagOpening]
    append_eq := by
      simp [leadingIdentifier_append_afterIdentifier, found] }

/-- A block tag, if one starts here. -/
def scanTag? (modes : List Mode) (input : List Char) : Option (Scanned input) :=
  match closing : dropLiteral? tagClosing input with
  | some after =>
      if startsIdentifier after then some (scanClosingTag modes (dropLiteral?_eq_some closing))
      else none
  | none =>
      match opening : dropLiteral? tagOpening input with
      | some after =>
          if startsIdentifier after then some (scanOpeningTag modes (dropLiteral?_eq_some opening))
          else none
      | none => none

/-- A token of plain text. -/
def Scanned.plain (modes : List Mode) {input : List Char} (first : Char) (run left : List Char)
    (found : first :: run ++ left = input) : Scanned input :=
  { kind := .text
    skipped := []
    lexeme := first :: run
    rest := left
    modes := fun _ => modes
    fault := none
    lexeme_ne_nil := by simp
    append_eq := by simpa using found }

/-- A token of one character behind some white space. -/
def Scanned.single (kind : TokenKind) (modes : Span → List Mode) (fault : Option Fault)
    {input : List Char} (skipped : List Char) (character : Char) (rest : List Char)
    (found : skipped ++ character :: rest = input) : Scanned input :=
  { kind := kind
    skipped := skipped
    lexeme := [character]
    rest := rest
    modes := modes
    fault := fault
    lexeme_ne_nil := by simp
    append_eq := by simpa using found }

/-- Literal text from here to the next construct. -/
def scanText (modes : List Mode) (first : Char) (rest : List Char) : Scanned (first :: rest) :=
  Scanned.plain modes first (breakBefore startsConstruct rest).1
    (breakBefore startsConstruct rest).2 (by simp [breakBefore_append])

/-- A token inside an argument, behind its start. -/
def scanArgument (depth : Nat) (opened : Span) (modes : List Mode) (first : Char)
    (rest : List Char) : Scanned (first :: rest) :=
  let here := .argument depth opened :: modes
  if depth = 0 && first = ',' then
    Scanned.single .comma (fun _ => .argumentStart opened :: modes) none [] first rest rfl
  else if depth = 0 && first = ')' then
    match rest with
    | '\x7d' :: left =>
        { kind := .callEnd
          skipped := []
          lexeme := [first, '\x7d']
          rest := left
          modes := fun _ => modes
          fault := none
          lexeme_ne_nil := by simp
          append_eq := rfl }
    | left => Scanned.single .error (fun _ => here) (some .unbalancedParenthesis) [] first left rfl
  else
    match scanInline? here (first :: rest) with
    | some scanned => scanned
    | none =>
        let after := if first = '(' then depth + 1 else if first = ')' then depth - 1 else depth
        Scanned.plain (.argument (argumentRun after rest).2.1 opened :: modes) first
          (argumentRun after rest).1 (argumentRun after rest).2.2 (by simp [argumentRun_append])

/--
A token at the start of an argument: a quote opens a quoted value, and, unless the argument has its
name already, an identifier with one equals sign names it.  White space in front of a quote is
dropped, in front of a name it belongs to the token.
-/
def scanArgumentStart? (named : Bool) (opened : Span) (modes : List Mode) (input : List Char) :
    Option (Scanned input) :=
  let blanks := input.takeWhile isBlank
  match left : dropLeadingBlanks input with
  | [] => none
  | first :: rest =>
      have whole : blanks ++ first :: rest = input := by
        rw [← left]; exact takeWhile_append_dropLeadingBlanks input
      if first = '"' || first = '\'' then
        some (Scanned.single .quoteOpen
          (fun span => .quoted first span :: .argument 0 opened :: modes) none blanks first rest
          whole)
      else if named then none
      else
        match name : leadingIdentifier (first :: rest), after : afterIdentifier (first :: rest) with
        | _ :: _, '=' :: '=' :: _ => none
        | initial :: more, '=' :: tail =>
            some
              { kind := .argumentName
                skipped := []
                lexeme := blanks ++ initial :: (more ++ ['='])
                rest := tail
                modes := fun _ => .argumentValue opened :: modes
                fault := none
                lexeme_ne_nil := by simp
                append_eq := by
                  have split := leadingIdentifier_append_afterIdentifier (first :: rest)
                  rw [name, after] at split
                  rw [← whole, ← split]
                  simp }
        | _, _ => none

/-- A token of a quoted value. -/
def scanQuoted (quote : Char) (opened : Span) (modes : List Mode) (first : Char)
    (rest : List Char) : Scanned (first :: rest) :=
  let here := .quoted quote opened :: modes
  if first = quote then
    Scanned.single .quoteClose (fun _ => modes) none [] first rest rfl
  else
    match scanInline? here (first :: rest) with
    | some scanned => scanned
    | none =>
        if first = '\\' then
          match rest with
          | [] => Scanned.plain here first [] [] rfl
          | escaped :: left =>
              Scanned.plain here first (escaped :: (quotedRun quote left).1)
                (quotedRun quote left).2 (by simp [quotedRun_append])
        else
          Scanned.plain here first (quotedRun quote rest).1 (quotedRun quote rest).2
            (by simp [quotedRun_append])

/-- A token inside a block tag; `none` when only white space is left. -/
def scanInTag? (opened : Span) (modes : List Mode) (input : List Char) : Option (Scanned input) :=
  let here := .tag opened :: modes
  let blanks := input.takeWhile isBlank
  match left : dropLeadingBlanks input with
  | [] => none
  | first :: rest =>
      have whole : blanks ++ first :: rest = input := by
        rw [← left]; exact takeWhile_append_dropLeadingBlanks input
      match name : leadingIdentifier (first :: rest) with
      | initial :: more =>
          have split : initial :: more ++ afterIdentifier (first :: rest) = first :: rest := by
            rw [← name]; exact leadingIdentifier_append_afterIdentifier (first :: rest)
          match after : afterIdentifier (first :: rest) with
          | '=' :: '"' :: tail =>
              some
                { kind := .attributeName
                  skipped := blanks
                  lexeme := initial :: (more ++ ['=', '"'])
                  rest := tail
                  modes := fun span => .quoted '"' span :: here
                  fault := none
                  lexeme_ne_nil := by simp
                  append_eq := by
                    rw [after] at split
                    rw [← whole, ← split]
                    simp }
          | tail =>
              some
                { kind := .error
                  skipped := blanks
                  lexeme := initial :: more
                  rest := tail
                  modes := fun _ => here
                  fault := some .unquotedAttribute
                  lexeme_ne_nil := by simp
                  append_eq := by
                    rw [after] at split
                    rw [← whole, ← split]
                    simp }
      | [] =>
          if first = '>' then some (Scanned.single .tagEnd (fun _ => modes) none blanks first rest whole)
          else
            match first, rest with
            | '/', '>' :: left =>
                some
                  { kind := .tagSelfClose
                    skipped := blanks
                    lexeme := ['/', '>']
                    rest := left
                    modes := fun _ => modes
                    fault := none
                    lexeme_ne_nil := by simp
                    append_eq := by simpa using whole }
            | found, tail =>
                some (Scanned.single .error (fun _ => here)
                  (some (.strayCharacter found.toString)) blanks found tail whole)

/-- What a step finds at the front of a source. -/
inductive Step (input : List Char) where
  /-- A token. -/
  | token (scanned : Scanned input)
  /-- A whole comment, which leaves no token. -/
  | comment (skipped rest : List Char) (skipped_ne_nil : skipped ≠ [])
      (append_eq : skipped ++ rest = input)
  /-- A comment that is never closed: all that is left belongs to it. -/
  | unclosedComment
  /-- Only white space, inside a tag. -/
  | exhausted

/-- Split a text behind the first closing of a comment. -/
def splitComment? (text : List Char) : Option (List Char × List Char) :=
  let (inside, left) := breakBefore (fun here => (dropLiteral? commentClosing here).isSome) text
  (dropLiteral? commentClosing left).map fun rest => (inside ++ commentClosing, rest)

theorem splitComment?_eq_some {text inside rest : List Char}
    (found : splitComment? text = some (inside, rest)) : inside ++ rest = text := by
  simp only [splitComment?, Option.map_eq_some_iff, Prod.mk.injEq] at found
  obtain ⟨left, dropped, same, rfl⟩ := found
  subst same
  rw [List.append_assoc, dropLiteral?_eq_some dropped, breakBefore_append]

/-- One step in literal text. -/
def stepInText (first : Char) (rest : List Char) : Step (first :: rest) :=
  match opening : dropLiteral? commentOpening (first :: rest) with
  | some after =>
      match closed : splitComment? after with
      | some (inside, left) =>
          .comment (commentOpening ++ inside) left (by simp [commentOpening]) (by
            rw [List.append_assoc, splitComment?_eq_some closed, dropLiteral?_eq_some opening])
      | none => .unclosedComment
  | none =>
      match scanInline? [] (first :: rest) with
      | some scanned => .token scanned
      | none =>
          match scanTag? [] (first :: rest) with
          | some scanned => .token scanned
          | none => .token (scanText [] first rest)

/-- One step, by the innermost construct that is open. -/
def step (modes : List Mode) (first : Char) (rest : List Char) : Step (first :: rest) :=
  match modes with
  | [] => stepInText first rest
  | .argumentStart opened :: outer =>
      .token ((scanArgumentStart? false opened outer (first :: rest)).getD
        (scanArgument 0 opened outer first rest))
  | .argumentValue opened :: outer =>
      .token ((scanArgumentStart? true opened outer (first :: rest)).getD
        (scanArgument 0 opened outer first rest))
  | .argument depth opened :: outer => .token (scanArgument depth opened outer first rest)
  | .quoted quote opened :: outer => .token (scanQuoted quote opened outer first rest)
  | .tag opened :: outer =>
      match scanInTag? opened outer (first :: rest) with
      | some scanned => .token scanned
      | none => .exhausted

/-! ## The whole source -/

/-- The tokens of a source, the errors met on the way, and the place where the source ends. -/
structure Lexed where
  tokens : List Token
  errors : List ParseError
  finish : Place
deriving DecidableEq, Repr

namespace Lexed

/-- Put a token and what is wrong with it in front. -/
def prepend (token : Token) (fault : Option Fault) (later : Lexed) : Lexed :=
  { later with
    tokens := token :: later.tokens
    errors := (fault.toList.map fun fault => ⟨fault, token.span⟩) ++ later.errors }

/-- The end of a source: every construct that is still open is an error, innermost first. -/
def ended (place : Place) (modes : List Mode) : Lexed :=
  ⟨[], modes.map Mode.unfinished, place⟩

/-- The tokens with the token for the end of the source behind them. -/
def allTokens (lexed : Lexed) : List Token :=
  lexed.tokens ++ [Token.finish (Span.point lexed.finish)]

end Lexed

/-- The tokens from a place in the source on, with some constructs open. -/
def lexFrom (place : Place) (modes : List Mode) (source : List Char) : Lexed :=
  match source with
  | [] => Lexed.ended place modes
  | first :: rest =>
      match step modes first rest with
      | .token scanned =>
          let start := place.after scanned.skipped
          let span := Span.covering start scanned.lexeme
          have := scanned.length_rest_lt
          Lexed.prepend ⟨scanned.kind, scanned.lexeme, span⟩ scanned.fault
            (lexFrom (start.after scanned.lexeme) (scanned.modes span) scanned.rest)
      | .comment skipped left nonempty whole =>
          have : left.length < (first :: rest).length := by
            have total := congrArg List.length whole
            have positive := List.length_pos_iff.mpr nonempty
            simp only [List.length_append] at total
            omega
          lexFrom (place.after skipped) modes left
      | .unclosedComment =>
          Lexed.prepend ⟨.error, [], Span.covering place commentOpening⟩ (some .unclosedComment)
            (Lexed.ended (place.after (first :: rest)) modes)
      | .exhausted => Lexed.ended (place.after (first :: rest)) modes
termination_by source.length
decreasing_by all_goals assumption

/-- The tokens of a whole source. -/
def lex (source : String) : Lexed :=
  lexFrom Place.start [] source.toList

end Markup
end TemplateCascade

import TemplateCascade.Markup.Fault
import TemplateCascade.Markup.Segment
import TemplateCascade.Parsed
import TemplateCascade.Text.Blank
import TemplateCascade.Value.Basic

namespace TemplateCascade
namespace Markup

/-!
# Variables, calls and arguments

The grammar of inline constructs over tokens.  A call is its opening, arguments separated by commas,
and its closing.  An argument may have a name; it is either a quoted value, with nothing but white
space behind it, or a run of text, variables and calls, trimmed at both ends.  Reading something off
a list of tokens leaves a list that is no longer, which is why the grammar's recursion ends.
-/

open Text

/-- The segment of a variable token: its path without braces and dollar sign. -/
def referenceOf (token : Token) : Segment :=
  .reference (((token.lexeme.drop 2).dropLast.splitOn '.').map String.ofList) token.span

/-- The name of the function that a token opens a call of. -/
def functionName (token : Token) : String :=
  String.ofList (token.lexeme.drop 1).dropLast

/-- The name in a token that names an argument. -/
def argumentName (token : Token) : String :=
  String.ofList (trimBlanks token.lexeme).dropLast

/--
Quoted text without its escapes.  A backslash before a quote or a backslash is dropped, any other
backslash stays.
-/
def unescape : List Char → List Char
  | [] => []
  | [last] => [last]
  | first :: second :: rest =>
      if first = '\\' && (second = '\\' || second = '"' || second = '\'') then
        second :: unescape rest
      else first :: unescape (second :: rest)

/-- The part of a span behind some text at its start. -/
def spanBehind (span : Span) (text : List Char) : Span :=
  let place := Place.after ⟨span.offset, span.line, span.column⟩ text
  ⟨place.offset, place.line, place.column, span.length - byteLength text⟩

/-- A literal without the blanks it starts with; any other segment as it is. -/
def trimFirst : List Segment → List Segment
  | .literal text span :: rest =>
      let kept := dropLeadingBlanks text.toList
      .literal (String.ofList kept) (spanBehind span (text.toList.takeWhile isBlank)) :: rest
  | parts => parts

/-- The last segment without the blanks it ends with, if it is a literal. -/
def trimLast : List Segment → List Segment
  | [] => []
  | [.literal text span] =>
      let kept := dropTrailingBlanks text.toList
      [.literal (String.ofList kept)
        { span with length := span.length - (byteLength text.toList - byteLength kept) }]
  | [part] => [part]
  | part :: next :: rest => part :: trimLast (next :: rest)

/-- Whether a segment is a literal without text. -/
def isEmptyLiteral : Segment → Bool
  | .literal text _ => text == ""
  | _ => false

/-- The parts of an unquoted argument without white space around them. -/
def trimParts (parts : List Segment) : List Segment :=
  (trimLast (trimFirst parts)).filter fun part => !isEmptyLiteral part

/-- The span of some parts: from the first to the last, or a point when there are none. -/
def partsSpan (start : Span) (parts : List Segment) : Span :=
  match parts.head?, parts.getLast? with
  | some first, some last => first.span.merge last.span
  | _, _ => { start with length := 0 }

/-- White space behind a quoted argument; any other text there is refused. -/
def skipBlankText : (tokens : List Token) → Except ParseError (Parsed Unit tokens)
  | [] => .ok (.nothing () [])
  | token :: rest =>
      if token.kind = .text then
        if (trimBlanks token.lexeme).isEmpty then do
          let ⟨_, left, shorter⟩ ← skipBlankText rest
          .ok ⟨(), left, Nat.le_succ_of_le shorter⟩
        else .error ⟨.textAfterQuote, token.span⟩
      else .ok (.nothing () (token :: rest))

/-- An argument as it was read: its name, if it has one, and its value. -/
abbrev NamedArgument := Option String × Argument

/--
The segment of a call.  One argument that is missing means that there are none; of several, none may
be missing.  A name given twice keeps its place and takes the later value.
-/
def assembleCall (name : String) (read : List NamedArgument) (span : Span) :
    Except ParseError Segment :=
  let positional := read.filterMap fun argument =>
    match argument with
    | (none, value) => some value
    | (some _, _) => none
  let named := read.foldl (fun known argument =>
    match argument with
    | (none, _) => known
    | (some key, value) => putEntry known key value) ([] : List (String × Argument))
  let positional :=
    match positional, named with
    | [only], [] => if only.isMissing then [] else [only]
    | _, _ => positional
  match positional.find? ArgumentOf.isMissing with
  | some missing =>
      if 1 < positional.length + named.length then .error ⟨.emptyArgument name, missing.span⟩
      else .ok (.call name positional named span)
  | none => .ok (.call name positional named span)

mutual

/-- The rest of a call behind its opening. -/
def parseCall (finish opening : Token) (tokens : List Token) :
    Except ParseError (Parsed Segment tokens) := do
  let ⟨(read, closing), rest, shorter⟩ ← parseArguments finish (functionName opening) tokens
  let call ← assembleCall (functionName opening) read (opening.span.merge closing)
  .ok ⟨call, rest, shorter⟩
termination_by 8 * tokens.length + 4

/-- The arguments of a call up to its closing, and the span of the closing. -/
def parseArguments (finish : Token) (name : String) (tokens : List Token) :
    Except ParseError (Parsed (List NamedArgument × Span) tokens) := do
  let ⟨argument, left, shorter⟩ ← parseArgument finish tokens
  match same : left with
  | token :: rest =>
      have shorterRest : rest.length < tokens.length := by
        subst same
        exact shorter
      match token.kind with
      | .comma => do
          let ⟨(more, closing), behind, shorterStill⟩ ← parseArguments finish name rest
          .ok ⟨(argument :: more, closing), behind, by omega⟩
      | .callEnd => .ok ⟨([argument], token.span), rest, Nat.le_of_lt shorterRest⟩
      | found => .error ⟨.unendedArgument name found, token.span⟩
  | [] => .error ⟨.unendedArgument name finish.kind, finish.span⟩
termination_by 8 * tokens.length + 3
decreasing_by
  all_goals omega

/-- One argument with its name. -/
def parseArgument (finish : Token) (tokens : List Token) :
    Except ParseError (Parsed NamedArgument tokens) :=
  match tokens with
  | [] => .error ⟨.strayInArguments finish.kind, finish.span⟩
  | token :: behind =>
      if token.kind = .argumentName then do
        let ⟨value, rest, shorter⟩ ← parseValue finish token.span behind
        .ok ⟨(some (argumentName token), value), rest, Nat.le_succ_of_le shorter⟩
      else do
        let ⟨value, rest, shorter⟩ ← parseValue finish token.span (token :: behind)
        .ok ⟨(none, value), rest, shorter⟩
termination_by 8 * tokens.length + 2
decreasing_by
  all_goals simp only [List.length_cons]
  all_goals omega

/-- The value of an argument; `start` is where the argument with its name starts. -/
def parseValue (finish : Token) (start : Span) (tokens : List Token) :
    Except ParseError (Parsed Argument tokens) :=
  match tokens with
  | [] => .error ⟨.strayInArguments finish.kind, finish.span⟩
  | token :: behind =>
      if token.kind = .quoteOpen then do
        let ⟨(parts, closing), left, shorter⟩ ←
          parseQuoted finish (token.lexeme.headD '"') behind
        let ⟨_, rest, shorterStill⟩ ← skipBlankText left
        .ok ⟨⟨parts, token.span.merge closing, true⟩, rest, by
          simp only [List.length_cons]; omega⟩
      else do
        let ⟨parts, rest, shorter⟩ ← parseParts finish (token :: behind)
        .ok ⟨⟨trimParts parts, partsSpan start (trimParts parts), false⟩, rest, shorter⟩
termination_by 8 * tokens.length + 1
decreasing_by
  all_goals simp only [List.length_cons]
  all_goals omega

/-- The parts of an unquoted argument up to a comma or the end of the call. -/
def parseParts (finish : Token) (tokens : List Token) :
    Except ParseError (Parsed (List Segment) tokens) :=
  match tokens with
  | [] => .error ⟨.strayInArguments finish.kind, finish.span⟩
  | token :: behind =>
      match token.kind with
      | .comma | .callEnd => .ok (.nothing [] (token :: behind))
      | .text => do
          let ⟨parts, rest, shorter⟩ ← parseParts finish behind
          .ok ⟨Segment.consLiteral (String.ofList token.lexeme) token.span parts, rest,
            Nat.le_succ_of_le shorter⟩
      | .variableReference => do
          let ⟨parts, rest, shorter⟩ ← parseParts finish behind
          .ok ⟨referenceOf token :: parts, rest, Nat.le_succ_of_le shorter⟩
      | .callStart => do
          let ⟨call, left, shorter⟩ ← parseCall finish token behind
          let ⟨parts, rest, shorterStill⟩ ← parseParts finish left
          .ok ⟨call :: parts, rest, by simp only [List.length_cons]; omega⟩
      | found => .error ⟨.strayInArguments found, token.span⟩
termination_by 8 * tokens.length
decreasing_by
  all_goals simp only [List.length_cons]
  all_goals omega

/-- The parts of a quoted value, and the span of its closing quote. -/
def parseQuoted (finish : Token) (quote : Char) (tokens : List Token) :
    Except ParseError (Parsed (List Segment × Span) tokens) :=
  match tokens with
  | [] => .error ⟨.unclosedQuote quote, finish.span⟩
  | token :: behind =>
      match token.kind with
      | .quoteClose => .ok (.single ([], token.span) behind)
      | .text => do
          let ⟨(parts, closing), rest, shorter⟩ ← parseQuoted finish quote behind
          .ok ⟨(Segment.consLiteral (String.ofList (unescape token.lexeme)) token.span parts,
            closing), rest, Nat.le_succ_of_le shorter⟩
      | .variableReference => do
          let ⟨(parts, closing), rest, shorter⟩ ← parseQuoted finish quote behind
          .ok ⟨(referenceOf token :: parts, closing), rest, Nat.le_succ_of_le shorter⟩
      | .callStart => do
          let ⟨call, left, shorter⟩ ← parseCall finish token behind
          let ⟨(parts, closing), rest, shorterStill⟩ ← parseQuoted finish quote left
          .ok ⟨(call :: parts, closing), rest, by simp only [List.length_cons]; omega⟩
      | _ => .error ⟨.unclosedQuote quote, token.span⟩
termination_by 8 * tokens.length
decreasing_by
  all_goals simp only [List.length_cons]
  all_goals omega

end

end Markup
end TemplateCascade

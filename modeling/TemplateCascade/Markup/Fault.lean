import TemplateCascade.Markup.Token

namespace TemplateCascade
namespace Markup

/-!
# What can be wrong with template source

Every fault is a cause with the names it is about; its category and its wording are functions of the
cause.  A source can have several lexical faults at once, and these are reported together; the first
fault in the order of the grammar is reported alone.
-/

open Text (Span)

/-- The categories faults are sorted into. -/
inductive FaultKind where
  | unterminatedTag
  | unterminatedString
  | unterminatedCall
  | unmatchedBlock
  | unclosedBlock
  | malformedArguments
  | unknownTag
  | missingAttribute
  | invalidAttribute
  | unexpectedToken
deriving DecidableEq, Repr

def FaultKind.text : FaultKind → String
  | .unterminatedTag => "unterminated tag"
  | .unterminatedString => "unterminated string"
  | .unterminatedCall => "unterminated function call"
  | .unmatchedBlock => "unmatched block tag"
  | .unclosedBlock => "unclosed block tag"
  | .malformedArguments => "malformed argument list"
  | .unknownTag => "unknown tag"
  | .missingAttribute => "missing attribute"
  | .invalidAttribute => "invalid attribute"
  | .unexpectedToken => "unexpected token"

/-- What the grammar would have taken in place of a token. -/
inductive Expectation where
  | bodyPart
  | attributePart
  | closingIf
deriving DecidableEq, Repr

def Expectation.text : Expectation → String
  | .bodyPart => "text, a variable, a function call or a block tag"
  | .attributePart => "an attribute, '>' or '/>'"
  | .closingIf => "</tpl:if>"

/-- The cause of a fault. -/
inductive Fault where
  | unclosedCall
  | unclosedQuote (quote : Char)
  | unclosedTag
  | unclosedVariable (path : String)
  | malformedPath (path : String)
  | unclosedComment
  | unclosedClosingTag
  | unbalancedParenthesis
  | unquotedAttribute
  | strayCharacter (found : String)
  | closingWithoutOpening (tag : String)
  | branchOutsideIf (tag : String)
  | unexpected (expected : Expectation) (found : TokenKind)
  | unendedArgument (function : String) (found : TokenKind)
  | emptyArgument (function : String)
  | textAfterQuote
  | strayInArguments (found : TokenKind)
  | unknownTag (tag : String)
  | branchAfterElse (tag : String)
  | neverClosed (tag : String)
  | dynamicIncludeName
  | missingAttribute (tag name : String)
  | unknownAttribute (tag name : String)
  | malformedLoopVariable
  | selfClosing (tag : String)
  | notSelfClosing (tag : String)
  | mismatchedClosing (expected found : String)
deriving DecidableEq, Repr

namespace Fault

/-- The category of a fault. -/
def kind : Fault → FaultKind
  | .unclosedCall => .unterminatedCall
  | .unclosedQuote _ => .unterminatedString
  | .unclosedTag | .unclosedVariable _ | .unclosedClosingTag => .unterminatedTag
  | .malformedPath _ | .strayCharacter _ | .unexpected _ _ | .branchAfterElse _ |
    .selfClosing _ | .notSelfClosing _ => .unexpectedToken
  | .unclosedComment | .neverClosed _ => .unclosedBlock
  | .unbalancedParenthesis | .unendedArgument _ _ | .emptyArgument _ | .textAfterQuote |
    .strayInArguments _ => .malformedArguments
  | .unquotedAttribute | .dynamicIncludeName | .unknownAttribute _ _ | .malformedLoopVariable =>
      .invalidAttribute
  | .closingWithoutOpening _ | .branchOutsideIf _ | .mismatchedClosing _ _ => .unmatchedBlock
  | .unknownTag _ => .unknownTag
  | .missingAttribute _ _ => .missingAttribute

/-- The wording of a fault. -/
def message : Fault → String
  | .unclosedCall => "expected ')\x7d' before end of template"
  | .unclosedQuote quote => "expected closing " ++ quote.toString
  | .unclosedTag => "expected '>' or '/>'"
  | .unclosedVariable path => "expected '\x7d' to close variable '$" ++ path ++ "'"
  | .malformedPath path => "malformed variable path '" ++ path ++ "'"
  | .unclosedComment => "<tpl:comment> is never closed"
  | .unclosedClosingTag => "expected '>' to end the closing tag"
  | .unbalancedParenthesis => "unbalanced ')' in argument list"
  | .unquotedAttribute => "attribute values must be written as name=\"value\""
  | .strayCharacter found => "unexpected '" ++ found ++ "' inside block tag"
  | .closingWithoutOpening tag => tag ++ " has no matching opening tag"
  | .branchOutsideIf tag => "<tpl:" ++ tag ++ "> outside of <tpl:if>"
  | .unexpected expected found => "expected " ++ expected.text ++ ", found " ++ found.description
  | .unendedArgument function found =>
      "expected ',' or ')\x7d' in call to '" ++ function ++ "', found " ++ found.description
  | .emptyArgument function => "empty argument in call to '" ++ function ++ "'"
  | .textAfterQuote => "unexpected text after a quoted argument"
  | .strayInArguments found => "unexpected " ++ found.description ++ " in argument list"
  | .unknownTag tag => "unknown block tag <tpl:" ++ tag ++ ">"
  | .branchAfterElse tag => "<tpl:" ++ tag ++ "> after <tpl:else>"
  | .neverClosed tag => "<tpl:" ++ tag ++ "> is never closed"
  | .dynamicIncludeName => "the included template name must be literal text"
  | .missingAttribute tag name =>
      "<tpl:" ++ tag ++ "> requires the '" ++ name ++ "' attribute"
  | .unknownAttribute tag name =>
      "<tpl:" ++ tag ++ "> has no '" ++ name ++ "' attribute"
  | .malformedLoopVariable => "loop variables must be written as $name"
  | .selfClosing tag => "<tpl:" ++ tag ++ "> cannot be self-closing"
  | .notSelfClosing tag => "<tpl:" ++ tag ++ "> must be self-closing"
  | .mismatchedClosing expected found =>
      "expected </tpl:" ++ expected ++ ">, found </tpl:" ++ found ++ ">"

end Fault

/-- A fault and the place it was found at. -/
structure ParseError where
  fault : Fault
  span : Span
deriving DecidableEq, Repr

namespace ParseError

/-- The category and wording of an error, without its place. -/
def summary (error : ParseError) : String :=
  error.fault.kind.text ++ ": " ++ error.fault.message

/-- An error on one line. -/
def text (error : ParseError) : String :=
  error.fault.kind.text ++ " at " ++ error.span.text ++ ": " ++ error.fault.message

/--
The lines of a source.  A carriage return in front of a line break belongs to the break, and a break
at the very end starts no further line.
-/
def sourceLines (source : List Char) : List (List Char) :=
  go [] source
where
  /-- Collect a line in reverse until its break. -/
  go (line : List Char) : List Char → List (List Char)
    | [] => if line.isEmpty then [] else [line.reverse]
    | '\n' :: rest =>
        (match line with
          | '\r' :: kept => kept.reverse
          | kept => kept.reverse) :: go [] rest
    | character :: rest => go (character :: line) rest

/-- A text with blanks in front until it has the given width. -/
def padLeft (width : Nat) (text : String) : String :=
  String.ofList (List.replicate (width - text.length) ' ') ++ text

/-- The mark under a faulty stretch of source: a caret, and tildes under the rest of it. -/
def pointer (span : Span) : String :=
  String.ofList (List.replicate (span.column - 1) ' ' ++ '^' :: List.replicate (span.length - 1) '~')

/-- An error with the source line it is on and a mark under the faulty stretch. -/
def textWithSource (error : ParseError) (source : String) : String :=
  let shown :=
    match (sourceLines source.toList)[error.span.line - 1]? with
    | none => ""
    | some line =>
        "  |\n" ++ padLeft 3 (toString error.span.line) ++ " | " ++ String.ofList line ++ "\n" ++
          "  | " ++ pointer error.span ++ "\n"
  "Error at " ++ error.span.text ++ ": " ++ error.fault.kind.text ++ "\n" ++
    "  " ++ error.fault.message ++ "\n" ++ shown

end ParseError

/-- All errors of one source; there is at least one. -/
structure ParseErrors where
  first : ParseError
  more : List ParseError
deriving DecidableEq, Repr

namespace ParseErrors

def toList (errors : ParseErrors) : List ParseError :=
  errors.first :: errors.more

/-- All errors, one to a line. -/
def text (errors : ParseErrors) : String :=
  String.intercalate "\n" (errors.toList.map ParseError.text)

end ParseErrors

end Markup
end TemplateCascade

import TemplateCascade.Text.Place

namespace TemplateCascade
namespace Markup

/-!
# Tokens of template source

A template is literal text with two kinds of construct in it: inline variables and function calls in
braces, and block tags in angle brackets.  A token keeps its characters as they stand in the source.
-/

open Text (Span)

inductive TokenKind where
  /-- Literal text, and the text of an argument or of an attribute's value. -/
  | text
  /-- A variable with its braces. -/
  | variableReference
  /-- The brace, name and parenthesis that open a call. -/
  | callStart
  /-- The name and equals sign in front of a named argument. -/
  | argumentName
  | comma
  /-- The parenthesis and brace that close a call. -/
  | callEnd
  | quoteOpen
  | quoteClose
  /-- The angle bracket and name that open a block tag. -/
  | tagStart
  /-- The name, equals sign and opening quote of an attribute. -/
  | attributeName
  /-- The angle bracket that ends an opening tag. -/
  | tagEnd
  /-- The slash and angle bracket that end a tag without a body. -/
  | tagSelfClose
  /-- A whole closing tag. -/
  | tagClose
  | endOfSource
  | error
deriving DecidableEq, Repr

/-- How messages speak of a token. -/
def TokenKind.description : TokenKind → String
  | .text => "text"
  | .variableReference => "variable"
  | .callStart => "function call"
  | .argumentName => "named argument"
  | .comma => "','"
  | .callEnd => "')\x7d'"
  | .quoteOpen => "opening quote"
  | .quoteClose => "closing quote"
  | .tagStart => "block tag"
  | .attributeName => "attribute"
  | .tagEnd => "'>'"
  | .tagSelfClose => "'/>'"
  | .tagClose => "closing block tag"
  | .endOfSource => "end of template"
  | .error => "error"

/-- A token: its kind, its characters and where they stand. -/
structure Token where
  kind : TokenKind
  lexeme : List Char
  span : Span
deriving DecidableEq, Repr

/-- The token that stands for the end of the source. -/
def Token.finish (span : Span) : Token := ⟨.endOfSource, [], span⟩

end Markup
end TemplateCascade

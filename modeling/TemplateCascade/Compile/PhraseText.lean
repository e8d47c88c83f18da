import TemplateCascade.Code.Basic
import TemplateCascade.Text.Identifier

namespace TemplateCascade
namespace Compile

/-!
# Phrase texts

A phrase is text with placeholders: a run of letters, digits and underscores in braces.  Any other
brace is text.  By itself a phrase compiles to code that takes each placeholder from the data.
-/

open Text

/-- A stretch of phrase text. -/
inductive Piece where
  | text (content : List Char)
  | placeholder (name : List Char)
deriving DecidableEq, Repr

/-- A character of a placeholder's name. -/
def isPlaceholderPart (character : Char) : Bool :=
  isAsciiLetter character || isAsciiDigit character || character == '_'

/-- The text between two places of a phrase, if there is any. -/
def textBetween (text : List Char) (start finish : Nat) : List Piece :=
  if start < finish then [.text ((text.take finish).drop start)] else []

/--
The pieces of a phrase text from the place `literalStart` on, where everything in front of `offset` is
known to be text.  What stands at the next brace is a placeholder, or the brace is text too.
-/
def piecesFrom (text : List Char) (literalStart offset : Nat) : List Piece :=
  match found : (text.drop offset).findIdx? (· == '\x7b') with
  | none => textBetween text literalStart text.length
  | some skipped =>
      let opening := offset + skipped
      let after := text.drop (opening + 1)
      let length := (after.takeWhile isPlaceholderPart).length
      if 0 < length ∧ after[length]? = some '\x7d' then
        textBetween text literalStart opening ++ .placeholder (after.take length) ::
          piecesFrom text (opening + length + 2) (opening + length + 2)
      else piecesFrom text literalStart (opening + 1)
termination_by text.length - offset
decreasing_by
  all_goals
    have inside := (List.findIdx?_eq_some_iff_getElem.mp found).1
    rw [List.length_drop] at inside
    omega

/-- The pieces of a phrase text in order. -/
def pieces (text : List Char) : List Piece :=
  piecesFrom text 0 0

/-- The text that a piece stands for in the phrase. -/
def Piece.source : Piece → List Char
  | .text content => content
  | .placeholder name => '\x7b' :: name ++ ['\x7d']

/-- The code of a phrase by itself: every placeholder is a variable, escaped as HTML. -/
def phraseCode (text : String) : Code :=
  Code.concatenate ((pieces text.toList).map fun piece =>
    match piece with
    | .text content => .text (String.ofList content)
    | .placeholder name => .escaped .html (.reference [String.ofList name]))

end Compile
end TemplateCascade

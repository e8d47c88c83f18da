import TemplateCascade.Text.Hidden

namespace TemplateCascade
namespace Text

/-!
# Quoted text

A text in double quotes, as listings of generated code and messages about expressions show it.
Quote and backslash are preceded by a backslash, the common controls have their letters, and a
character without a shape of its own is written by its code point.
-/

/-- The digits of a number to base sixteen, in lower case. -/
def hexadecimal (number : Nat) : List Char :=
  Nat.toDigits 16 number

/-- How one character stands inside double quotes. -/
def quotedCharacter (character : Char) : List Char :=
  if character = '"' then ['\\', '"']
  else if character = '\\' then ['\\', '\\']
  else if character = '\n' then ['\\', 'n']
  else if character = '\r' then ['\\', 'r']
  else if character = '\t' then ['\\', 't']
  else if character = '\x00' then ['\\', '0']
  else if isHidden character then
    ['\\', 'u', '\x7b'] ++ hexadecimal character.toNat ++ ['\x7d']
  else [character]

/-- A text in double quotes. -/
def quoted (text : String) : String :=
  String.ofList ('"' :: text.toList.flatMap quotedCharacter ++ ['"'])

end Text
end TemplateCascade

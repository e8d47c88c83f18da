namespace TemplateCascade
namespace Text

/-!
# Identifiers

Names of variables, functions, tags and attributes are ASCII: a letter or underscore, then letters,
digits and underscores.
-/

def isAsciiLetter (character : Char) : Bool :=
  ('a' ≤ character && character ≤ 'z') || ('A' ≤ character && character ≤ 'Z')

def isAsciiDigit (character : Char) : Bool :=
  '0' ≤ character && character ≤ '9'

/-- A character an identifier may start with. -/
def isIdentifierStart (character : Char) : Bool :=
  isAsciiLetter character || character == '_'

/-- A character an identifier may go on with. -/
def isIdentifierPart (character : Char) : Bool :=
  isAsciiLetter character || isAsciiDigit character || character == '_'

/-- The identifier a text starts with, empty when it starts with none. -/
def leadingIdentifier : List Char → List Char
  | [] => []
  | head :: tail =>
      if isIdentifierStart head then head :: tail.takeWhile isIdentifierPart else []

/-- What follows the leading identifier. -/
def afterIdentifier : List Char → List Char
  | [] => []
  | head :: tail =>
      if isIdentifierStart head then tail.dropWhile isIdentifierPart else head :: tail

/-- Whether a whole text is one identifier. -/
def isIdentifier : List Char → Bool
  | [] => false
  | head :: tail => isIdentifierStart head && tail.all isIdentifierPart

theorem leadingIdentifier_append_afterIdentifier (text : List Char) :
    leadingIdentifier text ++ afterIdentifier text = text := by
  cases text with
  | nil => rfl
  | cons head tail =>
      simp only [leadingIdentifier, afterIdentifier]
      split
      · simp [List.takeWhile_append_dropWhile]
      · rfl

/-- Letters of ASCII in lower case, everything else unchanged. -/
def asciiLower (character : Char) : Char :=
  if 'A' ≤ character && character ≤ 'Z' then Char.ofNat (character.toNat + 32) else character

/-- A text with its ASCII letters in lower case. -/
def lowerAscii (text : String) : String :=
  String.ofList (text.toList.map asciiLower)

end Text
end TemplateCascade

namespace TemplateCascade
namespace Text

/-!
# Blank characters

The characters that count as white space around names and numbers, and the removal of a blank
margin on either side of a text.  Trimming only ever shortens a text; the lemmas below say what it
removes.
-/

/-- The characters with the Unicode property `White_Space`. -/
def isBlank (character : Char) : Bool :=
  let point := character.toNat
  (9 ≤ point && point ≤ 13) || point == 0x20 || point == 0x85 || point == 0xA0 ||
    point == 0x1680 || (0x2000 ≤ point && point ≤ 0x200A) || point == 0x2028 || point == 0x2029 ||
    point == 0x202F || point == 0x205F || point == 0x3000

/-- The blank characters of ASCII, vertical tabulation left out. -/
def isAsciiBlank (character : Char) : Bool :=
  character == ' ' || character == '\t' || character == '\n' || character == '\r' ||
    character == '\x0c'

/-- Every ASCII blank is a blank. -/
theorem isBlank_of_isAsciiBlank (character : Char) (ascii : isAsciiBlank character = true) :
    isBlank character = true := by
  simp only [isAsciiBlank, Bool.or_eq_true, beq_iff_eq] at ascii
  rcases ascii with (((rfl | rfl) | rfl) | rfl) | rfl <;> rfl

/-- A text without the blanks it starts with. -/
def dropLeadingBlanks (text : List Char) : List Char :=
  text.dropWhile isBlank

/-- A text without the blanks it ends with. -/
def dropTrailingBlanks (text : List Char) : List Char :=
  (text.reverse.dropWhile isBlank).reverse

/-- A text without its blank margins. -/
def trimBlanks (text : List Char) : List Char :=
  dropTrailingBlanks (dropLeadingBlanks text)

/-- A string without its blank margins. -/
def trim (text : String) : String :=
  String.ofList (trimBlanks text.toList)

/-- The leading blanks and the rest make up the whole text. -/
theorem takeWhile_append_dropLeadingBlanks (text : List Char) :
    text.takeWhile isBlank ++ dropLeadingBlanks text = text :=
  List.takeWhile_append_dropWhile

theorem length_dropLeadingBlanks_le (text : List Char) :
    (dropLeadingBlanks text).length ≤ text.length := by
  have split := congrArg List.length (takeWhile_append_dropLeadingBlanks text)
  simp only [List.length_append] at split
  omega

end Text
end TemplateCascade

import TemplateCascade.Number.Reading

namespace TemplateCascade
namespace Toml

/-!
# Blanks, comments, keys and strings

A line ends with a line feed, which may have a carriage return before it.  Comments and strings hold
any character but control characters, of which only the tab is allowed.  A string is in double quotes,
and then may hold escapes, or in single quotes, and then holds what it says; in three quotes of either
sort it may go over several lines.
-/

open Text (isAsciiDigit isAsciiLetter)

def isBlank (character : Char) : Bool :=
  character == ' ' || character == '\t'

/-- A character of a comment or string. -/
def isPlain (character : Char) : Bool :=
  character == '\t' || (' ' ≤ character && character != '\x7f')

def skipBlanks (text : List Char) : List Char :=
  text.dropWhile isBlank

theorem length_skipBlanks_le (text : List Char) : (skipBlanks text).length ≤ text.length :=
  (List.dropWhile_sublist _).length_le

/-- What follows a line break at the front. -/
def afterBreak? : List Char → Option (List Char)
  | '\n' :: rest | '\r' :: '\n' :: rest => some rest
  | _ => none

theorem length_lt_of_afterBreak? {text rest : List Char} (found : afterBreak? text = some rest) :
    rest.length < text.length := by
  unfold afterBreak? at found
  split at found
  · cases found
    exact Nat.lt_succ_self _
  · cases found
    exact Nat.lt_succ_of_lt (Nat.lt_succ_self _)
  · cases found

/-- What follows a line that has nothing left but blanks and a comment. -/
def finishLine? (text : List Char) : Option (List Char) :=
  let rest :=
    match skipBlanks text with
    | '#' :: comment => comment.dropWhile isPlain
    | rest => rest
  if rest.isEmpty then some [] else afterBreak? rest

/--
What follows blanks, line breaks and comments.  A comment has to be ended by a line break.
-/
def skipLayout? (inComment : Bool) : List Char → Option (List Char)
  | [] => if inComment then none else some []
  | '\n' :: rest | '\r' :: '\n' :: rest => skipLayout? false rest
  | character :: rest =>
      if inComment then if isPlain character then skipLayout? true rest else none
      else if character = '#' then skipLayout? true rest
      else if isBlank character then skipLayout? false rest
      else some (character :: rest)

/-! ## Strings -/

/-- What a character after a backslash stands for. -/
def simpleEscape? : Char → Option Char
  | 'b' => some '\x08'
  | 't' => some '\t'
  | 'n' => some '\n'
  | 'f' => some '\x0c'
  | 'r' => some '\r'
  | '"' => some '"'
  | '\\' => some '\\'
  | _ => none

def hexadecimalValue? (digit : Char) : Option Nat :=
  if isAsciiDigit digit then some (digit.toNat - '0'.toNat)
  else if 'a' ≤ digit && digit ≤ 'f' then some (digit.toNat - 'a'.toNat + 10)
  else if 'A' ≤ digit && digit ≤ 'F' then some (digit.toNat - 'A'.toNat + 10)
  else none

/-- The number that hexadecimal digits stand for. -/
def ofHexadecimal? (digits : List Char) : Option Nat :=
  digits.foldlM (fun number digit => (hexadecimalValue? digit).map fun value => number * 16 + value) 0

/-- The character with a number in so many hexadecimal digits. -/
def numberedCharacter? (count : Nat) (text : List Char) : Option Char :=
  if text.length < count then none
  else do
    let number ← ofHexadecimal? (text.take count)
    if number.isValidChar then some (Char.ofNat number) else none

/-- The character that is meant behind a backslash, and the number of characters that say so. -/
def escape? : List Char → Option (Char × Nat)
  | 'u' :: rest => (numberedCharacter? 4 rest).map fun character => (character, 5)
  | 'U' :: rest => (numberedCharacter? 8 rest).map fun character => (character, 9)
  | mark :: _ => (simpleEscape? mark).map fun character => (character, 1)
  | [] => none

/-- Put characters in front of a string that was read. -/
def prepend (front : List Char) : Option (List Char × List Char) → Option (List Char × List Char) :=
  Option.map fun (content, rest) => (front ++ content, rest)

/-- The rest of a string on one line in double quotes. -/
def readDoubleQuoted (text : List Char) : Option (List Char × List Char) :=
  match text with
  | [] => none
  | '"' :: rest => some ([], rest)
  | '\\' :: rest =>
      match escape? rest with
      | some (character, count) => prepend [character] (readDoubleQuoted (rest.drop count))
      | none => none
  | character :: rest =>
      if isPlain character then prepend [character] (readDoubleQuoted rest) else none
termination_by text.length
decreasing_by all_goals simp only [List.length_cons, List.length_drop]; omega

/-- The rest of a string on one line in single quotes. -/
def readSingleQuoted (text : List Char) : Option (List Char × List Char) :=
  let isContent := fun character => isPlain character && character != '\''
  match text.dropWhile isContent with
  | '\'' :: rest => some (text.takeWhile isContent, rest)
  | _ => none

/-- What follows a backslash at the end of a line, with all blanks and line breaks behind it. -/
def afterContinuation? (text : List Char) : Option (List Char) :=
  (afterBreak? (skipBlanks text)).map fun rest =>
    rest.dropWhile fun character => isBlank character || character == '\n' || character == '\r'

theorem length_le_of_afterContinuation? {text rest : List Char}
    (found : afterContinuation? text = some rest) : rest.length ≤ text.length := by
  simp only [afterContinuation?, Option.map_eq_some_iff] at found
  obtain ⟨line, broken, rfl⟩ := found
  have := length_lt_of_afterBreak? broken
  have := length_skipBlanks_le text
  have := (List.dropWhile_sublist
    (fun character => isBlank character || character == '\n' || character == '\r')
    (l := line)).length_le
  omega

/--
The rest of a string over several lines in quotes of one sort.  Up to two quotes directly before the
closing three belong to the string.
-/
def readLines (quote : Char) (text : List Char) : Option (List Char × List Char) :=
  match text with
  | [] => none
  | '\r' :: '\n' :: rest => prepend ['\n'] (readLines quote rest)
  | character :: rest =>
      if character = quote then
        let run := (text.takeWhile (· == quote)).length
        if 3 ≤ run then
          let extra := min (run - 3) 2
          some (List.replicate extra quote, text.drop (3 + extra))
        else prepend [character] (readLines quote rest)
      else if character = '\\' && quote = '"' then
        match continued : afterContinuation? rest with
        | some further =>
            have := length_le_of_afterContinuation? continued
            readLines quote further
        | none =>
            match escape? rest with
            | some (escaped, count) => prepend [escaped] (readLines quote (rest.drop count))
            | none => none
      else if isPlain character || character = '\n' then prepend [character] (readLines quote rest)
      else none
termination_by text.length
decreasing_by all_goals simp only [List.length_cons, List.length_drop]; omega

/-- A text without a line break at its front. -/
def dropBreak (text : List Char) : List Char :=
  (afterBreak? text).getD text

/-- A string of any sort at the front of a text. -/
def readString : List Char → Option (List Char × List Char)
  | '"' :: '"' :: '"' :: rest => readLines '"' (dropBreak rest)
  | '\'' :: '\'' :: '\'' :: rest => readLines '\'' (dropBreak rest)
  | '"' :: rest => readDoubleQuoted rest
  | '\'' :: rest => readSingleQuoted rest
  | _ => none

/-! ## Keys -/

def isBareKeyPart (character : Char) : Bool :=
  isAsciiLetter character || isAsciiDigit character || character == '_' || character == '-'

/-- One part of a key: bare, or a string on one line. -/
def readKeyPart : List Char → Option (String × List Char)
  | '"' :: rest => (readDoubleQuoted rest).map fun (content, rest) => (String.ofList content, rest)
  | '\'' :: rest => (readSingleQuoted rest).map fun (content, rest) => (String.ofList content, rest)
  | text =>
      let part := text.takeWhile isBareKeyPart
      if part.isEmpty then none else some (String.ofList part, text.dropWhile isBareKeyPart)

/-- A key of at most so many parts with dots between them, and blanks around each. -/
def readKey : Nat → List Char → Option (List String × List Char)
  | 0, _ => none
  | count + 1, text => do
      let (part, rest) ← readKeyPart (skipBlanks text)
      match skipBlanks rest with
      | '.' :: more => (readKey count more).map fun (parts, rest) => (part :: parts, rest)
      | rest => pure ([part], rest)

end Toml
end TemplateCascade

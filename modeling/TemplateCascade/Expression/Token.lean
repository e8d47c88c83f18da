import TemplateCascade.Code.Arithmetic
import TemplateCascade.Number.Reading
import TemplateCascade.Text.Blank
import TemplateCascade.Text.Place
import TemplateCascade.Text.Quoted

namespace TemplateCascade
namespace Expression

/-!
# Tokens of expressions

Calculations and conditions are written in the arguments of calls and in attributes.  Their literal
text is scanned for numbers, words, strings and symbols; a variable or a call inside an expression is
one token, which holds its code.  Tokens carry spans.  A column here counts characters, and a line
break inside a string does not start a new line.
-/

open Text

inductive Symbol where
  | plus
  | minus
  | star
  | slash
  | percent
  | openParenthesis
  | closeParenthesis
  | comma
  | equal
  | unequal
  | less
  | atMost
  | greater
  | atLeast
  | exclamation
  | bothAmpersands
  | bothBars
deriving DecidableEq, Repr

def Symbol.text : Symbol → String
  | .plus => "+"
  | .minus => "-"
  | .star => "*"
  | .slash => "/"
  | .percent => "%"
  | .openParenthesis => "("
  | .closeParenthesis => ")"
  | .comma => ","
  | .equal => "=="
  | .unequal => "!="
  | .less => "<"
  | .atMost => "<="
  | .greater => ">"
  | .atLeast => ">="
  | .exclamation => "!"
  | .bothAmpersands => "&&"
  | .bothBars => "||"

/-- What a token of an expression is. -/
inductive Item where
  | number (amount : Float)
  | string (content : String)
  | word (name : String)
  | symbol (mark : Symbol)
  /-- A variable or a call. -/
  | value (code : Code)

/-- How messages speak of a token. -/
def Item.description : Item → String
  | .number amount => "'" ++ Value.numberText amount ++ "'"
  | .string content => quoted content
  | .word name => "'" ++ name ++ "'"
  | .symbol mark => "'" ++ mark.text ++ "'"
  | .value _ => "a value"

/-- Whether a token is a word, in any letter case; `lower` is the word in lower case. -/
def Item.isWord (lower : String) : Item → Bool
  | .word name => lowerAscii name = lower
  | _ => false

structure Token where
  item : Item
  span : Span

/-! ## What can be wrong with an expression -/

/-- The cause of a fault in an expression. -/
inductive Fault where
  | emptyExpression
  | emptyCondition
  | unclosedString
  | strayCharacter (found : Char)
  | expectedSymbol (expected : Symbol) (found : Option Item)
  | endOfExpression
  | endOfCondition
  | expectedOperator (found : Item)
  | unexpected (found : Item)
  | unknownFunction (name : String)
  | argumentCount (function : MathFunction) (count : Nat)
  | expectedNumber
  | expectedValue (found : Item)

def Fault.message : Fault → String
  | .emptyExpression => "empty expression"
  | .emptyCondition => "empty condition"
  | .unclosedString => "unterminated string"
  | .strayCharacter found => "unexpected character '" ++ found.toString ++ "'"
  | .expectedSymbol expected none => "expected '" ++ expected.text ++ "' before the end"
  | .expectedSymbol expected (some found) =>
      "expected '" ++ expected.text ++ "', found " ++ found.description
  | .endOfExpression => "unexpected end of expression"
  | .endOfCondition => "expected a value before the end"
  | .expectedOperator found => "expected an operator, found " ++ found.description
  | .unexpected found => "unexpected " ++ found.description
  | .unknownFunction name => "unknown function '" ++ name ++ "'"
  | .argumentCount function count =>
      "'" ++ function.name ++ "' takes " ++ function.arity.text ++ " argument(s), got " ++
        toString count
  | .expectedNumber => "expected a number after '-'"
  | .expectedValue found => "expected a value, found " ++ found.description

/-- A fault and the place it was found at. -/
structure Malformed where
  fault : Fault
  span : Span

/-! ## Scanning -/

/-- One token taken off the front of `input`. -/
structure Scanned (input : List Char) where
  item : Item
  lexeme : List Char
  rest : List Char
  lexeme_ne_nil : lexeme ≠ []
  append_eq : lexeme ++ rest = input

theorem Scanned.length_rest_lt {input : List Char} (scanned : Scanned input) :
    scanned.rest.length < input.length := by
  have total := congrArg List.length scanned.append_eq
  have positive := List.length_pos_iff.mpr scanned.lexeme_ne_nil
  simp only [List.length_append] at total
  omega

/-- The token of the characters at the front of a text. -/
def Scanned.taking (item : Item) (first : Char) (run rest : List Char) {input : List Char}
    (whole : first :: run ++ rest = input) : Scanned input :=
  ⟨item, first :: run, rest, List.cons_ne_nil first run, whole⟩

/-- Whether a text starts with a digit. -/
def startsDigit : List Char → Bool
  | [] => false
  | character :: _ => isAsciiDigit character

/-- The fraction behind the whole digits of a number, with its point, and what follows it. -/
def splitFraction : List Char → List Char × List Char
  | '.' :: after =>
      if startsDigit after then ('.' :: after.takeWhile isAsciiDigit, after.dropWhile isAsciiDigit)
      else ([], '.' :: after)
  | text => ([], text)

theorem splitFraction_append (text : List Char) :
    (splitFraction text).1 ++ (splitFraction text).2 = text := by
  unfold splitFraction
  split
  · split
    · simp [List.takeWhile_append_dropWhile]
    · rfl
  · rfl

/-- A number without a sign, given that one starts here. -/
def scanNumber? (input : List Char) : Option (Scanned input) :=
  let whole := input.takeWhile isAsciiDigit
  let left := input.dropWhile isAsciiDigit
  let fraction := (splitFraction left).1
  if nonempty : whole ++ fraction = [] then none
  else
    some
      { item := .number
          (Number.scientific (Number.ofDigits (whole ++ fraction.drop 1))
            (-((fraction.length - 1 : Nat) : Int)))
        lexeme := whole ++ fraction
        rest := (splitFraction left).2
        lexeme_ne_nil := nonempty
        append_eq := by
          simp only [whole, left, fraction, List.append_assoc, splitFraction_append,
            List.takeWhile_append_dropWhile] }

/-- A word, if one starts here. -/
def scanWord? (input : List Char) : Option (Scanned input) :=
  if nonempty : leadingIdentifier input = [] then none
  else
    some
      { item := .word (String.ofList (leadingIdentifier input))
        lexeme := leadingIdentifier input
        rest := afterIdentifier input
        lexeme_ne_nil := nonempty
        append_eq := leadingIdentifier_append_afterIdentifier input }

/--
The content of a string behind its opening quote, the characters it takes with the closing quote, and
what follows; `none` when no quote closes it.  A backslash takes the next character as it is.
-/
def splitString? (quote : Char) : List Char → Option (List Char × List Char × List Char)
  | [] => none
  | character :: rest =>
      if character = quote then some ([], [character], rest)
      else if character = '\\' then
        match rest with
        | [] => none
        | escaped :: left =>
            (splitString? quote left).map fun (content, taken, behind) =>
              (escaped :: content, character :: escaped :: taken, behind)
      else
        (splitString? quote rest).map fun (content, taken, behind) =>
          (character :: content, character :: taken, behind)

theorem splitString?_append {quote : Char} {text content taken behind : List Char}
    (found : splitString? quote text = some (content, taken, behind)) :
    taken ++ behind = text := by
  fun_induction splitString? quote text generalizing content taken behind with
  | case1 => simp at found
  | case2 =>
      simp only [Option.some.injEq, Prod.mk.injEq] at found
      obtain ⟨_, rfl, rfl⟩ := found
      rfl
  | case3 => simp at found
  | case4 _ _ _ ih =>
      simp only [Option.map_eq_some_iff, Prod.mk.injEq] at found
      obtain ⟨⟨_, _, _⟩, inner, _, rfl, rfl⟩ := found
      simpa using ih inner
  | case5 _ _ _ _ ih =>
      simp only [Option.map_eq_some_iff, Prod.mk.injEq] at found
      obtain ⟨⟨_, _, _⟩, inner, _, rfl, rfl⟩ := found
      simpa using ih inner

/-- The symbol of two characters. -/
def pairSymbol? : Char → Char → Option Symbol
  | '=', '=' => some .equal
  | '!', '=' => some .unequal
  | '<', '=' => some .atMost
  | '>', '=' => some .atLeast
  | '&', '&' => some .bothAmpersands
  | '|', '|' => some .bothBars
  | _, _ => none

/-- The symbol of one character. -/
def singleSymbol? : Char → Option Symbol
  | '<' => some .less
  | '>' => some .greater
  | '!' => some .exclamation
  | '+' => some .plus
  | '-' => some .minus
  | '*' => some .star
  | '/' => some .slash
  | '%' => some .percent
  | '(' => some .openParenthesis
  | ')' => some .closeParenthesis
  | ',' => some .comma
  | _ => none

/-- A symbol, if one starts here; the longer of two counts. -/
def scanSymbol? : (input : List Char) → Option (Scanned input)
  | [] => none
  | [first] =>
      (singleSymbol? first).map fun mark =>
        .taking (.symbol mark) first [] [] (List.append_nil [first])
  | first :: second :: rest =>
      match pairSymbol? first second with
      | some mark => some (.taking (.symbol mark) first [second] rest rfl)
      | none =>
          (singleSymbol? first).map fun mark =>
            .taking (.symbol mark) first [] (second :: rest) rfl

/-- Why no token could be taken off a text, and how many bytes are to blame. -/
abbrev Refusal := Fault × Nat

/-- The token at the front of a text that does not start with a blank. -/
def scan (first : Char) (rest : List Char) : Except Refusal (Scanned (first :: rest)) :=
  if first = '"' || first = '\'' then
    match closed : splitString? first rest with
    | some (content, taken, behind) =>
        .ok (.taking (.string (String.ofList content)) first taken behind
          (congrArg (first :: ·) (splitString?_append closed)))
    | none => .error (.unclosedString, byteLength (first :: rest))
  else
    match scanNumber? (first :: rest) <|> scanWord? (first :: rest) <|> scanSymbol? (first :: rest) with
    | some scanned => .ok scanned
    | none => .error (.strayCharacter first, first.utf8Size)

/-- The place after a token: it stays on its line, and every character is one column. -/
def placeAfter (place : Place) (lexeme : List Char) : Place :=
  ⟨place.offset + byteLength lexeme, place.line, place.column + lexeme.length⟩

/-- The tokens of literal text that stands at a place. -/
def tokensFrom (place : Place) (text : List Char) : Except Malformed (List Token) :=
  match text with
  | [] => .ok []
  | first :: rest =>
      if isAsciiBlank first then tokensFrom (place.next first) rest
      else
        match scan first rest with
        | .error (fault, width) =>
            .error ⟨fault, ⟨place.offset, place.line, place.column, width⟩⟩
        | .ok scanned => do
            have := scanned.length_rest_lt
            let later ← tokensFrom (placeAfter place scanned.lexeme) scanned.rest
            .ok (⟨scanned.item, Span.covering place scanned.lexeme⟩ :: later)
termination_by text.length
decreasing_by
  · exact Nat.lt_succ_self _
  · assumption

end Expression
end TemplateCascade

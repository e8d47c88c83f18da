import Mathlib
import TemplateCascade.Proofs.Text.PercentEncoding

namespace TemplateCascade
namespace Text

/-!
# String literals of scripts

What is escaped for a script may stand inside a string literal between quotes of either kind.  Nothing in it
ends the literal, its line or the script block around it, and the literal is read as the text that was escaped.
-/

/-! ## Reading -/

/-- The characters that end a line of a script. -/
def lineEnds : List Char :=
  ['\n', '\r', '\u2028', '\u2029']

/-- What a single character stands for behind a backslash.  Digits, line ends and the letters that start a
longer escape stand for nothing by themselves. -/
def escapedCharacter? : Char → Option Char
  | 'b' => some '\x08'
  | 't' => some '\t'
  | 'n' => some '\n'
  | 'v' => some '\x0b'
  | 'f' => some '\x0c'
  | 'r' => some '\r'
  | letter => if letter.isDigit ∨ letter ∈ ['x', 'u'] ∨ letter ∈ lineEnds then none else some letter

/-- The text that the inside of a string literal stands for.  There is none if the literal ends inside, at its
quote or at the end of a line, or if a backslash starts no escape. -/
def readLiteral? (quote : Char) : List Char → Option (List Char)
  | '\\' :: 'x' :: first :: second :: rest => do
      let code ← hexNumber? [first, second]
      let more ← readLiteral? quote rest
      some (Char.ofNat code :: more)
  | '\\' :: 'u' :: first :: second :: third :: fourth :: rest => do
      let code ← (hexNumber? [first, second, third, fourth]).filter fun code => decide code.isValidChar
      let more ← readLiteral? quote rest
      some (Char.ofNat code :: more)
  | '\\' :: letter :: rest => do
      let escaped ← escapedCharacter? letter
      let more ← readLiteral? quote rest
      some (escaped :: more)
  | first :: rest =>
      if first = quote ∨ first = '\\' ∨ first ∈ lineEnds then none
      else (readLiteral? quote rest).map (first :: ·)
  | [] => some []

/-- How many backslashes a text ends with. -/
def backslashRun (front : List Char) : Nat :=
  (front.reverse.takeWhile (· == '\\')).length

@[simp] theorem backslashRun_append_backslash (front : List Char) :
    backslashRun (front ++ ['\\']) = backslashRun front + 1 := by
  simp [backslashRun]

theorem backslashRun_append_of_ne (front : List Char) {last : Char} (other : last ≠ '\\') :
    backslashRun (front ++ [last]) = 0 := by
  simp [backslashRun, other]

/-! ## Characters -/

theorem readLiteral?_cons {quote first : Char} (ordinary : first ∉ literalCharacters)
    (isQuote : quote ∈ ['"', '\'']) (rest : List Char) :
    readLiteral? quote (first :: rest) = (readLiteral? quote rest).map (first :: ·) := by
  have distinct : first ≠ quote ∧ first ≠ '\\' ∧ first ∉ lineEnds := by
    simp only [literalCharacters, lineEnds, List.mem_cons, List.not_mem_nil, or_false, not_or] at *
    rcases isQuote with rfl | rfl <;> simp [ordinary]
  rw [readLiteral?, if_neg (by simp [distinct])]
  all_goals simp [distinct]

theorem readLiteral?_escaped (quote : Char) {letter escaped : Char}
    (isEscaped : escapedCharacter? letter = some escaped) (rest : List Char) :
    readLiteral? quote ('\\' :: letter :: rest) = (readLiteral? quote rest).map (escaped :: ·) := by
  have short : letter ≠ 'x' ∧ letter ≠ 'u' := by
    constructor <;> rintro rfl <;> cases isEscaped
  rw [readLiteral?, isEscaped]
  · cases readLiteral? quote rest <;> rfl
  all_goals simp [short]

theorem readLiteral?_byte (quote : Char) {first second : Char} {code : Nat}
    (isCode : hexNumber? [first, second] = some code) (rest : List Char) :
    readLiteral? quote ('\\' :: 'x' :: first :: second :: rest) =
      (readLiteral? quote rest).map (Char.ofNat code :: ·) := by
  rw [readLiteral?, isCode]
  cases readLiteral? quote rest <;> rfl

theorem readLiteral?_unit (quote : Char) {first second third fourth : Char} {code : Nat}
    (isCode : hexNumber? [first, second, third, fourth] = some code) (valid : code.isValidChar)
    (rest : List Char) :
    readLiteral? quote ('\\' :: 'u' :: first :: second :: third :: fourth :: rest) =
      (readLiteral? quote rest).map (Char.ofNat code :: ·) := by
  rw [readLiteral?, isCode, Option.filter_some, if_pos (decide_eq_true valid)]
  cases readLiteral? quote rest <;> rfl

theorem readLiteral?_scriptCharacter {quote : Char} (isQuote : quote ∈ ['"', '\'']) (plain : Char)
    (rest : List Char) :
    readLiteral? quote (scriptCharacter plain ++ rest) = (readLiteral? quote rest).map (plain :: ·) := by
  by_cases special : plain ∈ literalCharacters
  · simp only [literalCharacters, List.mem_cons, List.not_mem_nil, or_false] at special
    rcases special with rfl | rfl | rfl | rfl | rfl | rfl | rfl | rfl | rfl
    · exact readLiteral?_escaped quote (by decide) rest
    · exact readLiteral?_escaped quote (by decide) rest
    · exact readLiteral?_escaped quote (by decide) rest
    · exact readLiteral?_escaped quote (by decide) rest
    · exact readLiteral?_escaped quote (by decide) rest
    · exact readLiteral?_byte quote (by decide) rest
    · exact readLiteral?_byte quote (by decide) rest
    · exact readLiteral?_unit quote (by decide) (by decide) rest
    · exact readLiteral?_unit quote (by decide) (by decide) rest
  · rw [scriptCharacter_of_not_mem special]
    exact readLiteral?_cons special isQuote rest

/-- A character is written as itself, as itself behind a backslash, or with letters and digits behind one. -/
theorem scriptCharacter_cases (plain : Char) :
    (plain ∉ literalCharacters ∧ scriptCharacter plain = [plain]) ∨
      (plain ∈ ['\\', '\'', '"'] ∧ scriptCharacter plain = ['\\', plain]) ∨
      ∃ front last, scriptCharacter plain = '\\' :: front ++ [last] ∧
        ∀ written ∈ front ++ [last], written.isAlphanum = true := by
  by_cases special : plain ∈ literalCharacters
  · refine .inr ?_
    simp only [literalCharacters, List.mem_cons, List.not_mem_nil, or_false] at special
    rcases special with rfl | rfl | rfl | rfl | rfl | rfl | rfl | rfl | rfl
    · exact .inl ⟨by decide, rfl⟩
    · exact .inl ⟨by decide, rfl⟩
    · exact .inl ⟨by decide, rfl⟩
    · exact .inr ⟨[], 'n', rfl, by simp⟩
    · exact .inr ⟨[], 'r', rfl, by simp⟩
    · exact .inr ⟨['x', '3'], 'C', rfl, by simp⟩
    · exact .inr ⟨['x', '3'], 'E', rfl, by simp⟩
    · exact .inr ⟨['u', '2', '0', '2'], '8', rfl, by simp⟩
    · exact .inr ⟨['u', '2', '0', '2'], '9', rfl, by simp⟩
  · exact .inl ⟨special, scriptCharacter_of_not_mem special⟩

/-- Nothing that is written for a character ends a line or stands for markup. -/
theorem not_mem_of_mem_scriptCharacter {plain written : Char} (member : written ∈ scriptCharacter plain) :
    written ∉ lineEnds ∧ written ≠ '<' ∧ written ≠ '>' := by
  have contained : ∀ refused ∈ lineEnds ++ ['<', '>'], refused ∈ literalCharacters ∧
      refused ∉ ['\\', '\'', '"'] ∧ refused.isAlphanum = false := by
    simp [lineEnds, literalCharacters]
  suffices kept : written ∉ lineEnds ++ ['<', '>'] by simpa using kept
  intro refused
  rcases contained written refused with ⟨isSpecial, notQuoted, notAlphanumeric⟩
  rcases scriptCharacter_cases plain with
    ⟨ordinary, isSame⟩ | ⟨isQuoted, isPair⟩ | ⟨front, last, isLong, alphanumeric⟩
  · rw [isSame, List.mem_singleton] at member
    exact ordinary (member ▸ isSpecial)
  · rw [isPair] at member
    rcases List.mem_cons.mp member with rfl | isSecond
    · exact notQuoted List.mem_cons_self
    · exact notQuoted (List.mem_singleton.mp isSecond ▸ isQuoted)
  · rw [isLong, List.cons_append] at member
    rcases List.mem_cons.mp member with rfl | isLater
    · exact notQuoted List.mem_cons_self
    · rw [alphanumeric written isLater] at notAlphanumeric
      cases notAlphanumeric

/-- A quote is written behind the one backslash that is written for it. -/
theorem eq_backslash_of_scriptCharacter_eq {plain quote : Char} {seen left : List Char}
    (isQuote : quote ∈ ['"', '\'']) (split : scriptCharacter plain = seen ++ quote :: left) : seen = ['\\'] := by
  have special : ∀ quote ∈ ['"', '\''], quote ∈ literalCharacters ∧ quote ≠ '\\' ∧
      quote.isAlphanum = false := by
    simp [literalCharacters]
  rcases special quote isQuote with ⟨isSpecial, notBackslash, notAlphanumeric⟩
  have member : quote ∈ scriptCharacter plain := split ▸ List.mem_append_right seen List.mem_cons_self
  rcases scriptCharacter_cases plain with
    ⟨ordinary, isSame⟩ | ⟨_, isPair⟩ | ⟨front, last, isLong, alphanumeric⟩
  · rw [isSame, List.mem_singleton] at member
    exact absurd (member ▸ isSpecial) ordinary
  · rw [isPair] at split
    rcases seen with _ | ⟨first, _ | ⟨second, seen⟩⟩
    · cases split
      exact absurd rfl notBackslash
    · cases split
      rfl
    · cases seen <;> cases split
  · rw [isLong, List.cons_append] at member
    rcases List.mem_cons.mp member with isFirst | isLater
    · exact absurd isFirst notBackslash
    · rw [alphanumeric quote isLater] at notAlphanumeric
      cases notAlphanumeric

/-! ## Escaped text -/

/-- Escaped text ends with an even number of backslashes, so that it escapes nothing behind it. -/
theorem even_backslashRun_applyTo (text : List Char) :
    Even (backslashRun (Escaping.script.applyTo text)) := by
  induction text using List.reverseRecOn with
  | nil => exact Even.zero
  | append_singleton front last inductionHypothesis =>
      have isLast : Escaping.script.applyTo [last] = scriptCharacter last := List.flatMap_singleton _ last
      rw [Escaping.applyTo_append, isLast]
      rcases scriptCharacter_cases last with
        ⟨ordinary, isSame⟩ | ⟨_, isPair⟩ | ⟨before, final, isLong, alphanumeric⟩
      · have other : last ≠ '\\' := by
          rintro rfl
          exact ordinary (by decide)
        rw [isSame, backslashRun_append_of_ne _ other]
        exact Even.zero
      · rw [isPair, ← List.singleton_append, ← List.append_assoc]
        by_cases isBackslash : last = '\\'
        · rw [isBackslash, backslashRun_append_backslash, backslashRun_append_backslash]
          exact inductionHypothesis.add_one.add_one
        · rw [backslashRun_append_of_ne _ isBackslash]
          exact Even.zero
      · have other : final ≠ '\\' := by
          rintro rfl
          exact absurd (alphanumeric '\\' (List.mem_append_right before List.mem_cons_self)) (by decide)
        rw [isLong, ← List.append_assoc, backslashRun_append_of_ne _ other]
        exact Even.zero

/-- The inside of a string literal for a text: nothing in it ends the line or the block, every quote is behind an
odd number of backslashes, and between quotes of either kind it is read as the text. -/
structure IsLiteralFor (text output : List Char) : Prop where
  contained : ∀ written ∈ output, written ∉ lineEnds ∧ written ≠ '<' ∧ written ≠ '>'
  quoted : ∀ front quote rest, quote ∈ ['"', '\''] → output = front ++ quote :: rest →
    Odd (backslashRun front)
  decoded : ∀ quote ∈ ['"', '\''], readLiteral? quote output = some text

theorem isLiteralFor_applyTo (text : List Char) : IsLiteralFor text (Escaping.script.applyTo text) where
  contained := by
    intro written member
    rcases List.mem_flatMap.mp member with ⟨plain, _, inPlain⟩
    exact not_mem_of_mem_scriptCharacter inPlain
  quoted := by
    intro front quote rest isQuote split
    rcases Escaping.exists_of_applyTo_eq split with ⟨before, plain, _, seen, _, _, isPlain, rfl, _⟩
    rw [eq_backslash_of_scriptCharacter_eq isQuote isPlain, backslashRun_append_backslash]
    exact (even_backslashRun_applyTo before).add_one
  decoded := by
    intro quote isQuote
    refine (Escaping.read_applyTo (readLiteral?_scriptCharacter isQuote) text).trans ?_
    induction text with
    | nil => rfl
    | cons first rest inductionHypothesis => rw [List.foldr_cons, inductionHypothesis, Option.map_some]

end Text
end TemplateCascade

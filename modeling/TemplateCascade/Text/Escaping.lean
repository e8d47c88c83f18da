import TemplateCascade.Text.Blank
import TemplateCascade.Text.Identifier

namespace TemplateCascade
namespace Text

/-!
# Escaping

Output is neutralised for the place it is written to: not at all, as HTML, as a component of a URL,
or as the inside of a script's string literal.  Every mode works character by character, so escaping
a concatenation is concatenating the escaped parts (`Escaping.applyTo_append`).  A text that holds
nothing to change is not gone through character by character but handed on.
-/

/-- How a value is neutralised before it is written. -/
inductive Escaping where
  | raw
  | html
  | url
  | script
deriving DecidableEq, Repr

namespace Escaping

/-- The mode a template asks for by name, in any letter case and with any blank margin. -/
def ofName? (name : String) : Option Escaping :=
  match lowerAscii (trim name) with
  | "raw" | "none" | "false" => some raw
  | "html" | "true" => some html
  | "url" | "urlencode" => some url
  | "js" | "javascript" => some script
  | _ => none

/-- The name that listings show. -/
def name : Escaping → String
  | raw => "raw"
  | html => "html"
  | url => "url"
  | script => "js"

end Escaping

/-- The characters that HTML text does not hold as they are. -/
def markupCharacters : List Char :=
  ['&', '<', '>', '"', '\'']

/-- A character of HTML text: the characters of markup become entities. -/
def htmlCharacter (character : Char) : List Char :=
  if character = '&' then "&amp;".toList
  else if character = '<' then "&lt;".toList
  else if character = '>' then "&gt;".toList
  else if character = '"' then "&quot;".toList
  else if character = '\'' then "&#039;".toList
  else [character]

/-- The bytes that a URL component holds as they are. -/
def isUnreserved (byte : UInt8) : Bool :=
  (0x61 ≤ byte && byte ≤ 0x7A) || (0x41 ≤ byte && byte ≤ 0x5A) || (0x30 ≤ byte && byte ≤ 0x39) ||
    byte == 0x2D || byte == 0x5F || byte == 0x2E || byte == 0x7E

/-- A digit to base sixteen, in upper case. -/
def upperHexDigit (value : Nat) : Char :=
  if value < 10 then Char.ofNat (0x30 + value) else Char.ofNat (0x41 + (value - 10))

/-- A byte of a URL component: unreserved as it is, any other as a percent sign and two digits. -/
def urlByte (byte : UInt8) : List Char :=
  if isUnreserved byte then [Char.ofNat byte.toNat]
  else ['%', upperHexDigit (byte.toNat / 16), upperHexDigit (byte.toNat % 16)]

/-- A character of a URL component, byte by byte. -/
def urlCharacter (character : Char) : List Char :=
  (String.utf8EncodeChar character).flatMap urlByte

/-- The characters that a string literal of a script does not hold as they are. -/
def literalCharacters : List Char :=
  ['\\', '\'', '"', '\n', '\r', '<', '>', '\u2028', '\u2029']

/--
A character inside a string literal of a script.  Angle brackets are escaped too, so that the text
cannot close the script block around it, and so are the two separators that end a line in a script.
-/
def scriptCharacter (character : Char) : List Char :=
  if character = '\\' then ['\\', '\\']
  else if character = '\'' then ['\\', '\'']
  else if character = '"' then ['\\', '"']
  else if character = '\n' then ['\\', 'n']
  else if character = '\r' then ['\\', 'r']
  else if character = '<' then "\\x3C".toList
  else if character = '>' then "\\x3E".toList
  else if character = '\u2028' then "\\u2028".toList
  else if character = '\u2029' then "\\u2029".toList
  else [character]

/-! ## Characters that stay as they are -/

theorem htmlCharacter_of_not_mem {plain : Char} (absent : plain ∉ markupCharacters) :
    htmlCharacter plain = [plain] := by
  simp only [markupCharacters, List.mem_cons, List.not_mem_nil, or_false, not_or] at absent
  simp [htmlCharacter, absent]

theorem scriptCharacter_of_not_mem {plain : Char} (absent : plain ∉ literalCharacters) :
    scriptCharacter plain = [plain] := by
  simp only [literalCharacters, List.mem_cons, List.not_mem_nil, or_false, not_or] at absent
  simp [scriptCharacter, absent]

/-- No byte outside of ASCII is unreserved. -/
theorem isUnreserved_ofNat_eq_false {code : Nat} (large : 128 ≤ code) (byte : code < 256) :
    isUnreserved (UInt8.ofNat code) = false := by
  have same : (UInt8.ofNat code).toNat = code := UInt8.toNat_ofNat_of_lt' byte
  simp only [isUnreserved, Bool.or_eq_false_iff, Bool.and_eq_false_iff, decide_eq_false_iff_not,
    beq_eq_false_iff_ne, ne_eq, UInt8.le_iff_toNat_le, ← UInt8.toNat_inj, UInt8.reduceToNat, same]
  omega

/-- A character whose bytes are all unreserved is one of ASCII, and its only byte is its own code. -/
theorem utf8EncodeChar_of_unreserved {plain : Char}
    (unreserved : ∀ byte ∈ String.utf8EncodeChar plain, isUnreserved byte = true) :
    plain.toNat < 128 ∧ String.utf8EncodeChar plain = [UInt8.ofNat plain.toNat] := by
  have notLarge {code : Nat} {rest : List UInt8} (large : 128 ≤ code) (byte : code < 256)
      (starts : String.utf8EncodeChar plain = UInt8.ofNat code :: rest) : False := by
    have known := unreserved (UInt8.ofNat code) (starts ▸ List.mem_cons_self)
    rw [isUnreserved_ofNat_eq_false large byte] at known
    cases known
  by_cases ascii : plain.val.toNat ≤ 127
  · exact ⟨Nat.lt_succ_of_le ascii, if_pos ascii⟩
  by_cases two : plain.val.toNat ≤ 2047
  · exact (notLarge (by omega) (by omega) ((if_neg ascii).trans (if_pos two))).elim
  by_cases three : plain.val.toNat ≤ 65535
  · exact (notLarge (by omega) (by omega)
      ((if_neg ascii).trans ((if_neg two).trans (if_pos three)))).elim
  · exact (notLarge (by omega) (by omega)
      ((if_neg ascii).trans ((if_neg two).trans (if_neg three)))).elim

theorem urlCharacter_of_unreserved {plain : Char}
    (unreserved : ∀ byte ∈ String.utf8EncodeChar plain, isUnreserved byte = true) :
    urlCharacter plain = [plain] := by
  rcases utf8EncodeChar_of_unreserved unreserved with ⟨ascii, encoded⟩
  rw [encoded] at unreserved
  have same : (UInt8.ofNat plain.toNat).toNat = plain.toNat :=
    UInt8.toNat_ofNat_of_lt' (Nat.lt_trans ascii (by decide))
  rw [urlCharacter, encoded, List.flatMap_singleton, urlByte, if_pos (unreserved _ List.mem_cons_self),
    same, Char.ofNat_toNat]

/-! ## Texts -/

namespace Escaping

/-- What one character becomes. -/
def character : Escaping → Char → List Char
  | raw => fun plain => [plain]
  | html => htmlCharacter
  | url => urlCharacter
  | script => scriptCharacter

/-- Escape a list of characters. -/
def applyTo (mode : Escaping) (text : List Char) : List Char :=
  text.flatMap mode.character

/-- Whether a text holds nothing that a mode changes, so that it can be handed on as it is. -/
def keeps (mode : Escaping) (text : List Char) : Bool :=
  match mode with
  | raw => true
  | html => !text.any markupCharacters.contains
  | url => (text.flatMap String.utf8EncodeChar).all isUnreserved
  | script => !text.any literalCharacters.contains

/-- Escape a string. -/
def apply (mode : Escaping) (text : String) : String :=
  if mode.keeps text.toList then text else String.ofList (mode.applyTo text.toList)

theorem applyTo_append (mode : Escaping) (left right : List Char) :
    mode.applyTo (left ++ right) = mode.applyTo left ++ mode.applyTo right := by
  simp [applyTo]

@[simp] theorem applyTo_raw (text : List Char) : raw.applyTo text = text := by
  simp [applyTo, character]

@[simp] theorem apply_raw (text : String) : raw.apply text = text := by
  simp [apply]

theorem character_of_keeps {mode : Escaping} {text : List Char} (kept : mode.keeps text = true)
    {plain : Char} (member : plain ∈ text) : mode.character plain = [plain] := by
  have absent {specials : List Char} (none : (!text.any specials.contains) = true) :
      plain ∉ specials := by
    intro special
    rw [Bool.not_eq_true', List.any_eq_false] at none
    exact none plain member (List.contains_iff_mem.mpr special)
  cases mode with
  | raw => rfl
  | html => exact htmlCharacter_of_not_mem (absent kept)
  | url =>
      refine urlCharacter_of_unreserved fun byte inPlain => ?_
      exact List.all_eq_true.mp kept byte (List.mem_flatMap.mpr ⟨plain, member, inPlain⟩)
  | script => exact scriptCharacter_of_not_mem (absent kept)

/-- A text without anything to change stays as it is when it is gone through. -/
theorem applyTo_of_keeps {mode : Escaping} {text : List Char} (kept : mode.keeps text = true) :
    mode.applyTo text = text := by
  have unchanged (plain : Char) (member : plain ∈ text) := character_of_keeps kept member
  clear kept
  induction text with
  | nil => rfl
  | cons first rest inductionHypothesis =>
      rw [applyTo, List.flatMap_cons, unchanged first List.mem_cons_self, ← applyTo,
        inductionHypothesis fun plain member => unchanged plain (List.mem_cons_of_mem first member)]
      rfl

/-- Whether a text is handed on or gone through, its characters are escaped one by one. -/
theorem toList_apply (mode : Escaping) (text : String) :
    (mode.apply text).toList = mode.applyTo text.toList := by
  unfold apply
  split
  · next kept => exact (applyTo_of_keeps kept).symm
  · exact String.toList_ofList

end Escaping

end Text
end TemplateCascade

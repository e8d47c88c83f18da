namespace TemplateCascade
namespace Text

/-!
# Places and spans

A place is a position in a source text: its byte offset, and its line and column for people, both
counted from one, the column in bytes.  A span is a place together with a length.  Moving over text
is a fold over its characters, so a place reached through two texts is the place reached through
their concatenation (`Place.after_append`).
-/

/-- The number of bytes a text takes. -/
def byteLength : List Char → Nat
  | [] => 0
  | character :: rest => character.utf8Size + byteLength rest

theorem byteLength_append (left right : List Char) :
    byteLength (left ++ right) = byteLength left + byteLength right := by
  induction left with
  | nil => simp [byteLength]
  | cons head tail ih => simp [byteLength, ih, Nat.add_assoc]

/-- A position in a source text. -/
structure Place where
  offset : Nat
  line : Nat
  column : Nat
deriving DecidableEq, Repr

namespace Place

/-- The place before the first character. -/
def start : Place := ⟨0, 1, 1⟩

/-- The place after one more character.  A line break starts the next line at column one. -/
def next (place : Place) (character : Char) : Place :=
  if character = '\n' then ⟨place.offset + 1, place.line + 1, 1⟩
  else ⟨place.offset + character.utf8Size, place.line, place.column + character.utf8Size⟩

/-- The place after a run of characters. -/
def after (place : Place) (text : List Char) : Place :=
  text.foldl next place

@[simp] theorem after_nil (place : Place) : place.after [] = place := rfl

@[simp] theorem after_cons (place : Place) (character : Char) (rest : List Char) :
    place.after (character :: rest) = (place.next character).after rest := rfl

theorem after_append (place : Place) (left right : List Char) :
    place.after (left ++ right) = (place.after left).after right :=
  List.foldl_append

theorem offset_next (place : Place) (character : Char) :
    (place.next character).offset = place.offset + character.utf8Size := by
  unfold next
  split
  · next newline => subst newline; rfl
  · rfl

theorem offset_after (place : Place) (text : List Char) :
    (place.after text).offset = place.offset + byteLength text := by
  induction text generalizing place with
  | nil => rfl
  | cons head tail ih => simp [ih, offset_next, byteLength, Nat.add_assoc]

end Place

/-- A stretch of source text: where it starts and how many bytes it has. -/
structure Span where
  offset : Nat
  line : Nat
  column : Nat
  length : Nat
deriving DecidableEq, Repr

instance : Inhabited Span := ⟨⟨0, 0, 0, 0⟩⟩

namespace Span

/-- The span of length zero at a place. -/
def point (place : Place) : Span :=
  ⟨place.offset, place.line, place.column, 0⟩

/-- The span of a text that starts at a place. -/
def covering (place : Place) (text : List Char) : Span :=
  ⟨place.offset, place.line, place.column, byteLength text⟩

def isEmpty (span : Span) : Bool :=
  span.length == 0

/-- The offset just past the last byte. -/
def finish (span : Span) : Nat :=
  span.offset + span.length

/--
The smallest span that covers both.  Line and column are those of the span that starts first, the
left one when both start together.
-/
def merge (left right : Span) : Span :=
  let first := if left.offset ≤ right.offset then left else right
  { first with length := max left.finish right.finish - first.offset }

/-- A span as people read it, by line and column. -/
def text (span : Span) : String :=
  toString span.line ++ ":" ++ toString span.column

/-- A span with its offset. -/
def detailedText (span : Span) : String :=
  span.text ++ "@" ++ toString span.offset

/-- Merging reaches exactly as far as the farther of the two. -/
theorem finish_merge (left right : Span) :
    (left.merge right).finish = max left.finish right.finish := by
  simp only [merge, finish]
  split <;> omega

theorem offset_merge (left right : Span) :
    (left.merge right).offset = min left.offset right.offset := by
  simp only [merge]
  split <;> omega

end Span

end Text
end TemplateCascade

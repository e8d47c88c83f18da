import TemplateCascade.Toml.Scalar

namespace TemplateCascade
namespace Toml

/-!
# Documents

A document is read line by line: a header opens a table, and a key with a value adds to the table that
was opened last.  Lists may go over several lines and end with a comma; tables in braces stay on one
line and do not.  Both nest no deeper than `deepest`, and a key has no more parts than that.
-/

/-- The depth to which lists and tables in braces may nest. -/
def deepest : Nat := 79

/-- A key split into the way to its table and its last part. -/
def splitKey? (parts : List String) : Option (List String × String) :=
  parts.getLast?.map fun key => (parts.dropLast, key)

mutual

/--
A value at the front of a text.  The first number bounds the steps that are left, the second the
nesting that is allowed.
-/
def readValue : Nat → Nat → List Char → Option (Entry × List Char)
  | 0, _, _ => none
  | steps + 1, depth, text =>
      match text with
      | '[' :: rest =>
          match depth with
          | 0 => none
          | depth + 1 => do
              let inner ← skipLayout? false rest
              match inner with
              | ']' :: rest => pure (.list [], rest)
              | inner => (readItems steps depth inner).map fun (items, rest) => (.list items, rest)
      | '\x7b' :: rest =>
          match depth with
          | 0 => none
          | depth + 1 =>
              match skipBlanks rest with
              | '\x7d' :: rest => some (.table .inline [], rest)
              | inner =>
                  (readPairs steps depth [] inner).map fun (entries, rest) =>
                    (.table .inline entries, rest)
      | '"' :: _ | '\'' :: _ =>
          (readString text).map fun (content, rest) => (.text (String.ofList content), rest)
      | text =>
          let word := scalarText text
          (scalar? word).map fun value => (value, text.drop word.length)

/-- The items of a list up to its end. -/
def readItems : Nat → Nat → List Char → Option (List Entry × List Char)
  | 0, _, _ => none
  | steps + 1, depth, text => do
      let (item, rest) ← readValue steps depth text
      let rest ← skipLayout? false rest
      match rest with
      | ']' :: rest => pure ([item], rest)
      | ',' :: rest =>
          let rest ← skipLayout? false rest
          match rest with
          | ']' :: rest => pure ([item], rest)
          | rest => (readItems steps depth rest).map fun (items, rest) => (item :: items, rest)
      | _ => none

/-- The keys and values of a table in braces up to its end, added to those that are known. -/
def readPairs : Nat → Nat → Entries → List Char → Option (Entries × List Char)
  | 0, _, _, _ => none
  | steps + 1, depth, known, text => do
      let (parts, rest) ← readKey deepest text
      let (path, key) ← splitKey? parts
      match rest with
      | '=' :: rest =>
          let (value, rest) ← readValue steps depth (skipBlanks rest)
          let (_, entries) ← assign path key value .inline known
          match skipBlanks rest with
          | '\x7d' :: rest => pure (entries, rest)
          | ',' :: rest => readPairs steps depth entries rest
          | _ => none
      | _ => none

end

/-- A document in part: what is known of its table, and the table that was opened last. -/
structure Draft where
  entries : Entries
  current : List String

namespace Draft

/-- Change the table of the document. -/
def change (draft : Draft) (tableChange : TableChange) : Option Draft :=
  (tableChange .opened draft.entries).map fun (_, entries) => { draft with entries := entries }

/-- Open a table, or one more table under a name. -/
def openAt (draft : Draft) (another : Bool) (parts : List String) : Option Draft := do
  let (path, key) ← splitKey? parts
  let changed ← draft.change (if another then openAnother path key else openTable path key)
  pure { changed with current := parts }

/-- Give a key a value in the table that was opened last. -/
def assignAt (draft : Draft) (parts : List String) (value : Entry) : Option Draft := do
  let (path, key) ← splitKey? parts
  draft.change (changeAt .passed (assign path key value) draft.current)

end Draft

/-- A header, without its first bracket. -/
def readHeader (draft : Draft) : List Char → Option (Draft × List Char)
  | '[' :: text => do
      let (parts, rest) ← readKey deepest text
      match rest with
      | ']' :: ']' :: rest => pure (← draft.openAt true parts, rest)
      | _ => none
  | text => do
      let (parts, rest) ← readKey deepest text
      match rest with
      | ']' :: rest => pure (← draft.openAt false parts, rest)
      | _ => none

/-- A key with its value. -/
def readAssignment (draft : Draft) (text : List Char) : Option (Draft × List Char) := do
  let (parts, rest) ← readKey deepest text
  match rest with
  | '=' :: rest =>
      let start := skipBlanks rest
      let (value, rest) ← readValue (2 * start.length + 2) deepest start
      pure (← draft.assignAt parts value, rest)
  | _ => none

/-- The lines of a document, of which there are at most so many. -/
def readLinesOf : Nat → Draft → List Char → Option Draft
  | 0, _, _ => none
  | lines + 1, draft, text =>
      match skipBlanks text with
      | [] => some draft
      | '#' :: rest => do readLinesOf lines draft (← finishLine? ('#' :: rest))
      | '\n' :: rest | '\r' :: '\n' :: rest => readLinesOf lines draft rest
      | '[' :: rest => do
          let (draft, rest) ← readHeader draft rest
          readLinesOf lines draft (← finishLine? rest)
      | text => do
          let (draft, rest) ← readAssignment draft text
          readLinesOf lines draft (← finishLine? rest)

/-- The table of a document, which may start with a byte order mark. -/
def parse? (source : String) : Option Entries :=
  let text :=
    match source.toList with
    | '\ufeff' :: rest => rest
    | text => text
  (readLinesOf (text.length + 1) ⟨[], []⟩ text).map Draft.entries

end Toml
end TemplateCascade

namespace TemplateCascade
namespace Toml

/-!
# Tables of settings

Settings are read from TOML.  A table can be opened by a header, come about on the way to another one,
or stand on one line; how it came about decides what may still be added to it.  Headers may add to
tables that only came about on the way, once for each; dotted keys may add only to tables that
dotted keys or headers implied; a table on one line is complete.  No key is ever given twice.
-/

/-- How a table came about. -/
inductive Origin where
  /-- By a header of its own, or as the document itself. -/
  | opened
  /-- On the way of a header to another table. -/
  | passed
  /-- On the way of a dotted key. -/
  | dotted
  /-- In braces, as the value of a key. -/
  | inline
deriving DecidableEq, Repr

/-- Whether a table has not been asked for itself. -/
def Origin.isImplied : Origin → Bool
  | .passed | .dotted => true
  | .opened | .inline => false

/-- A value.  Of fractions and moments nothing is kept: no setting is one. -/
inductive Entry where
  | text (content : String)
  | integer (number : Int)
  | fraction
  | truth (value : Bool)
  | moment
  | list (items : List Entry)
  | table (origin : Origin) (entries : List (String × Entry))
  /-- Tables opened under one name, the first one first. -/
  | tables (items : List Entry)
deriving Inhabited

/-- The keys of a table with their values. -/
abbrev Entries := List (String × Entry)

/-- A change of a table, which may be refused. -/
abbrev TableChange := Origin → Entries → Option (Origin × Entries)

/-- The keys with another value for a key that is there, or with a new key at the end. -/
def put (entries : Entries) (key : String) (value : Entry) : Entries :=
  if entries.any fun entry => entry.1 == key then
    entries.map fun entry => if entry.1 == key then (key, value) else entry
  else entries ++ [(key, value)]

/--
Change the table at the end of a path.  Tables that are missing on the way come about with the given
origin.  A path through tables opened under one name leads through the last of them.  A way of dotted
keys leads only through tables that are implied.
-/
def changeAt (missing : Origin) (change : TableChange) : List String → TableChange
  | [], origin, entries => change origin entries
  | key :: path, origin, entries => do
      let child ←
        match entries.lookup key with
        | none => (changeAt missing change path missing []).map fun (o, es) => Entry.table o es
        | some (.table old inner) =>
            if old = .inline || (missing = .dotted && !old.isImplied) then none
            else (changeAt missing change path old inner).map fun (o, es) => Entry.table o es
        | some (.tables items) =>
            match items.getLast? with
            | some (.table old inner) =>
                (changeAt missing change path old inner).map fun (o, es) =>
                  Entry.tables (items.dropLast ++ [.table o es])
            | _ => none
        | some _ => none
      pure (origin, put entries key child)

/-- Give a key that is not there a value. -/
def addKey (key : String) (value : Entry) : TableChange := fun origin entries =>
  if (entries.lookup key).isSome then none else some (origin, entries ++ [(key, value)])

/--
Give a dotted key a value.  The table that the value goes into is one of dotted keys exactly when the
key has dots.
-/
def assign (path : List String) (key : String) (value : Entry) : TableChange :=
  changeAt .dotted (fun origin entries =>
    if (origin == .dotted) == path.isEmpty then none else addKey key value origin entries) path

/-- Open a table that is not there, or that only came about on the way of a header. -/
def openTable (path : List String) (key : String) : TableChange :=
  changeAt .passed (fun origin entries =>
    match entries.lookup key with
    | none => some (origin, put entries key (.table .opened []))
    | some (.table .passed inner) => some (origin, put entries key (.table .opened inner))
    | some _ => none) path

/-- Open one more table under a name. -/
def openAnother (path : List String) (key : String) : TableChange :=
  changeAt .passed (fun origin entries =>
    match entries.lookup key with
    | none => some (origin, put entries key (.tables [.table .opened []]))
    | some (.tables items) =>
        some (origin, put entries key (.tables (items ++ [.table .opened []])))
    | some _ => none) path

end Toml
end TemplateCascade

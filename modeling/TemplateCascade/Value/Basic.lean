import TemplateCascade.Number.Decimal
import TemplateCascade.Number.Reading
import TemplateCascade.Text.Blank

namespace TemplateCascade

/-!
# Values

The data a template is rendered with, and the values that expressions produce.  A map keeps the order
in which its keys came.  A value has a truth, a number, a text and a count, whatever its shape, since
templates never fail over the shape of their data.
-/

/-- A value of the data context. -/
inductive Value where
  | null
  | bool (truth : Bool)
  | number (amount : Float)
  | string (content : String)
  | list (items : List Value)
  | map (entries : List (String × Value))

instance : Inhabited Value := ⟨.null⟩

/--
Put an entry into a list of named entries.  A name that is there keeps its place and takes the new
entry; a new name comes last.
-/
def putEntry {Entry : Type} (entries : List (String × Entry)) (name : String) (entry : Entry) :
    List (String × Entry) :=
  match entries with
  | [] => [(name, entry)]
  | (first, old) :: rest =>
      if first = name then (first, entry) :: rest else (first, old) :: putEntry rest name entry

/-- The entry under a name. -/
def entryNamed? {Entry : Type} (entries : List (String × Entry)) (name : String) : Option Entry :=
  entries.lookup name

theorem entryNamed?_putEntry_self {Entry : Type} (entries : List (String × Entry)) (name : String)
    (entry : Entry) : entryNamed? (putEntry entries name entry) name = some entry := by
  induction entries with
  | nil => simp [putEntry, entryNamed?]
  | cons head tail ih =>
      obtain ⟨first, old⟩ := head
      simp only [putEntry]
      split
      · next same => simp [entryNamed?, same]
      · next different =>
          have unequal : (name == first) = false := beq_eq_false_iff_ne.mpr (Ne.symm different)
          simpa [entryNamed?, List.lookup_cons, unequal] using ih

theorem entryNamed?_putEntry_of_ne {Entry : Type} (entries : List (String × Entry))
    {name other : String} (entry : Entry) (different : other ≠ name) :
    entryNamed? (putEntry entries name entry) other = entryNamed? entries other := by
  induction entries with
  | nil =>
      have unequal : (other == name) = false := beq_eq_false_iff_ne.mpr different
      simp [putEntry, entryNamed?, List.lookup_cons, unequal]
  | cons head tail ih =>
      obtain ⟨first, old⟩ := head
      simp only [putEntry]
      split
      · next same =>
          have unequal : (other == first) = false := beq_eq_false_iff_ne.mpr (same ▸ different)
          simp [entryNamed?, List.lookup_cons, unequal]
      · next _ =>
          simp only [entryNamed?] at ih
          simp only [entryNamed?, List.lookup_cons, ih]

namespace Value

/-- A map from named values; of two values under one name the later one counts. -/
def ofEntries (entries : List (String × Value)) : Value :=
  .map (entries.foldl (fun known entry => putEntry known entry.1 entry.2) [])

/--
Whether a value counts as true: null, false, zero, the undefined number, the empty text, the text
`0` and empty collections do not.
-/
def isTruthy : Value → Bool
  | .null => false
  | .bool truth => truth
  | .number amount => amount != 0 && !amount.isNaN
  | .string content => content != "" && content != "0"
  | .list items => !items.isEmpty
  | .map entries => !entries.isEmpty

/-- The number a text stands for once its blank margins are gone. -/
def numberOf? (text : String) : Option Float :=
  Number.read? (Text.trimBlanks text.toList)

/-- The number of a value; a text that is no number counts as zero, a collection by its size. -/
def toNumber : Value → Float
  | .null => 0
  | .bool truth => if truth then 1 else 0
  | .number amount => amount
  | .string content => (numberOf? content).getD 0
  | .list items => Float.ofNat items.length
  | .map entries => Float.ofNat entries.length

/-- The text behind a string value. -/
def string? : Value → Option String
  | .string content => some content
  | _ => none

/-- The number of items: of a collection its size, of null none, of anything else one. -/
def count : Value → Nat
  | .null => 0
  | .list items => items.length
  | .map entries => entries.length
  | _ => 1

/-- One step along a path: the entry of a map, or the item of a list by its index. -/
def child? (value : Value) (key : String) : Option Value :=
  match value with
  | .map entries => entryNamed? entries key
  | .list items => (Number.readIndex? key.toList).bind fun index => items[index]?
  | _ => none

/-- Follow a path down into a value. -/
def follow? (value : Value) : List String → Option Value
  | [] => some value
  | key :: rest => (value.child? key).bind fun child => child.follow? rest

/-- The text of a number inside a template: the shortest text, except that zero has no sign. -/
def numberText (number : Float) : String :=
  if number == 0 then "0" else Number.shortestText number

/-- The text of a value: collections have none of their own and show as `Array`. -/
def text : Value → String
  | .null => ""
  | .bool truth => if truth then "1" else ""
  | .number amount => numberText amount
  | .string content => content
  | .list _ | .map _ => "Array"

theorem follow?_append (value : Value) (front rest : List String) :
    value.follow? (front ++ rest) = (value.follow? front).bind fun child => child.follow? rest := by
  induction front generalizing value with
  | nil => rfl
  | cons key keys ih =>
      simp only [List.cons_append, follow?]
      cases value.child? key with
      | none => rfl
      | some child => simpa using ih child

end Value

end TemplateCascade

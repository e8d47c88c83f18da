import TemplateCascade.Text.Escaping
import TemplateCascade.Value.Basic

namespace TemplateCascade

/-!
# Generated code

Compiling a template yields a tree of output operations, which is all that rendering needs: source,
spans and included templates are gone from it.  Conditions and calculations are trees of their own
kinds, with code at their leaves.

The generator builds concatenations with `Code.concat` and escapes with `Code.escape`.  The first
flattens concatenations, drops empty text and joins text that is adjacent; the second escapes text
that is already known.
-/

open Text (Escaping)

/-- What a value is written as, by the rules of a locale. -/
inductive FormatKind where
  | count
  | number
  | date
  | time
  | dateTime
deriving DecidableEq, Repr

/-- How two values are compared. -/
inductive ComparisonOperator where
  | equal
  | unequal
  | less
  | atMost
  | greater
  | atLeast
deriving DecidableEq, Repr

/-- An arithmetic operation on two numbers. -/
inductive ArithmeticOperator where
  | add
  | subtract
  | multiply
  | divide
  | remainder
deriving DecidableEq, Repr

/-- A function that calculations may call. -/
inductive MathFunction where
  | absolute
  | ceiling
  | floor
  | maximum
  | minimum
  | power
  | round
deriving DecidableEq, Repr

mutual

/-- An output operation. -/
inductive Code where
  /-- Text written as it is. -/
  | text (content : String)
  /-- A value that is known already. -/
  | constant (value : Value)
  /-- The value at a path, from the loops around it or else from the data. -/
  | reference (path : List String)
  | concat (parts : List Code)
  /-- The text of what is inside, neutralised. -/
  | escape (mode : Escaping) (inner : Code)
  | conditional (test : Test) (body otherwise : Code)
  /-- A body for every item of a collection. -/
  | each (source : Code) (key : Option String) (value : String) (body : Code)
  | arithmetic (calculation : Arithmetic)
  /-- A value by the rules of the locale, with its decimals or its date format if one is given. -/
  | format (kind : FormatKind) (value : Code) (option : Option Code)
  | link (kind : Code) (data : Option Code) (parameters : List (String × Code))
  | pageNavigation (link data page perPage total : Code) (parameters : List (String × Code))
  /-- A function that the application supplies. -/
  | helper (name : Code) (arguments : List Code)
  /-- An inclusion that was checked but not expanded. -/
  | inclusion (name : String)

/-- A condition. -/
inductive Test where
  | truthy (code : Code)
  | not (inner : Test)
  | and (left right : Test)
  | or (left right : Test)
  | compare (operator : ComparisonOperator) (left right : Code)

/-- A calculation. -/
inductive Arithmetic where
  | number (amount : Float)
  /-- The number of a value. -/
  | value (code : Code)
  | negate (inner : Arithmetic)
  | binary (operator : ArithmeticOperator) (left right : Arithmetic)
  | function (function : MathFunction) (arguments : List Arithmetic)

end

instance : Inhabited Code := ⟨.text ""⟩

instance : Inhabited Test := ⟨.truthy default⟩

instance : Inhabited Arithmetic := ⟨.number 0⟩

namespace Code

/-- The code that writes nothing. -/
def empty : Code := .text ""

/-- The text of code that is nothing but text. -/
def text? : Code → Option String
  | .text content => some content
  | _ => none

/-- The parts of a concatenation; any other code is its own single part. -/
def parts : Code → List Code
  | .concat parts => parts
  | code => [code]

/-- Put a part in front of others: empty text goes, and text joins text that comes next. -/
def consPart : Code → List Code → List Code
  | .text content, rest =>
      if content = "" then rest
      else
        match rest with
        | .text next :: more => .text (content ++ next) :: more
        | rest => .text content :: rest
  | part, rest => part :: rest

/-- The code for a list of parts: a single part stands for itself. -/
def ofParts : List Code → Code
  | [] => empty
  | [part] => part
  | parts => .concat parts

/-- One code after the other. -/
def concatenate (codes : List Code) : Code :=
  ofParts ((codes.flatMap parts).foldr consPart [])

/-- Code whose output is neutralised; text is neutralised at once. -/
def escaped (mode : Escaping) : Code → Code
  | .text content => .text (mode.apply content)
  | inner => if mode = .raw then inner else .escape mode inner

theorem concatenate_nil : concatenate [] = empty := rfl

@[simp] theorem escaped_raw (code : Code) : escaped .raw code = code := by
  cases code <;> simp [escaped]

end Code

end TemplateCascade

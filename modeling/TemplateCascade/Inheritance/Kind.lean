namespace TemplateCascade

/-!
# Trees, positions and definitions

Templates are defined at positions of a tree of styles, phrases at positions of a tree of languages.
Either tree has its root at position zero.  A definition is known by a number of its own.
-/

/-- One of the two trees along which definitions are inherited. -/
inductive TreeKind where
  | style
  | language
deriving DecidableEq, Repr

/-- What can be defined, and overridden further down a tree. -/
inductive DefinitionKind where
  | template
  | phrase
deriving DecidableEq, Repr

/-- A position of a tree. -/
abbrev Position := Nat

/-- The position at the top of either tree. -/
def rootPosition : Position := 0

/-- The number of one stored definition. -/
abbrev DefinitionId := Nat

/-- The kind of definition that lives on a tree. -/
def TreeKind.defines : TreeKind → DefinitionKind
  | .style => .template
  | .language => .phrase

/-- The tree that a kind of definition is inherited along. -/
def DefinitionKind.tree : DefinitionKind → TreeKind
  | .template => .style
  | .phrase => .language

def TreeKind.text : TreeKind → String
  | .style => "style"
  | .language => "language"

def DefinitionKind.text : DefinitionKind → String
  | .template => "template"
  | .phrase => "phrase"

/-- A definition's number as messages show it. -/
def definitionText (id : DefinitionId) : String :=
  "def" ++ toString id

end TemplateCascade

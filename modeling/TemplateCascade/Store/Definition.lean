import TemplateCascade.Fingerprint
import TemplateCascade.Inheritance.Resolution

namespace TemplateCascade

/-!
# Definitions

A definition is the source of a template, owned by a style, or the text of a phrase, owned by a
language.
-/

/-- A template or phrase as it is stored. -/
structure Definition where
  id : DefinitionId
  kind : DefinitionKind
  name : String
  /-- The style or language that owns the definition. -/
  position : Position
  /-- The source of a template, the text of a phrase. -/
  content : String
deriving DecidableEq, Repr

namespace Definition

/-- The fingerprint of what is defined. -/
def fingerprint (definition : Definition) : UInt64 :=
  Fingerprint.ofText definition.kind definition.content

/-- A definition as resolution sees it. -/
def ownership (definition : Definition) : Ownership :=
  ⟨definition.name, definition.position, definition.id⟩

end Definition

end TemplateCascade

import TemplateCascade.Inheritance.Kind
import TemplateCascade.Markup.Parser.Block
import TemplateCascade.Value.Basic

namespace TemplateCascade
namespace Compile

/-!
# What compilation can ask for

A compilation sees other templates and phrases only through an environment.  There are finitely many
templates, and the environment lists their names: that is why the expansion of inclusions ends.
-/

open Markup (ParseErrors Template)

/-- The templates at the styles and the phrases at the languages that compilation can ask for. -/
structure Environment where
  /-- The template of a name at a style, if there is one, unless its source does not parse. -/
  template : String → Position → Except ParseErrors (Option Template)
  /-- The text of a phrase at a language, if there is one. -/
  phrase : String → Position → Option String
  /-- The names of all templates there are, at whatever style. -/
  names : List String
  mem_names : ∀ name style, template name style ≠ .ok none → name ∈ names

namespace Environment

/-- The template of an optional source. -/
def parseSource? : Option String → Except ParseErrors (Option Template)
  | none => .ok none
  | some source => (Markup.parse source).map some

/-- The same templates and phrases at every position. -/
def ofSources (templates phrases : List (String × String)) : Environment where
  template name _ := parseSource? (entryNamed? templates name)
  phrase name _ := entryNamed? phrases name
  names := templates.map Prod.fst
  mem_names := by
    intro name _ present
    cases found : entryNamed? templates name with
    | none => simp [found, parseSource?] at present
    | some source =>
        obtain ⟨front, behind, same, _⟩ := List.lookup_eq_some_iff.mp found
        simp [same]

end Environment

end Compile
end TemplateCascade

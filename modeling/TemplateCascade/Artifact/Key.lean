import TemplateCascade.Inheritance.Kind

namespace TemplateCascade

/-!
# Artifact keys

A compiled template belongs to a style and a language, because phrases of that language are written
into it; a compiled phrase belongs to a language alone.  Keys are ordered with templates first, then
by style, language and name; the order is total and two keys that compare equal are equal.
-/

/-- What an artifact was compiled for. -/
inductive ArtifactKey where
  | template (style language : Position) (name : String)
  | phrase (language : Position) (name : String)
deriving DecidableEq, Repr

namespace ArtifactKey

def name : ArtifactKey → String
  | .template _ _ name => name
  | .phrase _ name => name

def kind : ArtifactKey → DefinitionKind
  | .template _ _ _ => .template
  | .phrase _ _ => .phrase

/-- The position at which the artifact's own definition is looked up. -/
def resolutionPosition : ArtifactKey → Position
  | .template style _ _ => style
  | .phrase language _ => language

def language : ArtifactKey → Position
  | .template _ language _ => language
  | .phrase language _ => language

def style? : ArtifactKey → Option Position
  | .template style _ _ => some style
  | .phrase _ _ => none

/-- A key as messages show it. -/
def text : ArtifactKey → String
  | .template style language name =>
      "template '" ++ name ++ "' (style " ++ toString style ++ ", language " ++
        toString language ++ ")"
  | .phrase language name => "phrase '" ++ name ++ "' (language " ++ toString language ++ ")"

/-- Templates come before phrases. -/
def group : ArtifactKey → Nat
  | .template _ _ _ => 0
  | .phrase _ _ => 1

/-- Group, position, language and name in turn. -/
instance : Ord ArtifactKey where
  compare := compareLex (compareOn group) (compareLex (compareOn resolutionPosition)
    (compareLex (compareOn language) (compareOn name)))

instance : Std.TransOrd ArtifactKey :=
  inferInstanceAs (Std.TransCmp (compareLex (compareOn group) (compareLex
    (compareOn resolutionPosition) (compareLex (compareOn language) (compareOn name)))))

instance : Std.LawfulEqOrd ArtifactKey where
  compare_self := Std.ReflCmp.compare_self
  eq_of_compare := by
    intro left right same
    change (compare left.group right.group).then
      ((compare left.resolutionPosition right.resolutionPosition).then
        ((compare left.language right.language).then (compare left.name right.name))) = .eq at same
    simp only [Ordering.then_eq_eq, Std.compare_eq_iff_eq] at same
    obtain ⟨sameGroup, samePosition, sameLanguage, sameName⟩ := same
    cases left <;> cases right <;>
      simp_all [group, resolutionPosition, language, name]

end ArtifactKey

end TemplateCascade

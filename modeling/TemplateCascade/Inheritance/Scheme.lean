import TemplateCascade.Inheritance.Resolution

namespace TemplateCascade

/-!
# The inheritance scheme

Both trees together with what the names of either kind resolve to along them.  After a change of a
tree or of definitions, names are worked out again one by one; the scheme of a store is what working
out all of them gives.
-/

/-- Both trees, and what names resolve to along them. -/
structure InheritanceScheme where
  styles : PositionTree
  languages : PositionTree
  templates : ResolutionMap
  phrases : ResolutionMap

namespace InheritanceScheme

/-- The scheme of two trees and the definitions along them. -/
def build (styles languages : PositionTree) (templates phrases : List Ownership) :
    InheritanceScheme :=
  ⟨styles, languages, ResolutionMap.build .template styles templates,
    ResolutionMap.build .phrase languages phrases⟩

/-- The tree of a kind. -/
def tree (scheme : InheritanceScheme) : TreeKind → PositionTree
  | .style => scheme.styles
  | .language => scheme.languages

/-- The scheme with another tree, before any name is worked out again. -/
def withTree (scheme : InheritanceScheme) (kind : TreeKind) (tree : PositionTree) :
    InheritanceScheme :=
  match kind with
  | .style => { scheme with styles := tree }
  | .language => { scheme with languages := tree }

/-- What the names of a kind resolve to. -/
def map (scheme : InheritanceScheme) : DefinitionKind → ResolutionMap
  | .template => scheme.templates
  | .phrase => scheme.phrases

/-- The scheme with another map for the names of a kind. -/
def withMap (scheme : InheritanceScheme) (kind : DefinitionKind) (map : ResolutionMap) :
    InheritanceScheme :=
  match kind with
  | .template => { scheme with templates := map }
  | .phrase => { scheme with phrases := map }

/-- Work out one name again along the tree of its kind. -/
def rebuildName (scheme : InheritanceScheme) (kind : DefinitionKind) (name : String)
    (direct : DirectDefinitions) : InheritanceScheme × ResolutionChange :=
  let (map, change) := (scheme.map kind).rebuildName (scheme.tree kind.tree) name direct
  (scheme.withMap kind map, change)

end InheritanceScheme

/-- The definitions of one name by position; of two at one position the later one counts. -/
def DirectDefinitions.ofList (definitions : List (Position × DefinitionId)) : DirectDefinitions :=
  definitions.foldl (fun known (position, id) => known.insert position id) ∅

end TemplateCascade

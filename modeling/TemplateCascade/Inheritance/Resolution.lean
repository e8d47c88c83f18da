import TemplateCascade.Inheritance.Tree

namespace TemplateCascade

/-!
# Resolving names at positions

A name that is defined at a position is inherited by everything below it, down to positions that
define it anew.  The map holds the outcome for every name and position, and no entry where a name
does not resolve.  Names are independent of each other, so one can be worked out again alone; what
comes of that is the list of the positions where it now resolves differently.
-/

/-- The definitions of one name by the positions that own them. -/
abbrev DirectDefinitions := Std.ExtTreeMap Position DefinitionId

/-- The definitions one name resolves to, by position. -/
abbrev Resolved := Std.ExtTreeMap Position DefinitionId

/-- One position where a name resolves differently than before. -/
structure PositionChange where
  position : Position
  old : Option DefinitionId
  new : Option DefinitionId
deriving DecidableEq, Repr

/-- The positions where one name resolves differently than before, in ascending order. -/
structure ResolutionChange where
  name : String
  changes : List PositionChange
deriving DecidableEq, Repr

namespace ResolutionChange

def isEmpty (change : ResolutionChange) : Bool :=
  change.changes.isEmpty

def positions (change : ResolutionChange) : List Position :=
  change.changes.map PositionChange.position

/-- The positions where the name no longer resolves. -/
def lost (change : ResolutionChange) : List Position :=
  (change.changes.filter fun change => change.new.isNone).map PositionChange.position

end ResolutionChange

/-- Resolve one more position: by its own definition, or else as its parent resolves. -/
def resolveNext (tree : PositionTree) (direct : DirectDefinitions) (resolved : Resolved)
    (position : Position) : Resolved :=
  let inherited := (tree.parent? position).bind fun parent => resolved[parent]?
  match direct[position]?.or inherited with
  | some id => resolved.insert position id
  | none => resolved

/-- Resolve one name at all positions, every parent before its children. -/
def flatten (tree : PositionTree) (direct : DirectDefinitions) : Resolved :=
  tree.breadthFirst.foldl (resolveNext tree direct) ∅

/-- A definition as resolution sees it. -/
structure Ownership where
  name : String
  position : Position
  id : DefinitionId
deriving DecidableEq, Repr

/-- The definitions of every name; of two at one position the later one counts. -/
def directByName (definitions : List Ownership) : Std.ExtTreeMap String DirectDefinitions :=
  definitions.foldl (fun known definition =>
    known.insert definition.name
      ((known[definition.name]?.getD ∅).insert definition.position definition.id)) ∅

/-- What every name of one kind resolves to. -/
structure ResolutionMap where
  kind : DefinitionKind
  entries : Std.ExtTreeMap String Resolved

namespace ResolutionMap

/-- Leave out a name that resolves nowhere. -/
def nonempty? (resolved : Resolved) : Option Resolved :=
  if resolved.isEmpty then none else some resolved

/-- Work out every name. -/
def build (kind : DefinitionKind) (tree : PositionTree) (definitions : List Ownership) :
    ResolutionMap :=
  ⟨kind, (directByName definitions).filterMap fun _ direct => nonempty? (flatten tree direct)⟩

/-- What a name resolves to, by position. -/
def resolvedOf (map : ResolutionMap) (name : String) : Resolved :=
  map.entries[name]?.getD ∅

/-- What a name resolves to at a position. -/
def resolve? (map : ResolutionMap) (name : String) (position : Position) : Option DefinitionId :=
  (map.resolvedOf name)[position]?

/-- The positions where two outcomes differ, in ascending order. -/
def changesBetween (old new : Resolved) : List PositionChange :=
  ((old ∪ new).keys.map fun position => ⟨position, old[position]?, new[position]?⟩).filter
    fun change => change.old != change.new

/-- Work out one name again. -/
def rebuildName (map : ResolutionMap) (tree : PositionTree) (name : String)
    (direct : DirectDefinitions) : ResolutionMap × ResolutionChange :=
  let resolved := flatten tree direct
  ({ map with entries := map.entries.alter name fun _ => nonempty? resolved },
    ⟨name, changesBetween (map.resolvedOf name) resolved⟩)

/-- The positions where a name resolves to a definition, in ascending order. -/
def positionsResolvingTo (map : ResolutionMap) (name : String) (id : DefinitionId) :
    List Position :=
  ((map.resolvedOf name).filter fun _ found => found == id).keys

/-- The positions where a name resolves, in ascending order. -/
def positions (map : ResolutionMap) (name : String) : List Position :=
  (map.resolvedOf name).keys

/-- The names that resolve at a position, in ascending order, with what they resolve to. -/
def namesAt (map : ResolutionMap) (position : Position) : List (String × DefinitionId) :=
  map.entries.toList.filterMap fun (name, resolved) =>
    resolved[position]?.map fun id => (name, id)

/-- The names that resolve somewhere, in ascending order. -/
def names (map : ResolutionMap) : List String :=
  map.entries.keys

/-- Forget a position for all names. -/
def removePosition (map : ResolutionMap) (position : Position) : ResolutionMap :=
  { map with entries := map.entries.filterMap fun _ resolved => nonempty? (resolved.erase position) }

end ResolutionMap

end TemplateCascade

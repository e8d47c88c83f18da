import Std.Data.ExtTreeMap
import TemplateCascade.Store.Basic

namespace TemplateCascade

/-!
# A store in memory

Definitions are numbered in the order in which they are first made, and listed in that order.  A name
has one definition at a position: defining it again changes what it is defined as and keeps the
number.
-/

/-- Trees, definitions and artifacts in memory. -/
structure MemoryStore where
  styles : Std.ExtTreeMap Position TreeNode
  languages : Std.ExtTreeMap Position TreeNode
  definitions : Std.ExtTreeMap DefinitionId Definition
  artifacts : Std.ExtTreeMap ArtifactKey Artifact
  /-- The number of the next definition. -/
  nextId : DefinitionId

namespace MemoryStore

/-- The nodes of a tree with nothing but its root. -/
def rootNodes : Std.ExtTreeMap Position TreeNode :=
  (∅ : Std.ExtTreeMap Position TreeNode).insert rootPosition ⟨rootPosition, none, []⟩

/-- The store with the roots of both trees and nothing else. -/
def empty : MemoryStore := ⟨rootNodes, rootNodes, ∅, ∅, 1⟩

/-- The nodes of one tree by position. -/
def nodes (store : MemoryStore) : TreeKind → Std.ExtTreeMap Position TreeNode
  | .style => store.styles
  | .language => store.languages

/-- The store with other nodes for one tree. -/
def withNodes (store : MemoryStore) (tree : TreeKind) (nodes : Std.ExtTreeMap Position TreeNode) :
    MemoryStore :=
  match tree with
  | .style => { store with styles := nodes }
  | .language => { store with languages := nodes }

/-- The definitions of a kind in the order of their numbers. -/
def definitionsOf (store : MemoryStore) (kind : DefinitionKind) : List Definition :=
  store.definitions.toList.filterMap fun (_, definition) =>
    if definition.kind = kind then some definition else none

/-- A definition of a kind by its number. -/
def definition? (store : MemoryStore) (kind : DefinitionKind) (id : DefinitionId) :
    Option Definition :=
  store.definitions[id]?.filter fun definition => definition.kind == kind

/-- The definition of a name that a position owns. -/
def owned? (store : MemoryStore) (kind : DefinitionKind) (position : Position) (name : String) :
    Option Definition :=
  (store.definitionsOf kind).find? fun definition =>
    definition.position == position && definition.name == name

/-- Define a name at a position, whether the position is stored or not. -/
def define (store : MemoryStore) (kind : DefinitionKind) (position : Position) (name content : String) :
    MemoryStore × DefinitionId :=
  match store.owned? kind position name with
  | some definition =>
      ({ store with
          definitions :=
            store.definitions.insert definition.id { definition with content := content } },
        definition.id)
  | none =>
      ({ store with
          definitions :=
            store.definitions.insert store.nextId ⟨store.nextId, kind, name, position, content⟩
          nextId := store.nextId + 1 }, store.nextId)

/-- Add a node under a parent, whether the parent is stored or not. -/
def addPosition (store : MemoryStore) (tree : TreeKind) (id parent : Position) : MemoryStore :=
  store.withNodes tree ((store.nodes tree).insert id ⟨id, some parent, []⟩)

/-- The number of stored artifacts. -/
def artifactCount (store : MemoryStore) : Nat :=
  store.artifacts.size

/-- Define a name at a position of a stored tree. -/
def put (store : MemoryStore) (kind : DefinitionKind) (position : Position) (name content : String) :
    Except StoreError (MemoryStore × DefinitionId) :=
  if (store.nodes kind.tree).contains position then .ok (store.define kind position name content)
  else .error (.missingPosition kind.tree position)

/-- Delete a definition of a kind. -/
def delete (store : MemoryStore) (kind : DefinitionKind) (id : DefinitionId) :
    Except StoreError (MemoryStore × Definition) :=
  match store.definition? kind id with
  | some definition => .ok ({ store with definitions := store.definitions.erase id }, definition)
  | none => .error (.missingDefinition kind id)

/-- Delete the node of a position. -/
def deleteTreeNode (store : MemoryStore) (tree : TreeKind) (id : Position) :
    Except StoreError MemoryStore :=
  if (store.nodes tree).contains id then .ok (store.withNodes tree ((store.nodes tree).erase id))
  else .error (.missingPosition tree id)

instance : Store MemoryStore where
  loadTree store tree := .ok (store.nodes tree).values
  load store kind id :=
    match store.definition? kind id with
    | some definition => .ok definition
    | none => .error (.missingDefinition kind id)
  definitionsNamed store kind name :=
    .ok (((store.definitionsOf kind).filter fun definition => definition.name == name).map
      fun definition => (definition.position, definition.id))
  definitionsAt store kind position :=
    .ok (((store.definitionsOf kind).filter fun definition => definition.position == position).map
      fun definition => (definition.name, definition.id))
  allDefinitions store kind := .ok ((store.definitionsOf kind).map Definition.ownership)
  artifacts store := .ok store.artifacts.values
  replaceArtifact store artifact :=
    .ok { store with artifacts := store.artifacts.insert artifact.key artifact }
  removeArtifact store key := .ok { store with artifacts := store.artifacts.erase key }
  put := put
  delete := delete
  putTreeNode store tree node :=
    .ok (store.withNodes tree ((store.nodes tree).insert node.id node))
  deleteTreeNode := deleteTreeNode

end MemoryStore

end TemplateCascade

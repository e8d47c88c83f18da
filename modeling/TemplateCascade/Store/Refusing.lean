import TemplateCascade.Store.Basic

namespace TemplateCascade

/-!
# Stores that refuse operations

A store whose backend is partly out of order: the operations it is told to refuse fail before they do
anything, and all others go to the store behind it.
-/

/-- The operations of a store as a backend knows them. -/
inductive StoreOperation where
  | loadTree
  | loadTemplate
  | loadPhrase
  | definitionsNamed
  | definitionsAt
  | allDefinitions
  | artifacts
  | replaceArtifact
  | removeArtifact
  | putTemplate
  | putPhrase
  | deleteDefinition
  | putTreeNode
  | deleteTreeNode
deriving DecidableEq, Repr

namespace StoreOperation

def name : StoreOperation → String
  | loadTree => "load_tree"
  | loadTemplate => "load_template"
  | loadPhrase => "load_phrase"
  | definitionsNamed => "definitions_named"
  | definitionsAt => "definitions_at"
  | allDefinitions => "all_definitions"
  | artifacts => "artifacts"
  | replaceArtifact => "replace_artifact"
  | removeArtifact => "remove_artifact"
  | putTemplate => "put_template"
  | putPhrase => "put_phrase"
  | deleteDefinition => "delete_definition"
  | putTreeNode => "put_tree_node"
  | deleteTreeNode => "delete_tree_node"

def all : List StoreOperation :=
  [loadTree, loadTemplate, loadPhrase, definitionsNamed, definitionsAt, allDefinitions, artifacts,
    replaceArtifact, removeArtifact, putTemplate, putPhrase, deleteDefinition, putTreeNode,
    deleteTreeNode]

def ofName? (text : String) : Option StoreOperation :=
  all.find? fun operation => operation.name == text

/-- The operation that loads a definition. -/
def loading : DefinitionKind → StoreOperation
  | .template => loadTemplate
  | .phrase => loadPhrase

/-- The operation that makes or changes a definition. -/
def putting : DefinitionKind → StoreOperation
  | .template => putTemplate
  | .phrase => putPhrase

end StoreOperation

/-- A store that refuses some operations. -/
structure RefusingStore (σ : Type) where
  store : σ
  refused : List StoreOperation

namespace RefusingStore

/-- Do what is asked for unless the operation is refused. -/
def attempt {σ Result : Type} (refusing : RefusingStore σ) (operation : StoreOperation)
    (result : Except StoreError Result) : Except StoreError Result :=
  if operation ∈ refusing.refused then .error (.backend operation.name) else result

/-- The same refusals before another store. -/
def withStore {σ : Type} (refusing : RefusingStore σ) (store : σ) : RefusingStore σ :=
  { refusing with store := store }

/-- Attempt an operation that changes the store behind. -/
def change {σ : Type} (refusing : RefusingStore σ) (operation : StoreOperation)
    (result : Except StoreError σ) : Except StoreError (RefusingStore σ) :=
  (refusing.attempt operation result).map refusing.withStore

/-- Attempt an operation that changes the store behind and has a result as well. -/
def changeWith {σ Result : Type} (refusing : RefusingStore σ) (operation : StoreOperation)
    (result : Except StoreError (σ × Result)) : Except StoreError (RefusingStore σ × Result) :=
  (refusing.attempt operation result).map fun (store, result) => (refusing.withStore store, result)

open Store StoreOperation in
instance {σ : Type} [Store σ] : Store (RefusingStore σ) where
  loadTree refusing tree := refusing.attempt .loadTree (loadTree refusing.store tree)
  load refusing kind id := refusing.attempt (loading kind) (load refusing.store kind id)
  definitionsNamed refusing kind name :=
    refusing.attempt .definitionsNamed (definitionsNamed refusing.store kind name)
  definitionsAt refusing kind position :=
    refusing.attempt .definitionsAt (definitionsAt refusing.store kind position)
  allDefinitions refusing kind :=
    refusing.attempt .allDefinitions (allDefinitions refusing.store kind)
  artifacts refusing := refusing.attempt .artifacts (artifacts refusing.store)
  replaceArtifact refusing artifact :=
    refusing.change .replaceArtifact (replaceArtifact refusing.store artifact)
  removeArtifact refusing key :=
    refusing.change .removeArtifact (removeArtifact refusing.store key)
  put refusing kind position name content :=
    refusing.changeWith (putting kind) (put refusing.store kind position name content)
  delete refusing kind id :=
    refusing.changeWith .deleteDefinition (delete refusing.store kind id)
  putTreeNode refusing tree node :=
    refusing.change .putTreeNode (putTreeNode refusing.store tree node)
  deleteTreeNode refusing tree id :=
    refusing.change .deleteTreeNode (deleteTreeNode refusing.store tree id)

end RefusingStore

end TemplateCascade

import TemplateCascade.Artifact.Basic
import TemplateCascade.Store.Definition

namespace TemplateCascade

/-!
# Stores

A store keeps what outlives an engine: the nodes of both trees, the definitions, and the artifacts that
were built from them.  Any type with these operations will do.  An operation that fails has done
nothing.
-/

/-- Why a store does not do what it is asked for. -/
inductive StoreError where
  | missingDefinition (kind : DefinitionKind) (id : DefinitionId)
  | notDefinedAt (kind : DefinitionKind) (name : String) (position : Position)
  | missingPosition (tree : TreeKind) (id : Position)
  /-- A failure of whatever the store itself is built on. -/
  | backend (message : String)
deriving DecidableEq, Repr

def StoreError.message : StoreError → String
  | .missingDefinition kind id => kind.text ++ " definition " ++ definitionText id ++ " does not exist"
  | .notDefinedAt kind name position =>
      "no " ++ kind.text ++ " '" ++ name ++ "' is defined at position " ++ toString position
  | .missingPosition tree id => tree.text ++ " position " ++ toString id ++ " is not stored"
  | .backend message => "store backend: " ++ message

/-- What an engine asks of a store. -/
class Store (σ : Type) where
  /-- The nodes of a tree in any order. -/
  loadTree : σ → TreeKind → Except StoreError (List TreeNode)
  /-- One definition. -/
  load : σ → DefinitionKind → DefinitionId → Except StoreError Definition
  /-- The definitions of a name. -/
  definitionsNamed : σ → DefinitionKind → String → Except StoreError (List (Position × DefinitionId))
  /-- The definitions that a position owns. -/
  definitionsAt : σ → DefinitionKind → Position → Except StoreError (List (String × DefinitionId))
  /-- All definitions of a kind. -/
  allDefinitions : σ → DefinitionKind → Except StoreError (List Ownership)
  /-- The stored artifacts. -/
  artifacts : σ → Except StoreError (List Artifact)
  /-- Store an artifact in place of any other under its key. -/
  replaceArtifact : σ → Artifact → Except StoreError σ
  /-- Drop the artifact under a key if there is one. -/
  removeArtifact : σ → ArtifactKey → Except StoreError σ
  /-- Define a name at a position, or change what it is defined as there. -/
  put : σ → DefinitionKind → Position → String → String → Except StoreError (σ × DefinitionId)
  /-- Delete a definition, and tell what it was. -/
  delete : σ → DefinitionKind → DefinitionId → Except StoreError (σ × Definition)
  /-- Store a node in place of any other for its position. -/
  putTreeNode : σ → TreeKind → TreeNode → Except StoreError σ
  /-- Delete the node of a position. -/
  deleteTreeNode : σ → TreeKind → Position → Except StoreError σ

namespace Store

/-- The definition of a name that a position owns. -/
def definitionAt {σ : Type} [Store σ] (store : σ) (kind : DefinitionKind) (name : String)
    (position : Position) : Except StoreError (Option DefinitionId) :=
  (definitionsNamed store kind name).map fun found =>
    (found.find? fun owned => owned.1 == position).map Prod.snd

end Store

end TemplateCascade

import TemplateCascade.Engine.Cascade

namespace TemplateCascade
namespace Engine

/-!
# Edits

An edit changes the store and brings the engine in line with it.  A text that is the same as before is
not stored again, and the source of a template that does not compile is not stored at all, unless the
configuration says otherwise.
-/

variable {σ : Type} [Store σ]

/-- Whether a name is defined at a position as a text with the fingerprint of the given one. -/
def isUnchanged (kind : DefinitionKind) (name : String) (position : Position) (content : String) :
    EngineM σ Bool := do
  match ← EngineM.ask fun store => Store.definitionAt store kind name position with
  | none => pure false
  | some id => do
      let definition ← EngineM.ask fun store => Store.load store kind id
      pure (definition.fingerprint == Fingerprint.ofText kind content)

/-- Store what a name is defined as at a position. -/
def define (kind : DefinitionKind) (position : Position) (name content : String) :
    EngineM σ CascadeReport := do
  let _ ← EngineM.tellFor fun store => Store.put store kind position name content
  definitionChanged kind name position

/-- Check that a source is fit to be stored, if the configuration asks for that. -/
def checkTemplate (name source : String) (style : Position) : EngineM σ Unit := do
  if (← get).config.validateOnSave then
    let diagnostics ← validateTemplate name source style
    if !diagnostics.isEmpty then throw (.rejected name diagnostics)

/-- Save the source of a template at a style. -/
def saveTemplate (style : Position) (name source : String) : EngineM σ CascadeReport := do
  if ← isUnchanged .template name style source then pure CascadeReport.empty
  else do
    checkTemplate name source style
    define .template style name source

/-- Save the text of a phrase at a language. -/
def savePhrase (language : Position) (name text : String) : EngineM σ CascadeReport := do
  if ← isUnchanged .phrase name language text then pure CascadeReport.empty
  else define .phrase language name text

/-- Delete a definition from the store, and forget its tree. -/
def deleteStored (kind : DefinitionKind) (id : DefinitionId) : EngineM σ Unit := do
  let _ ← EngineM.tellFor fun store => Store.delete store kind id
  modify fun engine => { engine with memo := engine.memo.forget id }

/-- Delete what a name is defined as at a position. -/
def deleteDefinition (kind : DefinitionKind) (name : String) (position : Position) :
    EngineM σ CascadeReport := do
  match ← EngineM.ask fun store => Store.definitionAt store kind name position with
  | none => throw (.store (.notDefinedAt kind name position))
  | some id => do
      deleteStored kind id
      definitionDeleted kind name

/-- Add a position under a parent. -/
def addPosition (tree : TreeKind) (id parent : Position) : EngineM σ CascadeReport := do
  let positions := (← get).scheme.tree tree
  if positions.contains id then throw (.tree (.duplicatePosition tree id))
  let _ ← EngineM.ofTree (positions.ancestors parent)
  EngineM.tell fun store => Store.putTreeNode store tree ⟨id, some parent, []⟩
  positionAdded tree id parent

/-- Store the nodes of some positions and of everything below them. -/
def storeNodes (tree : TreeKind) (tops : List Position) : EngineM σ Unit := do
  let positions := (← get).scheme.tree tree
  let moved := tops.flatMap positions.subtree
  (positions.nodes.filter fun node => moved.contains node.id).forM fun node =>
    EngineM.tell fun store => Store.putTreeNode store tree node

/-- Move a position under a parent. -/
def movePosition (tree : TreeKind) (id parent : Position) : EngineM σ CascadeReport := do
  let report ← positionMoved tree id parent
  storeNodes tree [id]
  pure report

/-- Remove a position and what it defines. -/
def removePosition (tree : TreeKind) (id : Position) : EngineM σ CascadeReport := do
  let positions := (← get).scheme.tree tree
  let _ ← EngineM.ofTree (positions.ancestors id)
  let owned ← EngineM.ask fun store => Store.definitionsAt store tree.defines id
  owned.forM fun (_, definition) => deleteStored tree.defines definition
  let report ← positionRemoved tree id
  EngineM.tell fun store => Store.deleteTreeNode store tree id
  storeNodes tree (positions.children id)
  pure report

end Engine
end TemplateCascade

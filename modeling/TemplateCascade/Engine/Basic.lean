import TemplateCascade.Artifact.Cache
import TemplateCascade.Cascade.Build
import TemplateCascade.Cascade.Report
import TemplateCascade.Config.Basic
import TemplateCascade.Render.Evaluation

namespace TemplateCascade

/-!
# Engines

An engine stands between a store and those who render.  It keeps what it has derived from the store:
the inheritance scheme, the artifacts, what they depend on, and the trees it has parsed.  A command
changes the engine and has a result or fails; what it has done before it fails stays done.
-/

open Compile (Diagnostic)
open Markup (ParseMemo)

/-- Why a command fails. -/
inductive EngineError where
  | tree (error : TreeError)
  | store (error : StoreError)
  | config (error : ConfigError)
  | render (error : Render.RenderError)
  /-- The source of a template is not fit to be stored. -/
  | rejected (name : String) (diagnostics : List Diagnostic)
deriving DecidableEq, Repr

namespace EngineError

/-- The first of some diagnostics, and how many there are besides. -/
def firstOf : List Diagnostic → String
  | [] => "no diagnostics"
  | [only] => only.text
  | first :: rest => first.text ++ " (and " ++ toString rest.length ++ " more)"

def message : EngineError → String
  | tree error => error.message
  | store error => error.message
  | config error => error.message
  | render error => error.message
  | rejected name diagnostics => "template '" ++ name ++ "' was rejected: " ++ firstOf diagnostics

/-- The diagnostics of a source that was rejected. -/
def diagnostics : EngineError → List Diagnostic
  | rejected _ diagnostics => diagnostics
  | _ => []

end EngineError

/-- An engine over a store. -/
structure Engine (σ : Type) where
  store : σ
  config : Config
  registry : Compile.Registry
  scheme : InheritanceScheme
  dependencies : Dependencies
  cache : ArtifactCache
  memo : ParseMemo

/-- A command to an engine. -/
abbrev EngineM (σ : Type) := ExceptT EngineError (StateM (Engine σ))

/-- Give an engine a command: what comes of it, and the engine afterwards. -/
def Engine.perform {σ Result : Type} (engine : Engine σ) (command : EngineM σ Result) :
    Except EngineError Result × Engine σ :=
  command.run.run engine

namespace EngineM

variable {σ Result : Type}

/-- The result of something that concerns a tree. -/
def ofTree (result : Except TreeError Result) : EngineM σ Result :=
  match result with
  | .ok result => pure result
  | .error error => throw (.tree error)

/-- The result of something that concerns the store. -/
def ofStore (result : Except StoreError Result) : EngineM σ Result :=
  match result with
  | .ok result => pure result
  | .error error => throw (.store error)

/-- Ask the store. -/
def ask (question : σ → Except StoreError Result) : EngineM σ Result := do
  ofStore (question (← get).store)

/-- Have the store changed. -/
def tell (change : σ → Except StoreError σ) : EngineM σ Unit := do
  let store ← ofStore (change (← get).store)
  modify fun engine => { engine with store := store }

/-- Have the store changed, with a result. -/
def tellFor (change : σ → Except StoreError (σ × Result)) : EngineM σ Result := do
  let (store, result) ← ofStore (change (← get).store)
  modify fun engine => { engine with store := store }
  pure result

end EngineM

namespace Engine

variable {σ : Type} [Store σ]

/-- The inheritance scheme of what is stored. -/
def loadScheme (store : σ) : Except EngineError InheritanceScheme := do
  let styles ← PositionTree.ofNodes .style (← (Store.loadTree store .style).mapError .store)
    |>.mapError .tree
  let languages ← PositionTree.ofNodes .language (← (Store.loadTree store .language).mapError .store)
    |>.mapError .tree
  let templates ← (Store.allDefinitions store .template).mapError .store
  let phrases ← (Store.allDefinitions store .phrase).mapError .store
  pure (InheritanceScheme.build styles languages templates phrases)

/-- What stored artifacts depend on. -/
def dependenciesOf (artifacts : List Artifact) : Dependencies :=
  artifacts.foldl (fun dependencies artifact => dependencies.record artifact.key artifact.uses)
    Dependencies.empty

/-- An engine over a store, with the artifacts that are stored. -/
def ofStore (config : Config) (registry : Compile.Registry) (store : σ) :
    Except EngineError (Engine σ) := do
  config.validate.mapError .config
  let scheme ← loadScheme store
  let artifacts ← (Store.artifacts store).mapError .store
  pure
    { store := store
      config := config
      registry := registry
      scheme := scheme
      dependencies := dependenciesOf artifacts
      cache := ArtifactCache.empty.restore artifacts
      memo := ParseMemo.empty }

/-- What builds read. -/
def inputs (engine : Engine σ) : BuildInputs σ :=
  ⟨engine.store, engine.scheme, engine.registry, engine.memo⟩

/-! ## Questions -/

/-- The positions of a tree, every parent before its children. -/
def positions (engine : Engine σ) (tree : TreeKind) : List Position :=
  (engine.scheme.tree tree).breadthFirst

/-- The ancestors of a position and then the position itself. -/
def chain (engine : Engine σ) (tree : TreeKind) (id : Position) :
    Except EngineError (List Position) :=
  ((engine.scheme.tree tree).chain id).mapError .tree

/-- What a name resolves to at a position. -/
def resolve? (engine : Engine σ) (kind : DefinitionKind) (name : String) (position : Position) :
    Option DefinitionId :=
  (engine.scheme.map kind).resolve? name position

/-- What is in effect for a name at a position: the source of a template, the text of a phrase. -/
def effectiveContent (engine : Engine σ) (kind : DefinitionKind) (name : String)
    (position : Position) : Except EngineError (Option String) :=
  match engine.resolve? kind name position with
  | none => .ok none
  | some id =>
      ((Store.load engine.store kind id).mapError .store).map fun definition =>
        some definition.content

/-- The artifact under a key. -/
def artifact? (engine : Engine σ) (key : ArtifactKey) : Option Artifact :=
  engine.cache.get? key

/-- The output of the artifact under a key, for some data. -/
def render (engine : Engine σ) (host : Render.Host) (data : Value) (key : ArtifactKey) :
    Except EngineError String :=
  match engine.artifact? key with
  | none => .error (.render (.missingArtifact key))
  | some artifact => (Render.render host data artifact.code).mapError .render

/-- Tell why a source is not fit to be stored as a template, if it is not. -/
def validateTemplate (name source : String) (style : Position) : EngineM σ (List Diagnostic) := do
  let (diagnostics, memo) := (← get).inputs.validate name source style
  modify fun engine => { engine with memo := memo }
  pure diagnostics

end Engine

end TemplateCascade

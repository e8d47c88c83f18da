import TemplateCascade.Engine.Basic

namespace TemplateCascade
namespace Engine

/-!
# Cascades

A cascade brings the artifacts in line with a change.  The names that the change concerns are worked
out again; whatever they affect is built from one state of the engine, and then the outcomes are
applied in the order of their keys.  An artifact is in the cache and in the store at the same time, and
what it depends on is recorded at that time too.
-/

open Compile (Diagnostic Uses)
open Markup (ParseMemo)

variable {σ : Type} [Store σ]

/-! ## Applying outcomes -/

/-- Put a freshly built artifact to use. -/
def install (key : ArtifactKey) (code : Code) (uses : Uses) : EngineM σ CascadeReport := do
  modify fun engine => { engine with dependencies := engine.dependencies.record key uses }
  let (cache, artifact) := (← get).cache.install key code uses
  modify fun engine => { engine with cache := cache }
  EngineM.tell fun store => Store.replaceArtifact store artifact
  pure { CascadeReport.empty with recompiled := [(key, artifact.generation)] }

/-- Take an artifact out of use that nothing calls for any more. -/
def drop (key : ArtifactKey) : EngineM σ CascadeReport := do
  modify fun engine => { engine with dependencies := engine.dependencies.remove key }
  let (cache, removed) := (← get).cache.remove key
  modify fun engine => { engine with cache := cache }
  match removed with
  | none => pure CascadeReport.empty
  | some _ => do
      EngineM.tell fun store => Store.removeArtifact store key
      pure { CascadeReport.empty with removed := [key] }

/-- Keep what is there for a key that could not be built, and mark it as stale. -/
def keep (key : ArtifactKey) (diagnostic : Diagnostic) (uses : Uses) : EngineM σ Unit := do
  let (cache, kept) := (← get).cache.markStale key diagnostic uses
  modify fun engine => { engine with cache := cache }
  match kept with
  | none =>
      modify fun engine => { engine with dependencies := engine.dependencies.record key uses }
  | some stale => do
      modify fun engine => { engine with dependencies := engine.dependencies.record key stale.uses }
      EngineM.tell fun store => Store.replaceArtifact store stale

/-- Take what is there for a key that could not be built out of use. -/
def invalidate (key : ArtifactKey) (uses : Uses) : EngineM σ Unit := do
  let (cache, removed) := (← get).cache.recordFailure.remove key
  modify fun engine => { engine with cache := cache }
  if removed.isSome then EngineM.tell fun store => Store.removeArtifact store key
  modify fun engine => { engine with dependencies := engine.dependencies.record key uses }

/-- Apply the outcome of building a target. -/
def applyOutcome (key : ArtifactKey) (direct : Bool) : Outcome → EngineM σ CascadeReport
  | .built code uses => install key code uses
  | .failed diagnostic uses => do
      match (← get).config.failurePolicy with
      | .keepLastGood => keep key diagnostic uses
      | .invalidate => invalidate key uses
      pure { CascadeReport.empty with failures := [⟨key, diagnostic, direct⟩] }
  | .unresolved => drop key

/-- Join the reports of some commands given in turn. -/
def reportEach {Item : Type} (command : Item → EngineM σ CascadeReport) :
    List Item → EngineM σ CascadeReport
  | [] => pure CascadeReport.empty
  | item :: rest => do
      let first ← command item
      let others ← reportEach command rest
      pure (first ++ others)

/-- Build targets, and apply the outcomes in the order of the keys. -/
def buildTargets (targets : Targets) : EngineM σ CascadeReport := do
  let (outcomes, memo) := (← get).inputs.buildAll targets.toList
  modify fun engine => { engine with memo := memo }
  reportEach (fun (key, direct, outcome) => applyOutcome key direct outcome) outcomes

/-! ## Working names out again -/

/--
Work out a name again.  It is affected where it resolves differently than before, and where it
resolves to a definition that has been edited.
-/
def rebuildName (kind : DefinitionKind) (edited : Option DefinitionId) (name : String) :
    EngineM σ Affected := do
  let definitions ← EngineM.ask fun store => Store.definitionsNamed store kind name
  let (scheme, change) :=
    (← get).scheme.rebuildName kind name (DirectDefinitions.ofList definitions)
  modify fun engine => { engine with scheme := scheme }
  let untouched := edited.elim [] ((scheme.map kind).positionsResolvingTo name)
  pure ⟨kind, name, Std.ExtTreeSet.ofList (change.positions ++ untouched)⟩

/--
Change the trees, work out some names again, and bring the artifacts in line with that.
-/
def cascade (kind : DefinitionKind) (names : Std.ExtTreeSet String) (edited : Option DefinitionId)
    (mutate : InheritanceScheme → Except TreeError InheritanceScheme) :
    EngineM σ CascadeReport := do
  let scheme ← EngineM.ofTree (mutate (← get).scheme)
  modify fun engine => { engine with scheme := scheme }
  let affected ← names.toList.mapM (rebuildName kind edited)
  let engine ← get
  buildTargets (plan affected engine.scheme.languages.breadthFirst engine.dependencies)

/-- The names that are defined at some positions. -/
def namesDefinedAt (kind : DefinitionKind) :
    List Position → EngineM σ (Std.ExtTreeSet String)
  | [] => pure ∅
  | position :: rest => do
      let here ← EngineM.ask fun store => Store.definitionsAt store kind position
      let others ← namesDefinedAt kind rest
      pure (others.insertMany (here.map Prod.fst))

/-- The names that resolve at a position. -/
def namesResolvingAt (engine : Engine σ) (kind : DefinitionKind) (position : Position) :
    Std.ExtTreeSet String :=
  Std.ExtTreeSet.ofList (((engine.scheme.map kind).namesAt position).map Prod.fst)

/-- Change one tree of a scheme. -/
def changeTree (kind : TreeKind) (change : PositionTree → Except TreeError PositionTree)
    (scheme : InheritanceScheme) : Except TreeError InheritanceScheme :=
  (change (scheme.tree kind)).map (scheme.withTree kind)

/-! ## What to do when the store has changed -/

/-- A definition of a name at a position is new or has been changed. -/
def definitionChanged (kind : DefinitionKind) (name : String) (position : Position) :
    EngineM σ CascadeReport := do
  let edited ← EngineM.ask fun store => Store.definitionAt store kind name position
  match edited with
  | some id => modify fun engine => { engine with memo := engine.memo.forget id }
  | none => pure ()
  cascade kind (Std.ExtTreeSet.ofList [name]) edited .ok

/-- A definition of a name has been deleted. -/
def definitionDeleted (kind : DefinitionKind) (name : String) : EngineM σ CascadeReport :=
  cascade kind (Std.ExtTreeSet.ofList [name]) none .ok

/--
A position has been moved under a parent.  Only names that are defined above it, where it was or where
it goes, can resolve differently.
-/
def positionMoved (tree : TreeKind) (id parent : Position) : EngineM σ CascadeReport := do
  let positions := (← get).scheme.tree tree
  let old ← EngineM.ofTree (positions.ancestors id)
  let new ← EngineM.ofTree (positions.chain parent)
  let names ← namesDefinedAt tree.defines (old ++ new)
  cascade tree.defines names none
    (changeTree tree fun positions => (positions.setParent id parent).map Prod.fst)

/--
A position has been added under a parent.  Only names that resolve at the parent, or that are defined
at the position, can resolve there.  A new language calls for every template in it.
-/
def positionAdded (tree : TreeKind) (id parent : Position) : EngineM σ CascadeReport := do
  let inherited := (← get).namesResolvingAt tree.defines parent
  let own ← namesDefinedAt tree.defines [id]
  let report ← cascade tree.defines (inherited ∪ own) none
    (changeTree tree fun positions => positions.insert id parent)
  match tree with
  | .style => pure report
  | .language => do
      let scheme := (← get).scheme
      let keys := (scheme.templateKeys id).filter fun key => key.style?.any scheme.styles.contains
      let more ← buildTargets (Targets.direct keys)
      pure (report ++ more)

/-- Whether an artifact is at a position of a tree. -/
def isAt (tree : TreeKind) (id : Position) (key : ArtifactKey) : Bool :=
  match tree with
  | .style => key.style? == some id
  | .language => key.language == id

/--
A position has been removed.  Its artifacts go; its children inherit from its parent, and what it
defined counts no more.
-/
def positionRemoved (tree : TreeKind) (id : Position) : EngineM σ CascadeReport := do
  let engine ← get
  let names := engine.namesResolvingAt tree.defines id
  let dropped ← reportEach drop (engine.cache.keys.filter (isAt tree id))
  let report ← cascade tree.defines names none
    (changeTree tree fun positions => (positions.remove id).map Prod.fst)
  pure (dropped ++ report)

/-- Load everything from the store again, and build every artifact that there should be. -/
def rebuildAll : EngineM σ CascadeReport := do
  match loadScheme (← get).store with
  | .error error => throw error
  | .ok scheme =>
      modify fun engine =>
        { engine with
          scheme := scheme
          dependencies := Dependencies.empty
          memo := ParseMemo.empty }
      let targets := Targets.direct scheme.allKeys
      let unwanted := (← get).cache.keys.filter fun key => !targets.contains key
      let dropped ← reportEach drop unwanted
      let report ← buildTargets targets
      pure (dropped ++ report)

end Engine
end TemplateCascade

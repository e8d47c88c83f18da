import Mathlib
import TemplateCascade.Proofs.Engine.Opening
import TemplateCascade.Proofs.Engine.Reporting

namespace TemplateCascade

/-!
# From single outcomes to all commands

Nothing but the outcome of a build ever changes an artifact, and everything that an engine does besides
leaves the artifacts, the record of their dependencies and the registered functions alone.  So a relation
between states that single outcomes respect, and that does not see anything else, is respected by every
command, whether it succeeds or fails.  A state is an engine with what has been reported up to then, so that
a relation may also speak of reports.

Nothing is asked of the store but that its other operations leave the artifacts alone.  It may fail at any
time.
-/

open Compile (Diagnostic Registry Uses)

namespace CascadeReport

theorem append_assoc (first second third : CascadeReport) :
    first ++ second ++ third = first ++ (second ++ third) := by
  change append (append first second) third = append first (append second third)
  simp only [append, List.append_assoc]

end CascadeReport

/-! ## Stores that keep their artifacts -/

/-- Nothing that may be done to a store besides its artifacts breaks a relation between stores. -/
structure Store.Sparing {σ : Type} [Store σ] (spares : σ → σ → Prop) : Prop where
  refl : ∀ store, spares store store
  put : ∀ {store changed : σ} {kind : DefinitionKind} {position : Position} {name content : String}
    {id : DefinitionId}, Store.put store kind position name content = .ok (changed, id) →
      spares store changed
  delete : ∀ {store changed : σ} {kind : DefinitionKind} {id : DefinitionId} {definition : Definition},
    Store.delete store kind id = .ok (changed, definition) → spares store changed
  putTreeNode : ∀ {store changed : σ} {tree : TreeKind} {node : TreeNode},
    Store.putTreeNode store tree node = .ok changed → spares store changed
  deleteTreeNode : ∀ {store changed : σ} {tree : TreeKind} {id : Position},
    Store.deleteTreeNode store tree id = .ok changed → spares store changed

namespace MemoryStore

variable {store changed : MemoryStore} {kind : DefinitionKind} {position : Position}
  {name content : String} {id : DefinitionId} {definition : Definition} {tree : TreeKind} {node : TreeNode}

theorem artifacts_define (store : MemoryStore) (kind : DefinitionKind) (position : Position)
    (name content : String) : (store.define kind position name content).1.artifacts = store.artifacts := by
  unfold define
  split <;> rfl

theorem artifacts_of_put (stored : Store.put store kind position name content = .ok (changed, id)) :
    changed.artifacts = store.artifacts := by
  change put store kind position name content = _ at stored
  unfold put at stored
  split at stored
  · rw [Except.ok.injEq] at stored
    have same := artifacts_define store kind position name content
    rwa [stored] at same
  · cases stored

theorem artifacts_of_delete (deleted : Store.delete store kind id = .ok (changed, definition)) :
    changed.artifacts = store.artifacts := by
  change delete store kind id = _ at deleted
  unfold delete at deleted
  split at deleted
  · cases deleted
    rfl
  · cases deleted

theorem artifacts_of_putTreeNode (stored : Store.putTreeNode store tree node = .ok changed) :
    changed.artifacts = store.artifacts := by
  cases stored
  exact artifacts_withNodes _ _ _

theorem artifacts_of_deleteTreeNode {id : Position}
    (deleted : Store.deleteTreeNode store tree id = .ok changed) :
    changed.artifacts = store.artifacts := by
  change deleteTreeNode store tree id = _ at deleted
  unfold deleteTreeNode at deleted
  split at deleted
  · cases deleted
    exact artifacts_withNodes _ _ _
  · cases deleted

/-- The artifacts are the same. -/
def KeepsArtifacts (before after : MemoryStore) : Prop :=
  after.artifacts = before.artifacts

theorem sparing_keepsArtifacts : Store.Sparing KeepsArtifacts where
  refl _ := rfl
  put := artifacts_of_put
  delete := artifacts_of_delete
  putTreeNode := artifacts_of_putTreeNode
  deleteTreeNode := artifacts_of_deleteTreeNode

end MemoryStore

/-! ## Outcomes of builds -/

/-- What comes of building something with the functions of a registry, or of having nothing to build. -/
def Outcome.ComesOf (σ : Type) [Store σ] (registry : Registry) (outcome : Outcome) : Prop :=
  outcome = .unresolved ∨
    ∃ (inputs : BuildInputs σ) (key : ArtifactKey), inputs.registry = registry ∧ inputs.build key = outcome

theorem BuildInputs.comesOf_of_mem_buildAll {σ : Type} [Store σ] (inputs : BuildInputs σ)
    (targets : List (ArtifactKey × Bool)) :
    ∀ item ∈ (inputs.buildAll targets).1, item.2.2.ComesOf σ inputs.registry := by
  rw [(inputs.buildAll_eq_map_build targets).1, List.forall_mem_map]
  exact fun target _ => Or.inr ⟨inputs, target.1, rfl, rfl⟩

namespace Edit

/-- The command that carries an edit out, over any store. -/
def commandOn (σ : Type) [Store σ] : Edit → EngineM σ CascadeReport
  | saveTemplate style name source => Engine.saveTemplate style name source
  | savePhrase language name text => Engine.savePhrase language name text
  | deleteDefinition kind name position => Engine.deleteDefinition kind name position
  | addPosition tree id parent => Engine.addPosition tree id parent
  | movePosition tree id parent => Engine.movePosition tree id parent
  | removePosition tree id => Engine.removePosition tree id

theorem command_eq_commandOn (edit : Edit) : edit.command = edit.commandOn MemoryStore := by
  cases edit <;> rfl

end Edit

namespace Engine

/-! ## Relations between states -/

variable {σ : Type}

/-- An engine, and what has been reported so far. -/
abbrev Progress (σ : Type) := Engine σ × CascadeReport

/-- What has come of a command is related to a state.  What a command has reported that fails is lost. -/
def EndsIn {Result : Type} (relation : Progress σ → Progress σ → Prop) (start : Progress σ)
    (reportOf : Result → CascadeReport) : Except EngineError Result × Engine σ → Prop
  | (.ok result, after) => relation start (after, reportOf result)
  | (.error _, after) => ∃ reported, relation start (after, reported)

/-- The states before and after a command are related. -/
def Respects {Result : Type} (relation : Progress σ → Progress σ → Prop) (said : CascadeReport)
    (reportOf : Result → CascadeReport) (command : EngineM σ Result) : Prop :=
  ∀ engine : Engine σ, EndsIn relation (engine, said) reportOf (engine.perform command)

variable {relation : Progress σ → Progress σ → Prop} {start : Progress σ} {Result Other Item : Type}
  {said : CascadeReport} {reportOf : Result → CascadeReport} {otherOf : Other → CascadeReport}

theorem EndsIn.bind {engine : Engine σ} {command : EngineM σ Result} {next : Result → EngineM σ Other}
    (first : EndsIn relation start reportOf (engine.perform command))
    (others : ∀ result after, relation start (after, reportOf result) →
      EndsIn relation start otherOf (after.perform (next result))) :
    EndsIn relation start otherOf (engine.perform (command >>= next)) := by
  rw [perform_bind]
  rcases performed : engine.perform command with ⟨_ | result, after⟩
  · rw [performed] at first
    exact first
  · rw [performed] at first
    exact others result after first

theorem Respects.of_ok {command : EngineM σ Result} {engine after : Engine σ} {result : Result}
    (respects : Respects relation said reportOf command)
    (performed : engine.perform command = (.ok result, after)) :
    relation (engine, said) (after, reportOf result) := by
  have related := respects engine
  rwa [performed] at related

/-- Whatever comes of a command, the state behind it is related to the state before it. -/
theorem Respects.exists_reported {command : EngineM σ Result}
    (respects : Respects relation said reportOf command) (engine : Engine σ) :
    ∃ reported, relation (engine, said) (engine.afterwards command, reported) := by
  have related := respects engine
  rw [afterwards]
  rcases performed : engine.perform command with ⟨_ | result, after⟩
  · rw [performed] at related
    exact related
  · rw [performed] at related
    exact ⟨_, related⟩

/-! ## Relations that single outcomes respect -/

variable [Store σ] {spares : σ → σ → Prop}

/-- At most something besides the artifacts is different. -/
structure Besides (spares : σ → σ → Prop) (before after : Engine σ) : Prop where
  cache_eq : after.cache = before.cache
  dependencies_eq : after.dependencies = before.dependencies
  registry_eq : after.registry = before.registry
  spared : spares before.store after.store

/-- A relation between states that only sees artifacts, their dependencies, the functions and reports, and
that single outcomes respect.  An outcome is applied some time after it has been built. -/
structure Respected (spares : σ → σ → Prop) (relation : Progress σ → Progress σ → Prop) : Prop where
  sparing : Store.Sparing spares
  refl : ∀ state, relation state state
  trans : ∀ {first second third}, relation first second → relation second third → relation first third
  besides : ∀ {before after : Engine σ} (said : CascadeReport), Besides spares before after →
    relation (before, said) (after, said)
  applied : ∀ {built engine : Engine σ} {earlier said : CascadeReport} (key : ArtifactKey)
    (direct : Bool) {outcome : Outcome}, outcome.ComesOf σ built.registry →
    relation (built, earlier) (engine, said) →
      EndsIn relation (built, earlier) (said ++ ·) (engine.perform (applyOutcome key direct outcome))

/-- Applying an outcome does not fail over a store in memory. -/
theorem endsIn_applyOutcome {relation : Progress MemoryStore → Progress MemoryStore → Prop}
    {start : Progress MemoryStore} {engine : Engine MemoryStore} {key : ArtifactKey} {direct : Bool}
    {outcome : Outcome}
    (applied : ∀ report after, engine.perform (applyOutcome key direct outcome) = (.ok report, after) →
      relation start (after, said ++ report)) :
    EndsIn relation start (said ++ ·) (engine.perform (applyOutcome key direct outcome)) := by
  rcases perform_applyOutcome engine key direct outcome with ⟨report, after, performed, _⟩
  rw [performed]
  exact applied report after performed

namespace Respected

variable (respected : Respected spares relation)

include respected

theorem after {state : Progress σ} {outcome : Except EngineError Result × Engine σ}
    (earlier : relation start state) (ends : EndsIn relation state reportOf outcome) :
    EndsIn relation start reportOf outcome := by
  rcases outcome with ⟨_ | result, after⟩
  · rcases ends with ⟨reported, related⟩
    exact ⟨reported, respected.trans earlier related⟩
  · exact respected.trans earlier ends

/-! ## Steps of commands -/

protected theorem pure {result : Result} (reported : reportOf result = said) :
    Respects relation said reportOf (pure result) := by
  intro engine
  change relation (engine, said) (engine, reportOf result)
  rw [reported]
  exact respected.refl _

protected theorem throw (error : EngineError) :
    Respects relation said reportOf (throw error : EngineM σ Result) :=
  fun engine => ⟨said, respected.refl (engine, said)⟩

protected theorem get : Respects relation said (fun _ => said) (get : EngineM σ (Engine σ)) :=
  fun engine => respected.refl (engine, said)

protected theorem withScheme (scheme : InheritanceScheme) : Respects relation said (fun _ => said)
    (modify fun engine => { engine with scheme := scheme } : EngineM σ Unit) :=
  fun engine => respected.besides said ⟨rfl, rfl, rfl, respected.sparing.refl engine.store⟩

protected theorem withMemo (change : Markup.ParseMemo → Markup.ParseMemo) :
    Respects relation said (fun _ => said)
      (modify fun engine => { engine with memo := change engine.memo } : EngineM σ Unit) :=
  fun engine => respected.besides said ⟨rfl, rfl, rfl, respected.sparing.refl engine.store⟩

protected theorem bind {command : EngineM σ Result} {next : Result → EngineM σ Other}
    (first : Respects relation said reportOf command)
    (others : ∀ result, Respects relation (reportOf result) otherOf (next result)) :
    Respects relation said otherOf (command >>= next) :=
  fun engine => (first engine).bind fun result after related =>
    respected.after related (others result after)

protected theorem ofTree (result : Except TreeError Result) :
    Respects relation said (fun _ => said) (EngineM.ofTree result : EngineM σ Result) := by
  cases result with
  | error error => exact respected.throw (.tree error)
  | ok result => exact respected.pure rfl

protected theorem ofStore (result : Except StoreError Result) :
    Respects relation said (fun _ => said) (EngineM.ofStore result : EngineM σ Result) := by
  cases result with
  | error error => exact respected.throw (.store error)
  | ok result => exact respected.pure rfl

protected theorem ask (question : σ → Except StoreError Result) :
    Respects relation said (fun _ => said) (EngineM.ask question) :=
  respected.bind respected.get fun _ => respected.ofStore _

/-- The store may be changed where it keeps its artifacts. -/
protected theorem tellFor {change : σ → Except StoreError (σ × Result)}
    (keeps : ∀ store changed result, change store = .ok (changed, result) → spares store changed) :
    Respects relation said (fun _ => said) (EngineM.tellFor change) := by
  intro engine
  cases changed : change engine.store with
  | error error =>
      rw [perform_tellFor_error engine changed]
      exact ⟨said, respected.refl _⟩
  | ok both =>
      rw [perform_tellFor_ok engine changed]
      exact respected.besides said ⟨rfl, rfl, rfl, keeps _ _ _ changed⟩

protected theorem tell {change : σ → Except StoreError σ}
    (keeps : ∀ store changed, change store = .ok changed → spares store changed) :
    Respects relation said (fun _ => said) (EngineM.tell change) := by
  intro engine
  cases changed : change engine.store with
  | error error =>
      rw [perform_tell_error engine changed]
      exact ⟨said, respected.refl _⟩
  | ok store =>
      rw [perform_tell_ok engine changed]
      exact respected.besides said ⟨rfl, rfl, rfl, keeps _ _ changed⟩

protected theorem mapM {command : Item → EngineM σ Result}
    (each : ∀ item, Respects relation said (fun _ => said) (command item)) (items : List Item) :
    Respects relation said (fun _ => said) (items.mapM command) := by
  induction items with
  | nil => exact respected.pure rfl
  | cons item rest inductionHypothesis =>
      rw [List.mapM_cons]
      exact respected.bind (each item) fun _ => respected.bind inductionHypothesis fun _ =>
        respected.pure rfl

protected theorem forM {command : Item → EngineM σ Unit}
    (each : ∀ item, Respects relation said (fun _ => said) (command item)) (items : List Item) :
    Respects relation said (fun _ => said) (items.forM command) := by
  induction items with
  | nil => exact respected.pure rfl
  | cons item rest inductionHypothesis => exact respected.bind (each item) fun _ => inductionHypothesis

protected theorem reportEach {command : Item → EngineM σ CascadeReport}
    (each : ∀ said item, Respects relation said (said ++ ·) (command item)) (items : List Item) :
    ∀ said, Respects relation said (said ++ ·) (reportEach command items) := by
  induction items with
  | nil => exact fun said => respected.pure (said.append_empty)
  | cons item rest inductionHypothesis =>
      intro said
      refine respected.bind (each said item) fun first => ?_
      refine respected.bind (inductionHypothesis (said ++ first)) fun others => ?_
      exact respected.pure (said.append_assoc first others).symm

/-! ## Outcomes and cascades -/

protected theorem drop (said : CascadeReport) (key : ArtifactKey) :
    Respects relation said (said ++ ·) (drop (σ := σ) key) :=
  fun _ => respected.applied key false (Or.inl rfl) (respected.refl _)

/-- Outcomes that have been built in one state are applied one after the other. -/
protected theorem applyEach {built : Engine σ} {earlier : CascadeReport}
    (outcomes : List (ArtifactKey × Bool × Outcome))
    (come : ∀ item ∈ outcomes, item.2.2.ComesOf σ built.registry) :
    ∀ (engine : Engine σ) (said : CascadeReport), relation (built, earlier) (engine, said) →
      EndsIn relation (built, earlier) (said ++ ·) (engine.perform
        (reportEach (fun (key, direct, outcome) => applyOutcome key direct outcome) outcomes)) := by
  induction outcomes with
  | nil =>
      intro engine said related
      change relation (built, earlier) (engine, said ++ .empty)
      rwa [said.append_empty]
  | cons item rest inductionHypothesis =>
      intro engine said related
      have come := List.forall_mem_cons.mp come
      rcases item with ⟨key, direct, outcome⟩
      refine (respected.applied key direct come.1 related).bind fun first between reached => ?_
      refine (inductionHypothesis come.2 between (said ++ first) reached).bind fun others after reached => ?_
      change relation (built, earlier) (after, said ++ (first ++ others))
      rwa [← said.append_assoc]

protected theorem buildTargets (said : CascadeReport) (targets : Targets) :
    Respects relation said (said ++ ·) (buildTargets (σ := σ) targets) := by
  intro engine
  have come := engine.inputs.comesOf_of_mem_buildAll targets.toList
  have built : engine.perform (buildTargets targets) =
      { engine with memo := (engine.inputs.buildAll targets.toList).2 }.perform
        (reportEach (fun (key, direct, outcome) => applyOutcome key direct outcome)
          (engine.inputs.buildAll targets.toList).1) := by
    rw [buildTargets, perform_bind_ok engine (perform_get engine)]
    rfl
  rw [built]
  refine respected.applyEach _ come _ said ?_
  exact respected.besides said ⟨rfl, rfl, rfl, respected.sparing.refl engine.store⟩

protected theorem rebuildName (kind : DefinitionKind) (edited : Option DefinitionId) (name : String) :
    Respects relation said (fun _ => said) (rebuildName (σ := σ) kind edited name) := by
  refine respected.bind (respected.ask _) fun definitions => respected.bind respected.get fun engine => ?_
  rcases engine.scheme.rebuildName kind name (DirectDefinitions.ofList definitions) with ⟨scheme, change⟩
  exact respected.bind (respected.withScheme scheme) fun _ => respected.pure rfl

protected theorem cascade (said : CascadeReport) (kind : DefinitionKind) (names : Std.ExtTreeSet String)
    (edited : Option DefinitionId) (mutate : InheritanceScheme → Except TreeError InheritanceScheme) :
    Respects relation said (said ++ ·) (cascade (σ := σ) kind names edited mutate) := by
  refine respected.bind respected.get fun _ => respected.bind (respected.ofTree _) fun scheme => ?_
  refine respected.bind (respected.withScheme scheme) fun _ => ?_
  refine respected.bind (respected.mapM (respected.rebuildName kind edited) _) fun _ => ?_
  exact respected.bind respected.get fun _ => respected.buildTargets said _

protected theorem namesDefinedAt (kind : DefinitionKind) (positions : List Position) :
    Respects relation said (fun _ => said) (namesDefinedAt (σ := σ) kind positions) := by
  induction positions with
  | nil => exact respected.pure rfl
  | cons position rest inductionHypothesis =>
      exact respected.bind (respected.ask _) fun _ => respected.bind inductionHypothesis fun _ =>
        respected.pure rfl

/-! ## When the store has changed -/

protected theorem forget (id : DefinitionId) : Respects relation said (fun _ => said)
    (modify fun engine => { engine with memo := engine.memo.forget id } : EngineM σ Unit) :=
  respected.withMemo fun memo => memo.forget id

protected theorem definitionChanged (said : CascadeReport) (kind : DefinitionKind) (name : String)
    (position : Position) : Respects relation said (said ++ ·) (definitionChanged kind name position) := by
  refine respected.bind (respected.ask _) fun edited => ?_
  cases edited with
  | none => exact respected.cascade said _ _ _ _
  | some id => exact respected.bind (respected.forget id) fun _ => respected.cascade said _ _ _ _

protected theorem definitionDeleted (said : CascadeReport) (kind : DefinitionKind) (name : String) :
    Respects relation said (said ++ ·) (definitionDeleted kind name) :=
  respected.cascade said _ _ _ _

protected theorem positionMoved (said : CascadeReport) (tree : TreeKind) (id parent : Position) :
    Respects relation said (said ++ ·) (positionMoved tree id parent) := by
  refine respected.bind respected.get fun _ => respected.bind (respected.ofTree _) fun _ => ?_
  refine respected.bind (respected.ofTree _) fun _ => ?_
  exact respected.bind (respected.namesDefinedAt _ _) fun _ => respected.cascade said _ _ _ _

protected theorem positionAdded (said : CascadeReport) (tree : TreeKind) (id parent : Position) :
    Respects relation said (said ++ ·) (positionAdded tree id parent) := by
  refine respected.bind respected.get fun _ => respected.bind (respected.namesDefinedAt _ _) fun _ => ?_
  refine respected.bind (respected.cascade said _ _ _ _) fun report => ?_
  cases tree with
  | style => exact respected.pure rfl
  | language =>
      refine respected.bind respected.get fun _ => ?_
      refine respected.bind (respected.buildTargets (said ++ report) _) fun more => ?_
      exact respected.pure (said.append_assoc report more).symm

protected theorem positionRemoved (said : CascadeReport) (tree : TreeKind) (id : Position) :
    Respects relation said (said ++ ·) (positionRemoved tree id) := by
  refine respected.bind respected.get fun _ => ?_
  refine respected.bind (respected.reportEach respected.drop _ said) fun dropped => ?_
  refine respected.bind (respected.cascade (said ++ dropped) _ _ _ _) fun report => ?_
  exact respected.pure (said.append_assoc dropped report).symm

/-! ## Edits -/

protected theorem isUnchanged (kind : DefinitionKind) (name : String) (position : Position) (content : String) :
    Respects relation said (fun _ => said)
      (isUnchanged (σ := σ) kind name position content) := by
  refine respected.bind (respected.ask _) fun owned => ?_
  cases owned with
  | none => exact respected.pure rfl
  | some id => exact respected.bind (respected.ask _) fun _ => respected.pure rfl

protected theorem define (said : CascadeReport) (kind : DefinitionKind) (position : Position)
    (name content : String) : Respects relation said (said ++ ·) (define kind position name content) :=
  respected.bind (respected.tellFor fun _ _ _ => respected.sparing.put) fun _ =>
    respected.definitionChanged said _ _ _

protected theorem validateTemplate (name source : String) (style : Position) :
    Respects relation said (fun _ => said) (validateTemplate (σ := σ) name source style) := by
  refine respected.bind respected.get fun engine => ?_
  rcases engine.inputs.validate name source style with ⟨diagnostics, memo⟩
  exact respected.bind (respected.withMemo fun _ => memo) fun _ => respected.pure rfl

protected theorem checkTemplate (name source : String) (style : Position) :
    Respects relation said (fun _ => said) (checkTemplate (σ := σ) name source style) := by
  refine respected.bind respected.get fun engine => ?_
  split
  · refine respected.bind (respected.validateTemplate name source style) fun diagnostics => ?_
    split
    · exact respected.throw _
    · exact respected.pure rfl
  · exact respected.pure rfl

protected theorem deleteStored (kind : DefinitionKind) (id : DefinitionId) :
    Respects relation said (fun _ => said) (deleteStored kind id) :=
  respected.bind (respected.tellFor fun _ _ _ => respected.sparing.delete) fun _ =>
    respected.forget id

protected theorem storeNodes (tree : TreeKind) (tops : List Position) :
    Respects relation said (fun _ => said) (storeNodes tree tops) := by
  refine respected.bind respected.get fun _ => respected.forM (fun node => ?_) _
  exact respected.tell fun _ _ => respected.sparing.putTreeNode

protected theorem addPosition (said : CascadeReport) (tree : TreeKind) (id parent : Position) :
    Respects relation said (said ++ ·) (addPosition tree id parent) := by
  have adds : ∀ positions : PositionTree, Respects relation said (said ++ ·) (do
      let _ ← EngineM.ofTree (positions.ancestors parent)
      EngineM.tell fun store : σ => Store.putTreeNode store tree ⟨id, some parent, []⟩
      Engine.positionAdded tree id parent) := by
    intro positions
    refine respected.bind (respected.ofTree _) fun _ => ?_
    refine respected.bind (respected.tell fun _ _ => respected.sparing.putTreeNode) fun _ => ?_
    exact respected.positionAdded said tree id parent
  refine respected.bind respected.get fun engine => ?_
  dsimp only
  split
  · have refused : Respects relation said (fun _ => said) (throw _ : EngineM σ PUnit) :=
      respected.throw (.tree (.duplicatePosition tree id))
    exact respected.bind refused fun _ => adds _
  · exact adds _

protected theorem movePosition (said : CascadeReport) (tree : TreeKind) (id parent : Position) :
    Respects relation said (said ++ ·) (movePosition tree id parent) := by
  refine respected.bind (respected.positionMoved said tree id parent) fun report => ?_
  exact respected.bind (respected.storeNodes _ _) fun _ => respected.pure rfl

protected theorem removePosition (said : CascadeReport) (tree : TreeKind) (id : Position) :
    Respects relation said (said ++ ·) (removePosition tree id) := by
  refine respected.bind respected.get fun _ => respected.bind (respected.ofTree _) fun _ => ?_
  refine respected.bind (respected.ask _) fun owned => ?_
  refine respected.bind (respected.forM (fun _ => respected.deleteStored _ _) owned) fun _ => ?_
  refine respected.bind (respected.positionRemoved said tree id) fun report => ?_
  refine respected.bind (respected.tell fun _ _ => respected.sparing.deleteTreeNode) fun _ => ?_
  exact respected.bind (respected.storeNodes tree _) fun _ => respected.pure rfl

/-- Every edit respects what single outcomes respect. -/
protected theorem edit (said : CascadeReport) (edit : Edit) :
    Respects relation said (said ++ ·) (edit.commandOn σ) := by
  cases edit with
  | saveTemplate style name source =>
      refine respected.bind (respected.isUnchanged _ _ _ _) fun unchanged => ?_
      split
      · exact respected.pure said.append_empty
      · exact respected.bind (respected.checkTemplate _ _ _) fun _ => respected.define said _ _ _ _
  | savePhrase language name text =>
      refine respected.bind (respected.isUnchanged _ _ _ _) fun unchanged => ?_
      split
      · exact respected.pure said.append_empty
      · exact respected.define said _ _ _ _
  | deleteDefinition kind name position =>
      refine respected.bind (respected.ask _) fun owned => ?_
      cases owned with
      | none => exact respected.throw _
      | some id =>
          exact respected.bind (respected.deleteStored kind id) fun _ =>
            respected.definitionDeleted said _ _
  | addPosition tree id parent => exact respected.addPosition said tree id parent
  | movePosition tree id parent => exact respected.movePosition said tree id parent
  | removePosition tree id => exact respected.removePosition said tree id

/-- So does a rebuilding, if forgetting what has been derived is respected. -/
protected theorem rebuildAll (reloaded : ∀ (engine : Engine σ) (scheme : InheritanceScheme),
      relation (engine, said) ({ engine with
        scheme := scheme
        dependencies := Dependencies.empty
        memo := Markup.ParseMemo.empty }, said)) :
    Respects relation said (said ++ ·) (rebuildAll (σ := σ)) := by
  refine respected.bind respected.get fun engine => ?_
  rcases loaded : loadScheme engine.store with error | scheme
  · exact respected.throw error
  · have emptied : Respects relation said (fun _ => said) (modify fun engine => { engine with
        scheme := scheme
        dependencies := Dependencies.empty
        memo := Markup.ParseMemo.empty } : EngineM σ Unit) := fun engine => reloaded engine scheme
    refine respected.bind emptied fun _ => ?_
    refine respected.bind respected.get fun _ => ?_
    refine respected.bind (respected.reportEach respected.drop _ said) fun dropped => ?_
    refine respected.bind (respected.buildTargets (said ++ dropped) _) fun report => ?_
    exact respected.pure (said.append_assoc dropped report).symm

end Respected

end Engine
end TemplateCascade

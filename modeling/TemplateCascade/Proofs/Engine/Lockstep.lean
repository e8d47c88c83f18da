import Mathlib
import TemplateCascade.Proofs.Engine.Agreement
import TemplateCascade.Proofs.Engine.Bookkeeping
import TemplateCascade.Proofs.Engine.Observing

namespace TemplateCascade

/-!
# Three records of the artifacts

What artifacts there are is kept three times: in use, in the store, and as a record of what each depends on,
which is listed by name as well.  Whatever an engine is told to do, also where it fails, these stay in line
with each other.  Neither the trees nor the names play a part in it, so the definitions and the nodes in the
store may have been changed by others, rightly or wrongly, before the engine is told.

Applying an outcome keeps the three in line, and so does everything that is put together from that.  A
rebuilding is another matter: it empties the record first, and then visits every key that is in use.
-/

open Compile (Registry)

namespace Engine

variable {engine before after : Engine MemoryStore} {key : ArtifactKey}

/-! ## Being in line -/

/-- The artifacts are stored as they are in use, and each is on record with what it depends on. -/
structure Aligned (engine : Engine MemoryStore) : Prop where
  backed : engine.Backed
  recordedAt : ∀ key, engine.RecordedAt key

/-- Only the artifacts and the record of their dependencies matter. -/
theorem Aligned.of_holdsAs (aligned : before.Aligned) (same : HoldsAs before after)
    (stored : after.store.artifacts = before.store.artifacts) : after.Aligned := by
  refine ⟨⟨?_, ?_, ?_⟩, fun key => ?_⟩
  · rw [stored, same.cache_eq]
    exact aligned.backed.stored
  · rw [same.cache_eq]
    exact aligned.backed.keyed
  · rw [same.dependencies_eq]
    exact aligned.backed.consistent
  · exact (same.spared key).recordedAt (aligned.recordedAt key)

/-- An engine that is opened is in line, whatever its store holds besides artifacts. -/
theorem aligned_of_ofStore {config : Config} {registry : Registry} {store : MemoryStore}
    (keyed : ∀ (key : ArtifactKey) (artifact : Artifact), store.artifacts[key]? = some artifact →
      artifact.key = key)
    (isOpened : ofStore config registry store = .ok engine) : engine.Aligned := by
  rcases exists_of_ofStore isOpened with ⟨_, _, _, ⟨⟩, rfl⟩
  have restored := restore_values keyed
  have held : ∀ key, (ArtifactCache.empty.restore store.artifacts.values).get? key =
      store.artifacts[key]? := by
    intro key
    rw [ArtifactCache.get?, restored]
  refine ⟨⟨restored.symm, fun key artifact found => ?_, consistent_dependenciesOf _⟩,
    fun key artifact found => ?_⟩
  · exact keyed key artifact ((held key).symm.trans found)
  · have recorded := usesOf?_dependenciesOf keyed key
    rw [(held key).symm.trans found] at recorded
    exact recorded

/-! ## Commands -/

/-- The outcome of a build is applied to all three records of its key, and to no other key. -/
theorem aligned_of_applied {direct : Bool} {outcome : Outcome} {report : CascadeReport}
    (performed : engine.perform (applyOutcome key direct outcome) = (.ok report, after))
    (aligned : engine.Aligned) : after.Aligned := by
  rcases perform_applyOutcome engine key direct outcome with ⟨_, _, again, settling⟩
  cases performed.symm.trans again
  have pass := pass_applyOutcome engine performed
  refine ⟨settling.backed aligned.backed, fun other => ?_⟩
  by_cases same : other = key
  · exact (pass.fate other outcome (if_pos same)).recordedAt
  · exact (pass.spared other (if_neg same)).recordedAt (aligned.recordedAt other)

theorem respected_aligned :
    Respected MemoryStore.KeepsArtifacts fun first second => first.1.Aligned → second.1.Aligned where
  sparing := MemoryStore.sparing_keepsArtifacts
  refl _ aligned := aligned
  trans first second aligned := second (first aligned)
  besides _ besides aligned :=
    aligned.of_holdsAs ⟨besides.cache_eq, besides.dependencies_eq⟩ besides.spared
  applied _ _ _ _ onwards := endsIn_applyOutcome fun _ _ performed aligned =>
    aligned_of_applied performed (onwards aligned)

/-- Rebuilding starts from an empty record, and then visits every key that is in use or should be. -/
theorem aligned_of_rebuildAll (aligned : engine.Aligned) : (engine.afterwards rebuildAll).Aligned := by
  rw [afterwards]
  rcases loaded : loadScheme engine.store with error | scheme
  · rw [perform_rebuildAll_error loaded]
    exact aligned
  · rcases perform_rebuildAll loaded with ⟨dropped, middle, isDropped, settlingFirst, whole⟩
    rcases perform_buildTargets middle (Targets.direct scheme.allKeys) with
      ⟨report, last, built, settling⟩
    rw [whole built]
    have emptied : (engine.reloaded scheme).Backed :=
      ⟨aligned.backed.stored, aligned.backed.keyed, Dependencies.consistent_empty⟩
    have sound : middle.memo.Sound middle.store := by
      have before := settlingFirst.sound (Markup.ParseMemo.sound_empty engine.store)
      refine before.of_definitions fun id definition stored => ?_
      rwa [MemoryStore.definition?, settlingFirst.definitions_eq] at stored
    have distinct : (engine.unwanted scheme).Nodup := (nodup_keys engine.cache.artifacts).filter _
    have dropping := pass_dropAll (engine.reloaded scheme) distinct isDropped
    have building := pass_buildTargets middle sound built
    exact ⟨settling.backed (settlingFirst.backed emptied), recordedAt_of_passes dropping building⟩

/-! ## Everything that an engine can be told -/

/-- What an engine can be told that changes artifacts. -/
inductive Call where
  | rebuildAll
  | definitionChanged (kind : DefinitionKind) (name : String) (position : Position)
  | definitionDeleted (kind : DefinitionKind) (name : String)
  | positionMoved (tree : TreeKind) (id parent : Position)
  | positionAdded (tree : TreeKind) (id parent : Position)
  | positionRemoved (tree : TreeKind) (id : Position)
  | edit (change : Edit)
deriving DecidableEq, Repr

/-- The command of a call. -/
def Call.command : Call → EngineM MemoryStore CascadeReport
  | rebuildAll => Engine.rebuildAll
  | definitionChanged kind name position => Engine.definitionChanged kind name position
  | definitionDeleted kind name => Engine.definitionDeleted kind name
  | positionMoved tree id parent => Engine.positionMoved tree id parent
  | positionAdded tree id parent => Engine.positionAdded tree id parent
  | positionRemoved tree id => Engine.positionRemoved tree id
  | edit change => change.command

theorem aligned_of_call (aligned : engine.Aligned) (call : Call) :
    (engine.afterwards call.command).Aligned := by
  have passes : ∀ {command : EngineM MemoryStore CascadeReport} {reportOf : CascadeReport → CascadeReport},
      Respects (fun first second => first.1.Aligned → second.1.Aligned) .empty reportOf command →
      (engine.afterwards command).Aligned := by
    intro command reportOf respects
    rcases respects.exists_reported engine with ⟨_, related⟩
    exact related aligned
  cases call with
  | rebuildAll => exact aligned_of_rebuildAll aligned
  | definitionChanged kind name position =>
      exact passes (respected_aligned.definitionChanged _ kind name position)
  | definitionDeleted kind name => exact passes (respected_aligned.definitionDeleted _ kind name)
  | positionMoved tree id parent => exact passes (respected_aligned.positionMoved _ tree id parent)
  | positionAdded tree id parent => exact passes (respected_aligned.positionAdded _ tree id parent)
  | positionRemoved tree id => exact passes (respected_aligned.positionRemoved _ tree id)
  | edit change => exact passes (change.command_eq_commandOn ▸ respected_aligned.edit _ change)

/-- The engines that come about by opening, by calls in any order, whatever comes of them, and by opening
again.  Others may write to the store in between, as long as they leave its artifacts alone. -/
inductive Told : Engine MemoryStore → Prop where
  | opened {config : Config} {registry : Registry} {store : MemoryStore} {engine : Engine MemoryStore}
      (constructed : store.Constructed) (isOpened : ofStore config registry store = .ok engine) :
      Told engine
  | reopened {config : Config} {registry : Registry} {before engine : Engine MemoryStore}
      (told : Told before) (isOpened : ofStore config registry before.store = .ok engine) : Told engine
  | called {before after : Engine MemoryStore} {call : Call}
      {outcome : Except EngineError CascadeReport} (told : Told before)
      (performed : before.perform call.command = (outcome, after)) : Told after
  | rewritten {before : Engine MemoryStore} {store : MemoryStore} (told : Told before)
      (kept : store.artifacts = before.store.artifacts) : Told { before with store := store }

theorem Told.afterCall (told : Told engine) (call : Call) : Told (engine.afterwards call.command) :=
  .called told rfl

theorem Told.aligned (told : Told engine) : engine.Aligned := by
  induction told with
  | opened constructed isOpened => exact aligned_of_ofStore constructed.wellFormed.artifact_key isOpened
  | reopened told isOpened inductionHypothesis =>
      refine aligned_of_ofStore (fun key artifact found => ?_) isOpened
      rw [inductionHypothesis.backed.stored] at found
      exact inductionHypothesis.backed.keyed key artifact found
  | @called before after call outcome told performed inductionHypothesis =>
      have kept := aligned_of_call inductionHypothesis call
      rwa [afterwards, performed] at kept
  | rewritten told kept inductionHypothesis => exact inductionHypothesis.of_holdsAs ⟨rfl, rfl⟩ kept

/-- What is stored is what is in use, and every artifact is listed under the names that it depends on and
under no others. -/
structure InLockstep (engine : Engine MemoryStore) : Prop where
  artifacts_eq : engine.store.artifacts = engine.cache.artifacts
  keyed : ∀ key artifact, engine.artifact? key = some artifact → artifact.key = key
  usesOf?_eq : ∀ key artifact, engine.artifact? key = some artifact →
    engine.dependencies.usesOf? key = some artifact.uses
  mem_includersOf : ∀ key artifact name, engine.artifact? key = some artifact →
    (key ∈ engine.dependencies.includersOf name ↔ name ∈ artifact.uses.includes)
  mem_phraseUsersOf : ∀ key artifact name, engine.artifact? key = some artifact →
    (key ∈ engine.dependencies.phraseUsersOf name ↔ name ∈ artifact.uses.phrases)

theorem Aligned.inLockstep (aligned : engine.Aligned) : engine.InLockstep where
  artifacts_eq := aligned.backed.stored
  keyed := aligned.backed.keyed
  usesOf?_eq := aligned.recordedAt
  mem_includersOf key artifact name holds := by
    rw [Dependencies.includersOf, Std.ExtTreeSet.mem_toList, aligned.backed.consistent.includers_iff,
      aligned.recordedAt key artifact holds]
    simp
  mem_phraseUsersOf key artifact name holds := by
    rw [Dependencies.phraseUsersOf, Std.ExtTreeSet.mem_toList,
      aligned.backed.consistent.phraseUsers_iff, aligned.recordedAt key artifact holds]
    simp

/-- Whatever an engine has been told, its three records say the same. -/
theorem inLockstep_of_told (told : Told engine) : engine.InLockstep :=
  told.aligned.inLockstep

/-! ## A header that somebody else spoils -/

/-- The header of the page has been changed behind the engine's back, so that it cannot be built. -/
def spoiledPage : Engine MemoryStore :=
  { headedPage with
    store := (headedPage.store.define .template rootPosition "header" "\x7bnope()\x7d").1 }

/-- The engine has been told, and holds a page that is not current. -/
def outdatedPage : Engine MemoryStore :=
  spoiledPage.afterwards (Call.definitionChanged .template "header" rootPosition).command

def outdatedReopened : Engine MemoryStore :=
  (openedOver outdatedPage.config outdatedPage.store).get (by decide +kernel)

theorem told_outdatedReopened : Told outdatedReopened := by
  have opened : Told openedPage := .opened constructed_pageStore ofStore_pageStore
  have headed : Told headedPage := (opened.afterCall .rebuildAll).afterCall (.edit saveHeader)
  have spoiled : Told spoiledPage := .rewritten headed (MemoryStore.artifacts_define _ _ _ _ _)
  have outdated : Told outdatedPage :=
    spoiled.afterCall (.definitionChanged .template "header" rootPosition)
  exact .reopened outdated (ofStore_of_openedOver (Option.some_get _).symm)

/-- A page that is kept as it was is still listed under its header, also when the store is opened again. -/
theorem inLockstep_outdatedReopened :
    Told outdatedReopened ∧ outdatedReopened.InLockstep ∧
      ((outdatedReopened.artifact? pageKey).map Artifact.isStale) = some true ∧
      outdatedReopened.dependencies.includersOf "header" = [pageKey] :=
  ⟨told_outdatedReopened, inLockstep_of_told told_outdatedReopened, by decide +kernel,
    by decide +kernel⟩

end Engine
end TemplateCascade

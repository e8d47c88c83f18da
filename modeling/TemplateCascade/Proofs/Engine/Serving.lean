import Mathlib
import TemplateCascade.Proofs.Compile.Normalizing
import TemplateCascade.Proofs.Engine.Lockstep
import TemplateCascade.Proofs.Render.Failing
import TemplateCascade.Store.Refusing

namespace TemplateCascade

/-!
# Code that is served

Every artifact that an engine over the built-in functions ever holds has code in normal form.  Whatever is
built has been compiled with all that it includes, and no command puts anything else into the cache: an
artifact that goes stale keeps its code.

This does not depend on the cache and the store being in line with each other.  So the store may be any that
makes no artifacts up, and may fail at any time.  What it holds is in normal form by the same reason, and is
all that an engine finds when it is opened again.
-/

open Compile (Diagnostic Registry Uses)

/-! ## Stores that make nothing up -/

/-- Which artifacts a store holds.  It hands out no others, and it holds none that it has not been given. -/
structure Store.Custody (σ : Type) [Store σ] where
  holds : σ → Artifact → Prop
  handedOut : ∀ {store : σ} {artifacts : List Artifact}, Store.artifacts store = .ok artifacts →
    ∀ artifact ∈ artifacts, holds store artifact
  replaced : ∀ {store changed : σ} {given : Artifact}, Store.replaceArtifact store given = .ok changed →
    ∀ artifact, holds changed artifact → artifact = given ∨ holds store artifact
  removed : ∀ {store changed : σ} {key : ArtifactKey}, Store.removeArtifact store key = .ok changed →
    ∀ artifact, holds changed artifact → holds store artifact
  sparing : Store.Sparing fun before after : σ => ∀ artifact, holds after artifact → holds before artifact

/-- A store in memory holds the artifacts of its table. -/
def MemoryStore.custody : Store.Custody MemoryStore where
  holds store artifact := ∃ key : ArtifactKey, store.artifacts[key]? = some artifact
  handedOut := by
    rintro store _ ⟨⟩ artifact member
    exact mem_values.mp member
  replaced := by
    rintro store _ given ⟨⟩ artifact ⟨key, found⟩
    rw [getElem?_insert_eq] at found
    split at found
    · exact Or.inl (Option.some.inj found).symm
    · exact Or.inr ⟨key, found⟩
  removed := by
    rintro store _ removed ⟨⟩ artifact ⟨key, found⟩
    rw [Std.ExtTreeMap.getElem?_erase] at found
    split at found
    · cases found
    · exact ⟨key, found⟩
  sparing :=
    { refl := fun _ _ => id
      put := fun stored _ => by rw [artifacts_of_put stored]; exact id
      delete := fun deleted _ => by rw [artifacts_of_delete deleted]; exact id
      putTreeNode := fun stored _ => by rw [artifacts_of_putTreeNode stored]; exact id
      deleteTreeNode := fun deleted _ => by rw [artifacts_of_deleteTreeNode deleted]; exact id }

namespace RefusingStore

variable {σ Result : Type} {refusing after : RefusingStore σ} {operation : StoreOperation}

theorem of_attempt {result : Except StoreError Result} {value : Result}
    (attempted : refusing.attempt operation result = .ok value) : result = .ok value := by
  unfold attempt at attempted
  split at attempted
  · cases attempted
  · exact attempted

/-- What is not refused has been done by the store behind. -/
theorem of_change {result : Except StoreError σ} (changed : refusing.change operation result = .ok after) :
    result = .ok after.store := by
  unfold change at changed
  rcases exists_of_map_eq_ok changed with ⟨store, attempted, rfl⟩
  exact of_attempt attempted

theorem of_changeWith {result : Except StoreError (σ × Result)} {value : Result}
    (changed : refusing.changeWith operation result = .ok (after, value)) :
    result = .ok (after.store, value) := by
  unfold changeWith at changed
  rcases exists_of_map_eq_ok changed with ⟨⟨store, given⟩, attempted, same⟩
  cases same
  exact of_attempt attempted

/-- A store that refuses operations holds what the store behind it holds. -/
def custody [Store σ] (behind : Store.Custody σ) : Store.Custody (RefusingStore σ) where
  holds refusing artifact := behind.holds refusing.store artifact
  handedOut found := behind.handedOut (of_attempt found)
  replaced changed := behind.replaced (of_change changed)
  removed changed := behind.removed (of_change changed)
  sparing :=
    { refl := fun store => behind.sparing.refl store.store
      put := fun stored => behind.sparing.put (of_changeWith stored)
      delete := fun deleted => behind.sparing.delete (of_changeWith deleted)
      putTreeNode := fun stored => behind.sparing.putTreeNode (of_change stored)
      deleteTreeNode := fun deleted => behind.sparing.deleteTreeNode (of_change deleted) }

end RefusingStore

/-! ## Code in the cache -/

namespace ArtifactCache

variable {cache : ArtifactCache} {key : ArtifactKey}

/-- The code of every artifact is in normal form. -/
def InNormalForm (cache : ArtifactCache) : Prop :=
  ∀ key artifact, cache.get? key = some artifact → artifact.code.InNormalForm

/-- An artifact is entered under its key, or in place of another one. -/
theorem InNormalForm.insert (normal : cache.InNormalForm) {artifact : Artifact}
    (code : artifact.code.InNormalForm) {changed : ArtifactCache}
    (entered : changed.artifacts = cache.artifacts.insert key artifact) : changed.InNormalForm := by
  intro other found isFound
  rw [get?, entered, getElem?_insert_eq] at isFound
  split at isFound
  · exact Option.some.inj isFound ▸ code
  · exact normal other found isFound

theorem InNormalForm.remove (normal : cache.InNormalForm) (key : ArtifactKey) :
    (cache.remove key).1.InNormalForm := by
  intro other found isFound
  cases held : cache.get? key with
  | none =>
      rw [remove_of_absent held] at isFound
      exact normal other found isFound
  | some artifact =>
      rw [remove_of_held held, get?, Std.ExtTreeMap.getElem?_erase] at isFound
      split at isFound
      · cases isFound
      · exact normal other found isFound

/-- An artifact that goes stale keeps its code. -/
theorem InNormalForm.markStale (normal : cache.InNormalForm) (key : ArtifactKey)
    (diagnostic : Diagnostic) (uses : Uses) :
    (cache.markStale key diagnostic uses).1.InNormalForm ∧
      ∀ stale, (cache.markStale key diagnostic uses).2 = some stale → stale.code.InNormalForm := by
  cases held : cache.get? key with
  | none =>
      rw [markStale_of_absent held]
      exact ⟨normal, nofun⟩
  | some previous =>
      have code : (aged previous diagnostic uses).code.InNormalForm := normal key previous held
      rw [markStale_of_held held]
      refine ⟨normal.insert code rfl, ?_⟩
      rintro _ ⟨⟩
      exact code

theorem inNormalForm_restore {artifacts : List Artifact}
    (normal : ∀ artifact ∈ artifacts, artifact.code.InNormalForm) :
    (empty.restore artifacts).InNormalForm := by
  intro key artifact found
  rcases foldl_insert_eq_some found with ⟨item, member, _, rfl⟩ | ⟨_, nothing⟩
  · exact normal item member
  · cases nothing

end ArtifactCache

/-! ## Code that is built -/

namespace BuildInputs

variable {σ : Type} [Store σ] {inputs : BuildInputs σ}

theorem inNormalForm_of_compileTree (builtIn : inputs.registry = Registry.builtIn)
    {style language : Position} {name : String} {tree : Markup.Template} {code : Code} {uses : Uses}
    (built : inputs.compileTree style language name tree = .built code uses) : code.InNormalForm := by
  unfold compileTree at built
  rw [builtIn] at built
  cases compiled : Compile.compileTemplate inputs.environment Registry.builtIn ⟨style, language, true⟩
      name tree with
  | error failure =>
      rw [compiled] at built
      cases built
  | ok result =>
      rw [compiled] at built
      cases built
      exact Compile.inNormalForm_of_compileTemplate rfl compiled

/-- A template is built with all that it includes, and a phrase includes nothing. -/
theorem inNormalForm_of_build (builtIn : inputs.registry = Registry.builtIn) {key : ArtifactKey}
    {code : Code} {uses : Uses} (built : inputs.build key = .built code uses) : code.InNormalForm := by
  cases key with
  | template style language name =>
      change inputs.buildTemplate style language name = _ at built
      unfold buildTemplate at built
      split at built
      · split at built
        · cases built
        · split at built
          · cases built
          · split at built
            · cases built
            · exact inNormalForm_of_compileTree builtIn built
      · cases built
  | phrase language name =>
      change inputs.buildPhrase language name = _ at built
      unfold buildPhrase at built
      split at built
      · cases built
      · split at built
        · cases built
          exact Compile.inNormalForm_phraseCode _
        · cases built

end BuildInputs

theorem Outcome.ComesOf.inNormalForm {σ : Type} [Store σ] {code : Code} {uses : Uses}
    (comes : (Outcome.built code uses).ComesOf σ Registry.builtIn) : code.InNormalForm := by
  rcases comes with unresolved | ⟨inputs, key, builtIn, built⟩
  · cases unresolved
  · exact inputs.inNormalForm_of_build builtIn built

namespace Engine

variable {σ Result Other : Type} [Store σ] {custody : Store.Custody σ} {engine : Engine σ}

/-! ## What one outcome does -/

/-- An engine over the built-in functions has code in normal form only, in its cache and in its store. -/
structure Serves (custody : Store.Custody σ) (engine : Engine σ) : Prop where
  registry_eq : engine.registry = Registry.builtIn
  cached : engine.cache.InNormalForm
  stored : ∀ artifact, custody.holds engine.store artifact → artifact.code.InNormalForm

namespace Serves

theorem bind {command : EngineM σ Result} {next : Result → EngineM σ Other}
    (first : (engine.afterwards command).Serves custody)
    (others : ∀ result (after : Engine σ), after.Serves custody →
      (after.afterwards (next result)).Serves custody) :
    (engine.afterwards (command >>= next)).Serves custody := by
  rw [afterwards] at first ⊢
  rw [perform_bind]
  rcases performed : engine.perform command with ⟨_ | result, after⟩
  · rw [performed] at first
    exact first
  · rw [performed] at first
    exact others result after first

theorem replaceArtifact (serves : engine.Serves custody) {artifact : Artifact}
    (normal : artifact.code.InNormalForm) :
    (engine.afterwards (EngineM.tell fun store => Store.replaceArtifact store artifact)).Serves
      custody := by
  rw [afterwards]
  cases replaced : Store.replaceArtifact engine.store artifact with
  | error error =>
      rw [perform_tell_error engine replaced]
      exact serves
  | ok store =>
      rw [perform_tell_ok engine replaced]
      refine ⟨serves.registry_eq, serves.cached, fun other holds => ?_⟩
      rcases custody.replaced replaced other holds with rfl | before
      · exact normal
      · exact serves.stored other before

theorem removeArtifact (serves : engine.Serves custody) (key : ArtifactKey) :
    (engine.afterwards (EngineM.tell fun store => Store.removeArtifact store key)).Serves custody := by
  rw [afterwards]
  cases removed : Store.removeArtifact engine.store key with
  | error error =>
      rw [perform_tell_error engine removed]
      exact serves
  | ok store =>
      rw [perform_tell_ok engine removed]
      exact ⟨serves.registry_eq, serves.cached, fun other holds =>
        serves.stored other (custody.removed removed other holds)⟩

variable {key : ArtifactKey} {code : Code} {diagnostic : Diagnostic} {uses : Uses}

/-- The cache and the record of dependencies are changed before the store is told. -/
theorem withCache (serves : engine.Serves custody) {cache : ArtifactCache}
    (normal : cache.InNormalForm) (dependencies : Dependencies) :
    { engine with dependencies := dependencies, cache := cache }.Serves custody :=
  ⟨serves.registry_eq, normal, serves.stored⟩

theorem install (serves : engine.Serves custody) (normal : code.InNormalForm) :
    (engine.afterwards (install key code uses)).Serves custody := by
  have entered : (engine.cache.install key code uses).1.InNormalForm := serves.cached.insert normal rfl
  have changed := serves.withCache entered (engine.dependencies.record key uses)
  exact (changed.replaceArtifact normal).bind fun _ _ served => served

theorem drop (serves : engine.Serves custody) : (engine.afterwards (drop key)).Serves custody := by
  have normal := serves.cached.remove key
  rcases removed : engine.cache.remove key with ⟨cache, found⟩
  rw [removed] at normal
  have changed := serves.withCache normal (engine.dependencies.remove key)
  simp only [afterwards, Engine.drop, perform_bind, perform_modify, perform_get, removed]
  cases found with
  | none => exact changed
  | some _ => exact (changed.removeArtifact key).bind fun _ _ served => served

theorem keep (serves : engine.Serves custody) :
    (engine.afterwards (keep key diagnostic uses)).Serves custody := by
  have normal := serves.cached.markStale key diagnostic uses
  rcases marked : engine.cache.markStale key diagnostic uses with ⟨cache, kept⟩
  rw [marked] at normal
  simp only [afterwards, Engine.keep, perform_bind, perform_modify, perform_get, marked]
  cases kept with
  | none => exact serves.withCache normal.1 (engine.dependencies.record key uses)
  | some stale =>
      have changed := serves.withCache normal.1 (engine.dependencies.record key stale.uses)
      exact changed.replaceArtifact (normal.2 stale rfl)

theorem invalidate (serves : engine.Serves custody) :
    (engine.afterwards (invalidate key uses)).Serves custody := by
  have counted : engine.cache.recordFailure.InNormalForm := serves.cached
  have normal := counted.remove key
  rcases removed : engine.cache.recordFailure.remove key with ⟨cache, found⟩
  rw [removed] at normal
  have changed := serves.withCache normal engine.dependencies
  have recorded : ∀ after : Engine σ, after.Serves custody →
      (after.afterwards (modify fun engine =>
        { engine with dependencies := engine.dependencies.record key uses })).Serves custody :=
    fun after served => served.withCache served.cached _
  rw [Engine.invalidate, afterwards, perform_bind_ok engine (perform_get engine), removed,
    perform_bind_ok engine (perform_modify engine _)]
  cases found with
  | none => exact recorded _ changed
  | some _ => exact (changed.removeArtifact key).bind fun _ => recorded

theorem applyOutcome (serves : engine.Serves custody) {outcome : Outcome} {direct : Bool}
    (comes : outcome.ComesOf σ engine.registry) :
    (engine.afterwards (applyOutcome key direct outcome)).Serves custody := by
  rw [serves.registry_eq] at comes
  cases outcome with
  | built code uses => exact serves.install comes.inNormalForm
  | unresolved => exact serves.drop
  | failed diagnostic uses =>
      rw [Engine.applyOutcome, afterwards, perform_bind_ok engine (perform_get engine)]
      cases engine.config.failurePolicy with
      | keepLastGood => exact serves.keep.bind fun _ _ served => served
      | invalidate => exact serves.invalidate.bind fun _ _ served => served

end Serves

/-! ## What commands do -/

/-- Opening restores what the store hands out. -/
theorem serves_of_ofStore {config : Config} {store : σ}
    (normal : ∀ artifact, custody.holds store artifact → artifact.code.InNormalForm)
    (isOpened : ofStore config Registry.builtIn store = .ok engine) : engine.Serves custody := by
  rcases exists_of_ofStore isOpened with ⟨_, artifacts, _, handed, rfl⟩
  refine ⟨rfl, ArtifactCache.inNormalForm_restore fun artifact member => ?_, normal⟩
  exact normal artifact (custody.handedOut handed artifact member)

theorem respected_serves (custody : Store.Custody σ) :
    Respected (fun before after => ∀ artifact, custody.holds after artifact → custody.holds before artifact)
      fun first second => first.1.Serves custody → second.1.Serves custody where
  sparing := custody.sparing
  refl _ serves := serves
  trans first second serves := second (first serves)
  besides _ besides serves :=
    ⟨besides.registry_eq.trans serves.registry_eq, besides.cache_eq ▸ serves.cached,
      fun artifact holds => serves.stored artifact (besides.spared artifact holds)⟩
  applied := by
    intro built engine earlier said key direct outcome comes onwards
    have applied : built.Serves custody →
        (engine.afterwards (applyOutcome key direct outcome)).Serves custody := by
      intro serves
      have served := onwards serves
      exact served.applyOutcome (served.registry_eq ▸ serves.registry_eq ▸ comes)
    rw [afterwards] at applied
    rcases performed : engine.perform (applyOutcome key direct outcome) with ⟨_ | report, after⟩
    · rw [performed] at applied
      exact ⟨said, applied⟩
    · rw [performed] at applied
      exact applied

/-- The command of a call, over any store. -/
def Call.commandOn (σ : Type) [Store σ] : Call → EngineM σ CascadeReport
  | rebuildAll => Engine.rebuildAll
  | definitionChanged kind name position => Engine.definitionChanged kind name position
  | definitionDeleted kind name => Engine.definitionDeleted kind name
  | positionMoved tree id parent => Engine.positionMoved tree id parent
  | positionAdded tree id parent => Engine.positionAdded tree id parent
  | positionRemoved tree id => Engine.positionRemoved tree id
  | edit change => change.commandOn σ

/-- Whatever comes of a call, what is held is in normal form if it was before. -/
theorem Serves.afterCall (serves : engine.Serves custody) (call : Call) :
    (engine.afterwards (call.commandOn σ)).Serves custody := by
  have respected := respected_serves custody
  have respects : Respects (fun first second => first.1.Serves custody → second.1.Serves custody) .empty
      (CascadeReport.empty ++ ·) (call.commandOn σ) := by
    cases call with
    | rebuildAll =>
        exact respected.rebuildAll fun _ _ serves => ⟨serves.registry_eq, serves.cached, serves.stored⟩
    | definitionChanged kind name position => exact respected.definitionChanged _ kind name position
    | definitionDeleted kind name => exact respected.definitionDeleted _ kind name
    | positionMoved tree id parent => exact respected.positionMoved _ tree id parent
    | positionAdded tree id parent => exact respected.positionAdded _ tree id parent
    | positionRemoved tree id => exact respected.positionRemoved _ tree id
    | edit change => exact respected.edit _ change
  rcases respects.exists_reported engine with ⟨_, related⟩
  exact related serves

/-! ## Engines whose artifacts are all their own -/

/-- The engines that come about from a store without artifacts, by calls in any order, whatever comes of
them, and by opening again.  Others may write to the store in between, as long as they add no artifacts. -/
inductive Grown (custody : Store.Custody σ) : Engine σ → Prop where
  | opened {config : Config} {store : σ} {engine : Engine σ}
      (bare : ∀ artifact, ¬ custody.holds store artifact)
      (isOpened : ofStore config Registry.builtIn store = .ok engine) : Grown custody engine
  | reopened {config : Config} {before engine : Engine σ} (grown : Grown custody before)
      (isOpened : ofStore config Registry.builtIn before.store = .ok engine) : Grown custody engine
  | called {before : Engine σ} (call : Call) (grown : Grown custody before) :
      Grown custody (before.afterwards (call.commandOn σ))
  | rewritten {before : Engine σ} {store : σ} (grown : Grown custody before)
      (kept : ∀ artifact, custody.holds store artifact → custody.holds before.store artifact) :
      Grown custody { before with store := store }

theorem Grown.serves (grown : Grown custody engine) : engine.Serves custody := by
  induction grown with
  | opened bare isOpened =>
      exact serves_of_ofStore (fun artifact holds => absurd holds (bare artifact)) isOpened
  | reopened grown isOpened inductionHypothesis =>
      exact serves_of_ofStore inductionHypothesis.stored isOpened
  | called call grown inductionHypothesis => exact inductionHypothesis.afterCall call
  | rewritten grown kept inductionHypothesis =>
      exact ⟨inductionHypothesis.registry_eq, inductionHypothesis.cached,
        fun artifact holds => inductionHypothesis.stored artifact (kept artifact holds)⟩

/-- Whatever an engine holds, current or stale, is in normal form.  So no data make it fail to render over an
inclusion: a host that answers a date with that failure is the only one that can bring it about, and a
standard host does not. -/
theorem finished_of_grown (grown : Grown custody engine) {key : ArtifactKey} {artifact : Artifact}
    (held : engine.artifact? key = some artifact) :
    artifact.code.InNormalForm ∧
      (∀ (host : Render.Host) (data : Value) (name : String),
        Render.render host data artifact.code = .error (.unexpandedInclude name) →
          ∃ kind timestamp format,
            host.formatDate kind timestamp format = .error (.unexpandedInclude name)) ∧
      ∀ (host : Render.StandardHost) (data : Value) (name : String),
        Render.render host.services data artifact.code ≠ .error (.unexpandedInclude name) := by
  have normal := grown.serves.cached key artifact held
  have blamed : ∀ (host : Render.Host) (data : Value) (name : String),
      Render.render host data artifact.code = .error (.unexpandedInclude name) →
        ∃ kind timestamp format,
          host.formatDate kind timestamp format = .error (.unexpandedInclude name) := by
    intro host data name failed
    cases Render.render_hasCause normal data _ failed with
    | date answered => exact ⟨_, _, _, answered⟩
  refine ⟨normal, blamed, fun host data name failed => ?_⟩
  rcases blamed host.services data name failed with ⟨kind, timestamp, format, answered⟩
  exact Render.formatDate_ne_unexpandedInclude host kind timestamp format name answered

/-! ## A page that goes stale while the store is out of order -/

/-- A text with a header above it. -/
def coveredStore : MemoryStore :=
  ((MemoryStore.empty.define .template rootPosition "body" "<tpl:include template=\"header\"/>text").1.define
    .template rootPosition "header" "top ").1

def openedCovered : Engine (RefusingStore MemoryStore) :=
  (ofStore {} Registry.builtIn (⟨coveredStore, []⟩ : RefusingStore MemoryStore)).toOption.get
    (by decide +kernel)

def builtCovered : Engine (RefusingStore MemoryStore) :=
  openedCovered.afterwards (Call.rebuildAll.commandOn _)

/-- The header has been spoiled, and the store takes no artifacts any more. -/
def disorderedCovered : Engine (RefusingStore MemoryStore) :=
  { builtCovered with
    store := ⟨(builtCovered.store.store.define .template rootPosition "header" "\x7bnope()\x7d").1,
      [.replaceArtifact]⟩ }

/-- The text has gone stale in the cache alone. -/
def interruptedCovered : Engine (RefusingStore MemoryStore) :=
  disorderedCovered.afterwards ((Call.definitionChanged .template "header" rootPosition).commandOn _)

theorem grown_interruptedCovered :
    Grown (RefusingStore.custody MemoryStore.custody) interruptedCovered := by
  have bare : ∀ artifact,
      ¬ (RefusingStore.custody MemoryStore.custody).holds ⟨coveredStore, []⟩ artifact := by
    rintro artifact ⟨key, found⟩
    cases found
  have isOpened : ofStore {} Registry.builtIn (⟨coveredStore, []⟩ : RefusingStore MemoryStore) =
      .ok openedCovered := eq_ok_get _
  have built : Grown (RefusingStore.custody MemoryStore.custody) builtCovered :=
    .called .rebuildAll (.opened bare isOpened)
  refine .called _ (.rewritten built fun artifact holds => ?_)
  rcases holds with ⟨key, found⟩
  rw [MemoryStore.artifacts_define] at found
  exact ⟨key, found⟩

def staleText : Artifact :=
  (interruptedCovered.artifact? (.template rootPosition rootPosition "body")).get (by decide +kernel)

/-- The text is still rendered with the header that it was built with. -/
theorem finished_staleText :
    Grown (RefusingStore.custody MemoryStore.custody) interruptedCovered ∧
      interruptedCovered.artifact? (.template rootPosition rootPosition "body") = some staleText ∧
      staleText.isStale = true ∧ staleText.code.text? = some "top text" ∧ staleText.code.InNormalForm ∧
      ∀ (host : Render.StandardHost) (data : Value) (name : String),
        Render.render host.services data staleText.code ≠ .error (.unexpandedInclude name) := by
  have held : interruptedCovered.artifact? (.template rootPosition rootPosition "body") =
      some staleText := (Option.some_get _).symm
  have finished := finished_of_grown grown_interruptedCovered held
  exact ⟨grown_interruptedCovered, held, by decide +kernel, by decide +kernel, finished.1, finished.2.2⟩

end Engine
end TemplateCascade

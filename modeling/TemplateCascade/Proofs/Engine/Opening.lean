import Mathlib
import TemplateCascade.Proofs.Engine.Editing

namespace TemplateCascade

/-!
# Opening and rebuilding

An engine that is opened over a store has the scheme of the store and the stored artifacts, and records
what these depend on.  What a build has asked for that left no artifact is not stored, so it is not on
record.

Building everything again settles every slot: with the outcome of building the key from scratch where
there is something to build, and with nothing elsewhere.
-/

open Compile (Registry Uses)

namespace Engine

variable {config : Config} {registry : Registry} {store : MemoryStore} {engine : Engine MemoryStore}

/-! ## Opening -/

/-- What has been restored from a store is what is stored. -/
theorem restore_values (keyed : ∀ (key : ArtifactKey) (artifact : Artifact),
      store.artifacts[key]? = some artifact → artifact.key = key) :
    (ArtifactCache.empty.restore store.artifacts.values).artifacts = store.artifacts := by
  ext1 key
  have entered := @foldl_insert_values ArtifactKey Artifact _ _ _ Artifact _ Artifact.key
    (fun artifact => artifact) store.artifacts keyed key
  exact entered.trans Option.map_id'

theorem uses_dependenciesOf (artifacts : List Artifact) (known : Dependencies) :
    (artifacts.foldl (fun dependencies artifact => dependencies.record artifact.key artifact.uses)
      known).uses =
      artifacts.foldl (fun uses artifact => uses.insert artifact.key artifact.uses) known.uses := by
  induction artifacts generalizing known with
  | nil => rfl
  | cons artifact rest inductionHypothesis =>
      rw [List.foldl_cons, List.foldl_cons, inductionHypothesis]
      have recorded : (known.record artifact.key artifact.uses).uses =
          known.uses.insert artifact.key artifact.uses := by
        rw [Dependencies.record, Dependencies.unlink]
        split <;> rfl
      rw [recorded]

theorem consistent_dependenciesOf (artifacts : List Artifact) :
    (dependenciesOf artifacts).Consistent := by
  have entered : ∀ known : Dependencies, known.Consistent →
      (artifacts.foldl (fun dependencies artifact =>
        dependencies.record artifact.key artifact.uses) known).Consistent := by
    induction artifacts with
    | nil => exact fun known consistent => consistent
    | cons artifact rest inductionHypothesis =>
        exact fun known consistent => inductionHypothesis _ (consistent.record artifact.key artifact.uses)
  exact entered Dependencies.empty Dependencies.consistent_empty

/-- What stored artifacts depend on is on record, and nothing else. -/
theorem usesOf?_dependenciesOf (keyed : ∀ (key : ArtifactKey) (artifact : Artifact),
      store.artifacts[key]? = some artifact → artifact.key = key) (key : ArtifactKey) :
    (dependenciesOf store.artifacts.values).usesOf? key = store.artifacts[key]?.map Artifact.uses := by
  rw [Dependencies.usesOf?, dependenciesOf, uses_dependenciesOf]
  exact foldl_insert_values keyed key

/-- An opened engine has derived everything from its store. -/
structure Opened (config : Config) (registry : Registry) (store : MemoryStore)
    (engine : Engine MemoryStore) : Prop where
  store_eq : engine.store = store
  config_eq : engine.config = config
  registry_eq : engine.registry = registry
  loaded : loadScheme store = .ok engine.scheme
  memo_eq : engine.memo = Markup.ParseMemo.empty
  founded : engine.Founded
  slot_eq : ∀ key, engine.slot key =
    ⟨store.artifacts[key]?.map Artifact.undated, store.artifacts[key]?.map Artifact.uses⟩

/-- What is opened, over any store, has the scheme and the artifacts that the store hands out. -/
theorem exists_of_ofStore {σ : Type} [Store σ] {store : σ} {engine : Engine σ}
    (succeeded : ofStore config registry store = .ok engine) :
    ∃ scheme artifacts, loadScheme store = .ok scheme ∧ Store.artifacts store = .ok artifacts ∧
      engine = ⟨store, config, registry, scheme, dependenciesOf artifacts,
        ArtifactCache.empty.restore artifacts, Markup.ParseMemo.empty⟩ := by
  rcases exists_of_bind_eq_ok succeeded with ⟨_, _, succeeded⟩
  rcases exists_of_bind_eq_ok succeeded with ⟨scheme, loaded, succeeded⟩
  rcases exists_of_bind_eq_ok succeeded with ⟨artifacts, handed, ⟨⟩⟩
  exact ⟨scheme, artifacts, loaded, mapError_eq_ok_iff.mp handed, rfl⟩

theorem opened_of_ofStore (wellFormed : store.WellFormed)
    (succeeded : ofStore config registry store = .ok engine) :
    Opened config registry store engine := by
  rcases exists_of_ofStore succeeded with ⟨scheme, _, loaded, ⟨⟩, rfl⟩
  have restored := restore_values wellFormed.artifact_key
  have trees := ((loadScheme_eq_ok_iff wellFormed).mp loaded).1
  refine ⟨rfl, rfl, rfl, loaded, rfl, ⟨wellFormed, trees, restored.symm, ?_, ?_⟩, fun key => ?_⟩
  · intro key artifact found
    rw [ArtifactCache.get?, restored] at found
    exact wellFormed.artifact_key key artifact found
  · exact consistent_dependenciesOf store.artifacts.values
  · rw [slot, ArtifactCache.get?, restored]
    exact congrArg (Slot.mk _) (usesOf?_dependenciesOf wellFormed.artifact_key key)

/-- An engine can be opened over every store whose trees can be loaded. -/
theorem exists_ofStore (valid : config.validate = .ok ()) (registry : Registry)
    {scheme : InheritanceScheme} (loaded : loadScheme store = .ok scheme) :
    ∃ engine : Engine MemoryStore, ofStore config registry store = .ok engine := by
  rw [ofStore, valid, loaded]
  exact ⟨_, rfl⟩

/-- The engine that is opened over a store. -/
def openedOver (config : Config) (store : MemoryStore) : Option (Engine MemoryStore) :=
  (ofStore config Registry.builtIn store).toOption

theorem ofStore_of_openedOver (isOpened : openedOver config store = some engine) :
    ofStore config Registry.builtIn store = .ok engine := by
  rw [openedOver] at isOpened
  cases opens : ofStore config Registry.builtIn store with
  | error error =>
      rw [opens] at isOpened
      cases isOpened
  | ok opened =>
      rw [opens] at isOpened
      cases isOpened
      rfl

/-- An opened engine has derived everything from its store. -/
theorem Opened.derived (opened : Opened config registry store engine) (wellFormed : store.WellFormed) :
    engine.Derived where
  wellFormed := opened.founded.wellFormed
  trees := opened.founded.trees
  maps := by
    rw [opened.store_eq]
    exact ((loadScheme_eq_ok_iff wellFormed).mp opened.loaded).2
  backed := opened.founded.backed
  sound := by
    rw [opened.memo_eq]
    exact Markup.ParseMemo.sound_empty engine.store

theorem Opened.inStep (opened : Opened config Registry.builtIn store engine)
    (wellFormed : store.WellFormed) : engine.InStep :=
  (opened.derived wellFormed).inStep opened.registry_eq

/-- The scheme that is derived from a store is the one that would be loaded. -/
theorem Derived.loaded (derived : engine.Derived) : loadScheme engine.store = .ok engine.scheme :=
  (loadScheme_eq_ok_iff derived.wellFormed).mpr ⟨derived.trees, derived.maps⟩

theorem InStep.loaded (inStep : engine.InStep) : loadScheme engine.store = .ok engine.scheme :=
  inStep.derived.loaded

/-! ## Rebuilding -/

/-- The engine when everything has been loaded again. -/
def reloaded (engine : Engine MemoryStore) (scheme : InheritanceScheme) : Engine MemoryStore :=
  { engine with
    scheme := scheme
    dependencies := Dependencies.empty
    memo := Markup.ParseMemo.empty }

theorem reloaded_founded (founded : engine.Founded) {scheme : InheritanceScheme}
    (loaded : loadScheme engine.store = .ok scheme) : (engine.reloaded scheme).Founded :=
  ⟨founded.wellFormed, ((loadScheme_eq_ok_iff founded.wellFormed).mp loaded).1,
    ⟨founded.backed.stored, founded.backed.keyed, Dependencies.consistent_empty⟩⟩

/-- The keys that are held and that nothing calls for. -/
def unwanted (engine : Engine MemoryStore) (scheme : InheritanceScheme) : List ArtifactKey :=
  engine.cache.keys.filter fun key => !(Targets.direct scheme.allKeys).contains key

theorem slot_reloaded (scheme : InheritanceScheme) (key : ArtifactKey) :
    (engine.reloaded scheme).slot key = ⟨(engine.slot key).held, none⟩ := by
  have forgotten : Dependencies.empty.usesOf? key = none := Std.ExtTreeMap.getElem?_empty
  rw [slot, reloaded]
  exact congrArg (Slot.mk _) forgotten

theorem mem_unwanted {scheme : InheritanceScheme} {key : ArtifactKey} :
    key ∈ engine.unwanted scheme ↔ (engine.slot key).held ≠ none ∧ key ∉ scheme.allKeys := by
  rw [unwanted, List.mem_filter, ArtifactCache.keys, Std.ExtTreeMap.mem_keys,
    Std.ExtTreeMap.mem_iff_isSome_getElem?, Option.isSome_iff_ne_none, slot, ne_eq, ne_eq,
    Option.map_eq_none_iff, ArtifactCache.get?, Bool.not_eq_true', ← Bool.not_eq_true,
    ← Std.ExtTreeMap.mem_iff_contains, Targets.mem_direct]

theorem perform_rebuildAll_error {error : EngineError} (failed : loadScheme engine.store = .error error) :
    engine.perform rebuildAll = (.error error, engine) := by
  simp only [rebuildAll, perform_bind, perform_get, failed, perform_throw]

/-- When everything can be loaded, rebuilding drops what is not wanted and builds the rest. -/
theorem perform_rebuildAll {scheme : InheritanceScheme}
    (loaded : loadScheme engine.store = .ok scheme) :
    ∃ dropped middle,
      (engine.reloaded scheme).perform (reportEach drop (engine.unwanted scheme)) =
        (.ok dropped, middle) ∧
      Settling (engine.reloaded scheme) middle (fun key slot =>
        if key ∈ engine.unwanted scheme then Slot.empty else slot) ∧
      ∀ {report after}, middle.perform (buildTargets (Targets.direct scheme.allKeys)) =
          (.ok report, after) →
        engine.perform rebuildAll = (.ok (dropped ++ report), after) := by
  rcases perform_dropAll (engine.reloaded scheme) (engine.unwanted scheme) with
    ⟨dropped, middle, performed, settling⟩
  refine ⟨dropped, middle, performed, settling, fun built => ?_⟩
  rw [rebuildAll, perform_bind, perform_get]
  dsimp only
  rw [loaded]
  refine (perform_bind_ok engine (perform_modify engine _)).trans ?_
  refine (perform_bind_ok (engine.reloaded scheme) (perform_get _)).trans ?_
  refine (perform_bind_ok (engine.reloaded scheme) performed).trans ?_
  exact perform_bind_ok middle built

/-- Rebuilding leaves an engine in order, whatever comes of it. -/
theorem rebuildAll_founded (founded : engine.Founded) {after : Engine MemoryStore}
    {outcome : Except EngineError CascadeReport} (performed : engine.perform rebuildAll = (outcome, after)) :
    after.Founded := by
  rcases loaded : loadScheme engine.store with error | scheme
  · rw [perform_rebuildAll_error loaded, Prod.mk.injEq] at performed
    exact performed.2 ▸ founded
  · rcases perform_rebuildAll loaded with ⟨dropped, middle, _, dropping, whole⟩
    rcases perform_buildTargets middle (Targets.direct scheme.allKeys) with ⟨report, last, built, settling⟩
    rw [whole built, Prod.mk.injEq] at performed
    exact performed.2 ▸ settling.founded (dropping.founded (reloaded_founded founded loaded))

/-- Every slot has been answered with the outcome of building its key from scratch. -/
structure Rebuilt (before after : Engine MemoryStore) : Prop where
  inStep : after.InStep
  config_eq : after.config = before.config
  store_eq : after.store = { before.store with artifacts := after.store.artifacts }
  slot_eq : ∀ key, after.slot key =
    Slot.answer before.config.failurePolicy key ⟨(before.slot key).held, none⟩ (after.scratch key)

theorem reloaded_derived (founded : engine.Founded) {scheme : InheritanceScheme}
    (loaded : loadScheme engine.store = .ok scheme) : (engine.reloaded scheme).Derived where
  wellFormed := founded.wellFormed
  trees := ((loadScheme_eq_ok_iff founded.wellFormed).mp loaded).1
  maps := ((loadScheme_eq_ok_iff founded.wellFormed).mp loaded).2
  backed := (reloaded_founded founded loaded).backed
  sound := Markup.ParseMemo.sound_empty engine.store

/-- Also what is rebuilt is derived from the store, whatever functions the engine knows. -/
theorem rebuildAll_derived (derived : engine.Derived) {after : Engine MemoryStore}
    {outcome : Except EngineError CascadeReport} (performed : engine.perform rebuildAll = (outcome, after)) :
    after.Derived := by
  rcases perform_rebuildAll derived.loaded with ⟨dropped, middle, _, dropping, whole⟩
  rcases perform_buildTargets middle (Targets.direct engine.scheme.allKeys) with
    ⟨report, last, built, settling⟩
  rw [whole built, Prod.mk.injEq] at performed
  exact performed.2 ▸ settling.derived (dropping.derived (reloaded_derived derived.founded derived.loaded))

/-- Where everything can be loaded, everything is built again. -/
theorem exists_rebuilt (builtIn : engine.registry = Registry.builtIn) (founded : engine.Founded)
    {scheme : InheritanceScheme} (loaded : loadScheme engine.store = .ok scheme) :
    ∃ report after, engine.perform rebuildAll = (.ok report, after) ∧ after.scheme = scheme ∧
      Rebuilt engine after := by
  rcases perform_rebuildAll loaded with ⟨dropped, middle, _, dropping, whole⟩
  have middleInStep := dropping.inStep ((reloaded_derived founded loaded).inStep builtIn)
  rcases perform_buildTargets_builtIn middle middleInStep.builtIn middleInStep.sound
    (Targets.direct scheme.allKeys) with ⟨report, after, built, settling⟩
  have schemeEq : after.scheme = scheme := settling.scheme_eq.trans dropping.scheme_eq
  have definitions : after.store.definitions = middle.store.definitions := settling.definitions_eq
  have outcome : ∀ key, fresh middle.store middle.scheme key = after.scratch key := by
    intro key
    rw [scratch, settling.scheme_eq, fresh_of_definitions definitions]
  refine ⟨dropped ++ report, after, whole built, schemeEq, settling.inStep middleInStep, ?_, ?_, ?_⟩
  · exact settling.config_eq.trans dropping.config_eq
  · rw [settling.store_eq, dropping.store_eq]
    rfl
  · intro key
    have policy : middle.config.failurePolicy = engine.config.failurePolicy := by
      rw [dropping.config_eq]
      rfl
    rw [settling.slot_eq, policy, outcome, dropping.slot_eq]
    simp only [Targets.mem_direct]
    have wanted : key ∈ scheme.allKeys ↔ after.scratch key ≠ .unresolved := by
      rw [InheritanceScheme.mem_allKeys_iff after.store, ← schemeEq, scratch, ne_eq, ne_eq,
        fresh_eq_unresolved_iff]
    by_cases member : key ∈ scheme.allKeys
    · rw [if_pos member, if_neg fun other => (mem_unwanted.mp other).2 member, slot_reloaded]
    · rw [if_neg member]
      rw [wanted, not_not] at member
      rw [member]
      split
      · rfl
      · next kept =>
          have nothing : (engine.slot key).held = none := by
            by_contra held
            exact kept (mem_unwanted.mpr ⟨held, fun other => wanted.mp other member⟩)
          rw [slot_reloaded, nothing]
          rfl

namespace Rebuilt

variable {before after : Engine MemoryStore} (rebuilt : Rebuilt before after) (key : ArtifactKey)

include rebuilt

theorem settledAt : after.SettledAt key := by
  rw [SettledAt, rebuilt.slot_eq, rebuilt.config_eq]
  exact Slot.settled_answer _ key _ _

theorem held_eq : (after.slot key).held =
    heldAfter before.config.failurePolicy key (before.slot key).held (after.scratch key) := by
  rw [rebuilt.slot_eq]
  rfl

end Rebuilt

end Engine
end TemplateCascade

import Mathlib
import TemplateCascade.Proofs.Engine.Atomicity
import TemplateCascade.Proofs.Engine.Coursing

namespace TemplateCascade
namespace Engine

/-!
# What every engine keeps in order

However an engine has come about, its names follow the definitions of its store, though those at the root
may lag behind; what it holds is on record with the names that it depends on; and the generations of what
it holds have been drawn.  The last holds of an opened engine because the sequence goes on behind the
highest stored generation.
-/

open Compile (Registry)

variable {before between middle after engine : Engine MemoryStore} {key : ArtifactKey}
  {report first second : CascadeReport}

/-- An engine follows its store, and keeps its books. -/
structure Orderly (engine : Engine MemoryStore) : Prop where
  upheld : engine.Upheld
  datedAt : ∀ key, engine.DatedAt key
  recordedAt : ∀ key, engine.RecordedAt key

/-! ## Along an edit -/

theorem Course.datedAt (course : Course before after key report) (dated : before.DatedAt key)
    (drawn : before.cache.nextGeneration ≤ after.cache.nextGeneration) : after.DatedAt key := by
  cases course with
  | spared _ spared => exact spared.datedAt drawn dated
  | visited _ fate => exact fate.datedAt dated drawn
  | gone _ left =>
      cases left with
      | inl spared => exact spared.datedAt drawn dated
      | inr fate => exact fate.datedAt dated drawn

theorem Course.recordedAt (course : Course before after key report) (recorded : before.RecordedAt key) :
    after.RecordedAt key := by
  cases course with
  | spared _ spared => exact spared.recordedAt recorded
  | visited _ fate => exact fate.recordedAt
  | gone _ left =>
      cases left with
      | inl spared => exact spared.recordedAt recorded
      | inr fate => exact fate.recordedAt

theorem Completed.orderly {doubled : ArtifactKey → Prop} (completed : Completed before after doubled report)
    (orderly : before.Orderly) : after.Orderly := by
  refine ⟨completed.upheld, fun key => ?_, fun key => ?_⟩
  · by_cases again : doubled key
    · rcases (completed.twice key again).fates with ⟨between, _, _, drawn, drawnOn, first, second, _⟩
      exact second.datedAt (first.datedAt (orderly.datedAt key) drawn) drawnOn
    · exact (completed.course key again).datedAt (orderly.datedAt key) completed.drawn
  · by_cases again : doubled key
    · rcases (completed.twice key again).fates with ⟨_, _, _, _, _, _, second, _⟩
      exact second.recordedAt
    · exact (completed.course key again).recordedAt (orderly.recordedAt key)

theorem Idle.orderly (idle : Idle before after) (orderly : before.Orderly) : after.Orderly := by
  rcases idle with ⟨memo, sound, rfl⟩
  exact ⟨orderly.upheld.withMemo (sound orderly.upheld.sound), orderly.datedAt, orderly.recordedAt⟩

/-! ## Losing what is at the root -/

section

variable {tree : TreeKind} {id : Position}

theorem Uprooting.direct_eq_some_iff (uprooting : Uprooting engine between middle tree id report)
    (upheld : engine.Upheld) {kind : DefinitionKind} {name : String} {position : Position}
    {definition : DefinitionId} :
    (middle.store.direct kind name)[position]? = some definition ↔
      (engine.store.direct kind name)[position]? = some definition ∧
        ¬ (kind = tree.defines ∧ position = id) := by
  have cleared := uprooting.cleared upheld
  rw [cleared.wellFormed.direct_eq_some_iff, upheld.wellFormed.direct_eq_some_iff]
  simp only [cleared.fewer.definitions_iff, Definition.isOwnedBy_iff]
  constructor
  · rintro ⟨found, ⟨stored, kept⟩, rfl, rfl, rfl⟩
    exact ⟨⟨found, stored, rfl, rfl, rfl⟩, kept⟩
  · rintro ⟨⟨found, stored, rfl, rfl, rfl⟩, kept⟩
    exact ⟨found, ⟨stored, kept⟩, rfl, rfl, rfl⟩

/-- A root that has lost its definitions is behind, and everything else still follows it. -/
theorem Uprooting.upheld_root (uprooting : Uprooting engine between middle tree rootPosition report)
    (upheld : engine.Upheld) : middle.Upheld := by
  have cleared := uprooting.cleared upheld
  refine ⟨cleared.wellFormed, (uprooting.founded upheld.founded).trees, fun kind name => ?_,
    cleared.backed, cleared.sound⟩
  have tracks := upheld.tracks kind name
  have direct := @Uprooting.direct_eq_some_iff _ _ _ _ tree rootPosition uprooting upheld kind name
  refine tracks.onward cleared.onward (by rw [cleared.scheme_eq]) ?_
  rw [cleared.scheme_eq]
  refine tracks.trailing.robbed (fun position notRoot => ?_) fun definition own => (direct.mp own).1
  refine Option.ext fun definition => ?_
  rw [direct, and_iff_left fun both => notRoot both.2]

theorem Uprooting.orderly_root (uprooting : Uprooting engine between middle tree rootPosition report)
    (orderly : engine.Orderly) : middle.Orderly :=
  ⟨uprooting.upheld_root orderly.upheld, fun key => uprooting.pass.datedAt (orderly.datedAt key),
    fun key => uprooting.pass.recordedAt (orderly.recordedAt key)⟩

end

/-- An edit leaves an engine in order, also if it fails. -/
theorem edit_orderly {edit : Edit} (orderly : engine.Orderly)
    {outcome : Except EngineError CascadeReport}
    (performed : engine.perform edit.command = (outcome, after)) : after.Orderly := by
  cases outcome with
  | ok report => exact (edit_completed orderly.upheld performed).orderly orderly
  | error error =>
      rcases edit_refused orderly.upheld.founded performed with ⟨tree, between, dropped, uprooting⟩ | idle
      · exact uprooting.orderly_root orderly
      · exact idle.orderly orderly

/-! ## Opening and rebuilding -/

theorem le_foldl_generation (artifacts : List Artifact) (highest : Nat) :
    highest ≤ artifacts.foldl (fun highest artifact => max highest artifact.generation) highest ∧
      ∀ artifact ∈ artifacts, artifact.generation ≤
        artifacts.foldl (fun highest artifact => max highest artifact.generation) highest := by
  induction artifacts generalizing highest with
  | nil => exact ⟨le_refl _, fun _ member => absurd member List.not_mem_nil⟩
  | cons first rest inductionHypothesis =>
      rcases inductionHypothesis (max highest first.generation) with ⟨fromHighest, others⟩
      rw [List.foldl_cons, List.forall_mem_cons]
      exact ⟨(le_max_left _ _).trans fromHighest, (le_max_right _ _).trans fromHighest, others⟩

theorem cache_of_ofStore {config : Config} {registry : Registry} {store : MemoryStore}
    (isOpened : ofStore config registry store = .ok engine) :
    engine.cache = ArtifactCache.empty.restore store.artifacts.values := by
  rcases exists_of_ofStore isOpened with ⟨_, _, _, ⟨⟩, rfl⟩
  rfl

/-- An opened engine draws generations behind those that are stored. -/
theorem orderly_of_ofStore {config : Config} {registry : Registry} {store : MemoryStore}
    (wellFormed : store.WellFormed) (isOpened : ofStore config registry store = .ok engine) :
    engine.Orderly := by
  have opened := opened_of_ofStore wellFormed isOpened
  have stored : ∀ key, engine.artifact? key = store.artifacts[key]? := by
    intro key
    rw [artifact?, ArtifactCache.get?, ← opened.founded.backed.stored, opened.store_eq]
  refine ⟨(opened.derived wellFormed).upheld, fun key artifact holds => ?_, fun key artifact holds => ?_⟩
  · rw [stored] at holds
    have highest := (le_foldl_generation store.artifacts.values 0).2 artifact (mem_values.mpr ⟨key, holds⟩)
    rw [cache_of_ofStore isOpened]
    exact lt_max_of_lt_right (Nat.lt_succ_of_le highest)
  · rw [stored] at holds
    have recorded := congrArg Slot.recorded (opened.slot_eq key)
    rw [holds] at recorded
    exact recorded

/-- When what is not wanted has been dropped and the rest has been built, all that is held is on record. -/
theorem recordedAt_of_passes {scheme : InheritanceScheme} {outcomeOf : ArtifactKey → Outcome}
    (dropping : Pass (engine.reloaded scheme) middle first fun key =>
      if key ∈ engine.unwanted scheme then some .unresolved else none)
    (building : Pass middle after second fun key =>
      if key ∈ Targets.direct scheme.allKeys then some (outcomeOf key) else none)
    (key : ArtifactKey) : after.RecordedAt key := by
  -- Every key has been built, or has been dropped if it was held, or was not held.
  by_cases wanted : key ∈ Targets.direct scheme.allKeys
  · exact (building.fate key _ (if_pos wanted)).recordedAt
  · apply (building.spared key (if_neg wanted)).recordedAt
    by_cases unwanted : key ∈ engine.unwanted scheme
    · exact (dropping.fate key _ (if_pos unwanted)).recordedAt
    · intro artifact holds
      rw [(dropping.spared key (if_neg unwanted)).held] at holds
      refine absurd (mem_unwanted.mpr ⟨fun nothing => ?_, ?_⟩) unwanted
      · have none : engine.artifact? key = none := Option.map_eq_none_iff.mp nothing
        exact nomatch none.symm.trans holds
      · rwa [Targets.mem_direct] at wanted

/-- Rebuilding records everything anew: what is wanted is built, and the rest is dropped. -/
theorem rebuildAll_orderly (orderly : engine.Orderly) {outcome : Except EngineError CascadeReport}
    (performed : engine.perform rebuildAll = (outcome, after)) : after.Orderly := by
  rcases loaded : loadScheme engine.store with error | scheme
  · rw [perform_rebuildAll_error loaded, Prod.mk.injEq] at performed
    exact performed.2 ▸ orderly
  · rcases perform_rebuildAll loaded with ⟨dropped, middle, isDropped, settlingFirst, whole⟩
    rcases perform_buildTargets middle (Targets.direct scheme.allKeys) with
      ⟨report, last, built, settling⟩
    rw [whole built, Prod.mk.injEq] at performed
    rcases performed with ⟨_, rfl⟩
    have derived := settlingFirst.derived (reloaded_derived orderly.upheld.founded loaded)
    have distinct : (engine.unwanted scheme).Nodup := (nodup_keys engine.cache.artifacts).filter _
    have dropping := pass_dropAll (engine.reloaded scheme) distinct isDropped
    have building := pass_buildTargets middle derived.sound built
    have dated : ∀ key, (engine.reloaded scheme).DatedAt key := orderly.datedAt
    exact ⟨(settling.derived derived).upheld, fun key => building.datedAt (dropping.datedAt (dated key)),
      recordedAt_of_passes dropping building⟩

/-- Every engine that can be reached is in order. -/
theorem Reached.orderly (reached : Reached engine) : engine.Orderly := by
  induction reached with
  | opened constructed isOpened => exact orderly_of_ofStore constructed.wellFormed isOpened
  | reopened reached isOpened inductionHypothesis =>
      exact orderly_of_ofStore inductionHypothesis.upheld.wellFormed isOpened
  | rebuilt reached performed inductionHypothesis => exact rebuildAll_orderly inductionHypothesis performed
  | edited reached performed inductionHypothesis => exact edit_orderly inductionHypothesis performed

end Engine
end TemplateCascade

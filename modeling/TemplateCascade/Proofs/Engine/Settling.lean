import Mathlib
import TemplateCascade.Proofs.Artifact.Cache
import TemplateCascade.Proofs.Artifact.Dependencies
import TemplateCascade.Proofs.Cascade.Building
import TemplateCascade.Proofs.Engine.Performing

namespace TemplateCascade

/-!
# Applying outcomes to slots

What an engine keeps for one key is a slot: the artifact, generation aside, and what it depends on by
record.  The outcome of a build answers a slot, and touches no other.  A slot is settled for an outcome
when it could have been left by such an answer; answering it again with the same outcome then changes
nothing.
-/

open Compile (Diagnostic Uses)

namespace Artifact

/-- An artifact without the number of its build. -/
def undated (artifact : Artifact) : Artifact :=
  { artifact with generation := 0 }

end Artifact

/-! ## Slots -/

/-- What is kept for one key. -/
@[ext]
structure Slot where
  held : Option Artifact
  recorded : Option Uses

namespace Slot

/-- Nothing is kept. -/
def empty : Slot := ⟨none, none⟩

/-- What is kept after an outcome has been applied. -/
def answer (policy : FailurePolicy) (key : ArtifactKey) (slot : Slot) : Outcome → Slot
  | .built code uses => ⟨some ⟨key, code, 0, .current, uses⟩, some uses⟩
  | .failed diagnostic uses =>
      match policy, slot.held with
      | .keepLastGood, some previous =>
          let stale := ArtifactCache.aged previous diagnostic uses
          ⟨some stale, some stale.uses⟩
      | _, _ => ⟨none, some uses⟩
  | .unresolved => empty

/-- What is kept fits the outcome of the last build. -/
inductive Settled (policy : FailurePolicy) (key : ArtifactKey) : Slot → Outcome → Prop where
  | built (code : Code) (uses : Uses) :
      Settled policy key ⟨some ⟨key, code, 0, .current, uses⟩, some uses⟩ (.built code uses)
  | failed (diagnostic : Diagnostic) (uses : Uses) :
      Settled policy key ⟨none, some uses⟩ (.failed diagnostic uses)
  | stale (kept : Artifact) (diagnostic : Diagnostic) (uses : Uses)
      (keeps : policy = .keepLastGood) (isStale : kept.status = .stale diagnostic)
      (within : uses.Within kept.uses) :
      Settled policy key ⟨some kept, some kept.uses⟩ (.failed diagnostic uses)
  | unresolved (recorded : Option Uses) : Settled policy key ⟨none, recorded⟩ .unresolved

variable {policy : FailurePolicy} {key : ArtifactKey} {slot : Slot} {outcome : Outcome}

theorem union_of_within {fewer more : Uses} (within : fewer.Within more) :
    fewer.union more = more := by
  have includes : fewer.includes ∪ more.includes = more.includes :=
    Std.ExtTreeSet.ext_mem fun name => by
      rw [Std.ExtTreeSet.mem_union_iff, or_iff_right_of_imp (within.1 name)]
  have phrases : fewer.phrases ∪ more.phrases = more.phrases :=
    Std.ExtTreeSet.ext_mem fun name => by
      rw [Std.ExtTreeSet.mem_union_iff, or_iff_right_of_imp (within.2 name)]
  rw [Uses.union, includes, phrases]

theorem settled_answer (policy : FailurePolicy) (key : ArtifactKey) (slot : Slot)
    (outcome : Outcome) : Settled policy key (slot.answer policy key outcome) outcome := by
  cases outcome with
  | built code uses => exact .built code uses
  | failed diagnostic uses =>
      rcases slot with ⟨_ | previous, recorded⟩
      · cases policy <;> exact .failed diagnostic uses
      · cases policy with
        | invalidate => exact .failed diagnostic uses
        | keepLastGood =>
            exact .stale (ArtifactCache.aged previous diagnostic uses) diagnostic uses rfl rfl
              (Uses.within_union uses previous.uses)
  | unresolved => exact .unresolved none

/-- Another answer with the same outcome leaves the artifact as it is. -/
theorem Settled.held_answer (settled : Settled policy key slot outcome) :
    (slot.answer policy key outcome).held = slot.held := by
  cases settled with
  | built code uses => rfl
  | failed diagnostic uses => cases policy <;> rfl
  | stale kept diagnostic uses keeps isStale within =>
      subst keeps
      have same : ArtifactCache.aged kept diagnostic uses = kept := by
        rw [ArtifactCache.aged, union_of_within within, ← isStale]
      exact congrArg some same
  | unresolved recorded => rfl

/-- It leaves the record as it is too, where there is something to build. -/
theorem Settled.recorded_answer (settled : Settled policy key slot outcome)
    (resolved : outcome ≠ .unresolved) :
    (slot.answer policy key outcome).recorded = slot.recorded := by
  cases settled with
  | built code uses => rfl
  | failed diagnostic uses => cases policy <;> rfl
  | stale kept diagnostic uses keeps isStale within =>
      subst keeps
      exact congrArg some (union_of_within within)
  | unresolved recorded => exact absurd rfl resolved

/-- An answer does not look at the record. -/
theorem answer_congr {first second : Slot} (sameHeld : first.held = second.held) :
    first.answer policy key outcome = second.answer policy key outcome := by
  cases outcome with
  | built code uses => rfl
  | unresolved => rfl
  | failed diagnostic uses => simp only [answer, sameHeld]

/-- A second answer with the same outcome changes nothing. -/
theorem answer_answer (slot : Slot) (resolved : outcome ≠ .unresolved) :
    (slot.answer policy key outcome).answer policy key outcome = slot.answer policy key outcome := by
  have settled := settled_answer policy key slot outcome
  ext1
  · exact settled.held_answer
  · exact settled.recorded_answer resolved

/-- What a build has noted is on record. -/
theorem Settled.within_recorded (settled : Settled policy key slot outcome) :
    outcome.uses.Within (slot.recorded.getD Uses.none) := by
  cases settled with
  | built code uses => exact Uses.Within.refl uses
  | failed diagnostic uses => exact Uses.Within.refl uses
  | stale kept diagnostic uses keeps isStale within => exact within
  | unresolved recorded =>
      exact ⟨fun _ member => absurd member Std.ExtTreeSet.not_mem_empty,
        fun _ member => absurd member Std.ExtTreeSet.not_mem_empty⟩

end Slot

/-! ## The slots of an engine -/

namespace Engine

/-- What an engine keeps for a key. -/
def slot {σ : Type} (engine : Engine σ) (key : ArtifactKey) : Slot :=
  ⟨(engine.cache.get? key).map Artifact.undated, engine.dependencies.usesOf? key⟩

/-- The artifacts are stored as they are in use, each under its key, and the dependencies are listed
as they are recorded. -/
structure Backed (engine : Engine MemoryStore) : Prop where
  stored : engine.store.artifacts = engine.cache.artifacts
  keyed : ∀ key artifact, engine.cache.get? key = some artifact → artifact.key = key
  consistent : engine.dependencies.Consistent

/-- Slots have been answered, and besides them at most the remembered trees and the counts of the cache
have changed. -/
structure Settling (before after : Engine MemoryStore) (answer : ArtifactKey → Slot → Slot) :
    Prop where
  store_eq : after.store = { before.store with artifacts := after.store.artifacts }
  config_eq : after.config = before.config
  registry_eq : after.registry = before.registry
  scheme_eq : after.scheme = before.scheme
  sound : before.memo.Sound before.store → after.memo.Sound before.store
  wellFormed : before.store.WellFormed → after.store.WellFormed
  backed : before.Backed → after.Backed
  slot_eq : ∀ key, after.slot key = answer key (before.slot key)

namespace Settling

variable {before after last : Engine MemoryStore} {answer later : ArtifactKey → Slot → Slot}

theorem refl (engine : Engine MemoryStore) : Settling engine engine fun _ slot => slot :=
  ⟨rfl, rfl, rfl, rfl, id, id, id, fun _ => rfl⟩

theorem definitions_eq (settling : Settling before after answer) :
    after.store.definitions = before.store.definitions := by
  rw [settling.store_eq]

theorem nodes_eq (settling : Settling before after answer) (tree : TreeKind) :
    after.store.nodes tree = before.store.nodes tree := by
  rw [settling.store_eq, MemoryStore.nodes_withArtifacts]

theorem trans (first : Settling before after answer) (second : Settling after last later) :
    Settling before last fun key slot => later key (answer key slot) where
  store_eq := by
    rw [second.store_eq, first.store_eq]
  config_eq := second.config_eq.trans first.config_eq
  registry_eq := second.registry_eq.trans first.registry_eq
  scheme_eq := second.scheme_eq.trans first.scheme_eq
  sound := by
    intro sound
    have between : after.memo.Sound after.store := by
      refine (first.sound sound).of_definitions fun id definition stored => ?_
      rwa [MemoryStore.definition?, first.definitions_eq] at stored
    refine (second.sound between).of_definitions fun id definition stored => ?_
    rwa [MemoryStore.definition?, first.definitions_eq]
  wellFormed := second.wellFormed ∘ first.wellFormed
  backed := second.backed ∘ first.backed
  slot_eq := fun key => by rw [second.slot_eq, first.slot_eq]

theorem congr (settling : Settling before after answer)
    (same : ∀ key slot, answer key slot = later key slot) : Settling before after later := by
  have equal : answer = later := funext fun key => funext fun slot => same key slot
  exact equal ▸ settling

end Settling

/-! ## One key -/

/-- What an engine keeps for one key has been replaced, in use and in the store alike. -/
structure Replaced (before after : Engine MemoryStore) (key : ArtifactKey) (held : Option Artifact)
    (recorded : Option Uses) : Prop where
  store_eq : after.store = { before.store with artifacts := after.store.artifacts }
  config_eq : after.config = before.config
  registry_eq : after.registry = before.registry
  scheme_eq : after.scheme = before.scheme
  memo_eq : after.memo = before.memo
  drawn : before.cache.nextGeneration ≤ after.cache.nextGeneration
  held_eq : ∀ other,
    after.cache.get? other = if other = key then held else before.cache.get? other
  recorded_eq : ∀ other, after.dependencies.usesOf? other =
    if other = key then recorded else before.dependencies.usesOf? other
  wellFormed : before.store.WellFormed → after.store.WellFormed
  backed : before.Backed → after.Backed

/-- Answer the slot of one key, and leave the others as they are. -/
def answerAt (policy : FailurePolicy) (key : ArtifactKey) (outcome : Outcome) :
    ArtifactKey → Slot → Slot :=
  fun other slot => if other = key then slot.answer policy key outcome else slot

namespace Replaced

variable {engine before after : Engine MemoryStore} {key : ArtifactKey} {held : Option Artifact}
  {recorded : Option Uses} {artifact : Artifact} {cache : ArtifactCache} {dependencies : Dependencies}

/-- Slots are answered when the one slot is. -/
theorem settling {policy : FailurePolicy} {outcome : Outcome}
    (replaced : Replaced before after key held recorded)
    (answers : (before.slot key).answer policy key outcome = ⟨held.map Artifact.undated, recorded⟩) :
    Settling before after (answerAt policy key outcome) := by
  refine ⟨replaced.store_eq, replaced.config_eq, replaced.registry_eq, replaced.scheme_eq,
    fun sound => ?_, replaced.wellFormed, replaced.backed, fun other => ?_⟩
  · rwa [replaced.memo_eq]
  · rw [slot, replaced.held_eq, replaced.recorded_eq, answerAt]
    split
    · next same => rw [same, answers]
    · rfl

/-- An artifact is put to use. -/
theorem of_put (sameKey : engine.Backed → artifact.key = key)
    (artifacts : cache.artifacts = engine.cache.artifacts.insert key artifact)
    (drawn : engine.cache.nextGeneration ≤ cache.nextGeneration) (uses : Uses) :
    Replaced engine
      { engine with
        cache := cache
        dependencies := engine.dependencies.record key uses
        store := { engine.store with
          artifacts := engine.store.artifacts.insert artifact.key artifact } }
      key (some artifact) (some uses) where
  store_eq := rfl
  config_eq := rfl
  registry_eq := rfl
  scheme_eq := rfl
  memo_eq := rfl
  drawn := drawn
  held_eq other := by
    rw [ArtifactCache.get?, artifacts, getElem?_insert_eq]
    rfl
  recorded_eq _ := Dependencies.usesOf?_record
  wellFormed wellFormed := wellFormed.insertArtifact artifact
  backed backed := by
    refine ⟨?_, ?_, backed.consistent.record key uses⟩
    · rw [artifacts, sameKey backed, backed.stored]
    · simp only [ArtifactCache.get?, artifacts]
      exact keyed_insert backed.keyed (sameKey backed)

/-- Nothing is held, and only the record changes. -/
theorem of_absent (absent : engine.cache.get? key = none)
    (artifacts : cache.artifacts = engine.cache.artifacts)
    (drawn : cache.nextGeneration = engine.cache.nextGeneration)
    (isRecorded : ∀ other, dependencies.usesOf? other =
      if other = key then recorded else engine.dependencies.usesOf? other)
    (consistent : engine.dependencies.Consistent → dependencies.Consistent) :
    Replaced engine { engine with cache := cache, dependencies := dependencies } key none recorded where
  store_eq := rfl
  config_eq := rfl
  registry_eq := rfl
  scheme_eq := rfl
  memo_eq := rfl
  drawn := drawn.ge
  held_eq other := by
    rw [ArtifactCache.get?, artifacts]
    split
    · next same => exact same ▸ absent
    · rfl
  recorded_eq := isRecorded
  wellFormed := id
  backed backed := by
    refine ⟨?_, ?_, consistent backed.consistent⟩
    · rw [artifacts, backed.stored]
    · simp only [ArtifactCache.get?, artifacts]
      exact backed.keyed

/-- What is held is taken out of use. -/
theorem of_taken (artifacts : cache.artifacts = engine.cache.artifacts.erase key)
    (drawn : cache.nextGeneration = engine.cache.nextGeneration)
    (isRecorded : ∀ other, dependencies.usesOf? other =
      if other = key then recorded else engine.dependencies.usesOf? other)
    (consistent : engine.dependencies.Consistent → dependencies.Consistent) :
    Replaced engine
      { engine with
        cache := cache
        dependencies := dependencies
        store := { engine.store with artifacts := engine.store.artifacts.erase key } }
      key none recorded where
  store_eq := rfl
  config_eq := rfl
  registry_eq := rfl
  scheme_eq := rfl
  memo_eq := rfl
  drawn := drawn.ge
  held_eq other := by
    rw [ArtifactCache.get?, artifacts, getElem?_erase_eq]
    rfl
  recorded_eq := isRecorded
  wellFormed wellFormed := wellFormed.eraseArtifact key
  backed backed := by
    refine ⟨?_, ?_, consistent backed.consistent⟩
    · rw [artifacts, backed.stored]
    · simp only [ArtifactCache.get?, artifacts]
      exact keyed_erase backed.keyed key

end Replaced

/-! ## One outcome -/

variable (engine : Engine MemoryStore) (key : ArtifactKey)

theorem perform_install (code : Code) (uses : Uses) :
    ∃ after, engine.perform (install key code uses) =
        (.ok ⟨[(key, engine.cache.nextGeneration)], [], []⟩, after) ∧
      after.cache.nextGeneration = engine.cache.nextGeneration + 1 ∧
      Replaced engine after key (some (engine.cache.next key code uses)) (some uses) := by
  simp only [install, EngineM.tell, EngineM.ofStore, perform_bind, perform_modify, perform_get,
    perform_pure, Store.replaceArtifact]
  exact ⟨_, rfl, rfl, .of_put (fun _ => rfl) rfl (Nat.le_succ _) uses⟩

theorem perform_drop :
    ∃ after, engine.perform (drop key) = (.ok ((engine.cache.get? key).elim CascadeReport.empty
        fun _ => ⟨[], [key], []⟩), after) ∧
      after.cache.nextGeneration = engine.cache.nextGeneration ∧
      Replaced engine after key none none := by
  simp only [drop, perform_bind, perform_modify, perform_get]
  cases held : engine.cache.get? key with
  | none =>
      rw [ArtifactCache.remove_of_absent held]
      exact ⟨_, rfl, rfl, .of_absent held rfl rfl (fun _ => Dependencies.usesOf?_remove)
        fun consistent => consistent.remove key⟩
  | some artifact =>
      rw [ArtifactCache.remove_of_held held]
      simp only [EngineM.tell, EngineM.ofStore, perform_bind, perform_modify, perform_get,
        perform_pure, Store.removeArtifact]
      exact ⟨_, rfl, rfl, .of_taken rfl rfl (fun _ => Dependencies.usesOf?_remove)
        fun consistent => consistent.remove key⟩

theorem perform_keep (diagnostic : Diagnostic) (uses : Uses) :
    ∃ after, engine.perform (keep key diagnostic uses) = (.ok (), after) ∧
      after.cache.nextGeneration = engine.cache.nextGeneration ∧
      Replaced engine after key
        ((engine.cache.get? key).map fun previous => ArtifactCache.aged previous diagnostic uses)
        (some ((engine.cache.get? key).elim uses fun previous => uses.union previous.uses)) := by
  simp only [keep, perform_bind, perform_modify, perform_get]
  cases held : engine.cache.get? key with
  | none =>
      rw [ArtifactCache.markStale_of_absent held]
      exact ⟨_, rfl, rfl, .of_absent held rfl rfl (fun _ => Dependencies.usesOf?_record)
        fun consistent => consistent.record key uses⟩
  | some previous =>
      rw [ArtifactCache.markStale_of_held held]
      simp only [EngineM.tell, EngineM.ofStore, perform_bind, perform_modify, perform_get,
        perform_pure, Store.replaceArtifact]
      have sameKey : engine.Backed → (ArtifactCache.aged previous diagnostic uses).key = key :=
        fun backed => backed.keyed key previous held
      refine ⟨_, rfl, rfl, .of_put sameKey rfl ?_ _⟩
      exact le_refl engine.cache.nextGeneration

theorem perform_invalidate (uses : Uses) :
    ∃ after, engine.perform (invalidate key uses) = (.ok (), after) ∧
      after.cache.nextGeneration = engine.cache.nextGeneration ∧
      Replaced engine after key none (some uses) := by
  have record : engine.dependencies.Consistent → (engine.dependencies.record key uses).Consistent :=
    fun consistent => consistent.record key uses
  simp only [invalidate, perform_bind, perform_modify, perform_get]
  cases held : engine.cache.get? key with
  | none =>
      have counted : engine.cache.recordFailure.get? key = none := held
      rw [ArtifactCache.remove_of_absent counted]
      exact ⟨_, rfl, rfl, .of_absent held rfl rfl (fun _ => Dependencies.usesOf?_record) record⟩
  | some artifact =>
      have counted : engine.cache.recordFailure.get? key = some artifact := held
      rw [ArtifactCache.remove_of_held counted, Option.isSome_some, if_pos rfl]
      simp only [EngineM.tell, EngineM.ofStore, perform_bind, perform_modify, perform_get,
        perform_pure, Store.removeArtifact]
      exact ⟨_, rfl, rfl, .of_taken rfl rfl (fun _ => Dependencies.usesOf?_record) record⟩

/-- The outcome of a build answers the slot of its key, by the policy of the engine. -/
theorem perform_applyOutcome (direct : Bool) (outcome : Outcome) :
    ∃ report after, engine.perform (applyOutcome key direct outcome) = (.ok report, after) ∧
      Settling engine after (answerAt engine.config.failurePolicy key outcome) := by
  cases outcome with
  | built code uses =>
      rcases perform_install engine key code uses with ⟨after, performed, _, replaced⟩
      exact ⟨_, after, performed, replaced.settling rfl⟩
  | unresolved =>
      rcases perform_drop engine key with ⟨after, performed, _, replaced⟩
      exact ⟨_, after, performed, replaced.settling rfl⟩
  | failed diagnostic uses =>
      simp only [applyOutcome, perform_bind, perform_get]
      cases policy : engine.config.failurePolicy with
      | keepLastGood =>
          rcases perform_keep engine key diagnostic uses with ⟨after, performed, _, replaced⟩
          refine ⟨_, after, perform_bind_ok engine performed, replaced.settling ?_⟩
          rw [slot]
          cases engine.cache.get? key with
          | none => rfl
          | some previous => rfl
      | invalidate =>
          rcases perform_invalidate engine key uses with ⟨after, performed, _, replaced⟩
          exact ⟨_, after, perform_bind_ok engine performed, replaced.settling rfl⟩

/-! ## Many outcomes -/

/-- Commands given in turn answer slots in turn. -/
theorem perform_reportEach {Item : Type} {command : Item → EngineM MemoryStore CascadeReport}
    {policy : FailurePolicy} {answer : Item → ArtifactKey → Slot → Slot}
    (each : ∀ item, ∀ engine : Engine MemoryStore, engine.config.failurePolicy = policy →
      ∃ report after, engine.perform (command item) = (.ok report, after) ∧
        Settling engine after (answer item)) (items : List Item) :
    ∀ engine : Engine MemoryStore, engine.config.failurePolicy = policy →
      ∃ report after, engine.perform (reportEach command items) = (.ok report, after) ∧
        Settling engine after fun key slot =>
          items.foldl (fun slot item => answer item key slot) slot := by
  induction items with
  | nil =>
      intro engine _
      exact ⟨_, engine, rfl, Settling.refl engine⟩
  | cons item rest inductionHypothesis =>
      intro engine samePolicy
      rcases each item engine samePolicy with ⟨first, between, performed, settling⟩
      have stillPolicy : between.config.failurePolicy = policy := by
        rw [settling.config_eq, samePolicy]
      rcases inductionHypothesis between stillPolicy with ⟨others, after, restPerformed, restSettling⟩
      refine ⟨first ++ others, after, ?_, settling.trans restSettling⟩
      rw [reportEach, perform_bind_ok engine performed, perform_bind_ok between restPerformed,
        perform_pure]

theorem foldl_drop (policy : FailurePolicy) (keys : List ArtifactKey) (key : ArtifactKey)
    (slot : Slot) :
    keys.foldl (fun slot dropped => answerAt policy dropped .unresolved key slot) slot =
      if key ∈ keys then Slot.empty else slot := by
  induction keys generalizing slot with
  | nil => rfl
  | cons dropped rest inductionHypothesis =>
      rw [List.foldl_cons, inductionHypothesis]
      by_cases same : key = dropped
      · simp [answerAt, same, Slot.answer]
      · simp [answerAt, same]

/-- Dropping keys empties their slots. -/
theorem perform_dropAll (keys : List ArtifactKey) :
    ∃ report after, engine.perform (reportEach drop keys) = (.ok report, after) ∧
      Settling engine after fun key slot => if key ∈ keys then Slot.empty else slot := by
  have each : ∀ key, ∀ other : Engine MemoryStore,
      other.config.failurePolicy = engine.config.failurePolicy →
      ∃ report after, other.perform (drop key) = (.ok report, after) ∧
        Settling other after (answerAt engine.config.failurePolicy key .unresolved) := by
    intro key other _
    rcases perform_drop other key with ⟨after, performed, _, replaced⟩
    exact ⟨_, after, performed, replaced.settling rfl⟩
  rcases perform_reportEach each keys engine rfl with ⟨report, after, performed, settling⟩
  exact ⟨report, after, performed, settling.congr fun key slot => foldl_drop _ keys key slot⟩

/-- What is built for some keys, each with an outcome. -/
theorem foldl_outcomes (policy : FailurePolicy) (outcomeOf : ArtifactKey → Outcome)
    {targets : List (ArtifactKey × Bool)} (distinct : (targets.map Prod.fst).Nodup)
    (key : ArtifactKey) (slot : Slot) :
    (targets.map fun target => (target.1, target.2, outcomeOf target.1)).foldl
        (fun slot built => answerAt policy built.1 built.2.2 key slot) slot =
      if key ∈ targets.map Prod.fst then slot.answer policy key (outcomeOf key) else slot := by
  induction targets generalizing slot with
  | nil => rfl
  | cons target rest inductionHypothesis =>
      rw [List.map_cons, List.nodup_cons] at distinct
      rw [List.map_cons, List.map_cons, List.foldl_cons, inductionHypothesis distinct.2]
      by_cases same : key = target.1
      · subst same
        simp [answerAt, distinct.1]
      · simp [answerAt, same]

/--
Building targets never fails.  The slot of every target is answered with the outcome that the engine's
state gives, and all others stay.
-/
theorem perform_buildTargets (targets : Targets) :
    ∃ report after, engine.perform (buildTargets targets) = (.ok report, after) ∧
      Settling engine after fun key slot =>
        (engine.inputs.buildAll targets.toList).1.foldl
          (fun slot built => answerAt engine.config.failurePolicy built.1 built.2.2 key slot) slot := by
  rcases outcome : engine.inputs.buildAll targets.toList with ⟨built, memo⟩
  have learned : Settling engine { engine with memo := memo } fun _ slot => slot := by
    refine ⟨rfl, rfl, rfl, rfl, fun sound => ?_, id, fun backed => ?_, fun _ => rfl⟩
    · have soundAll := engine.inputs.buildAll_sound sound targets.toList
      rwa [outcome] at soundAll
    · exact ⟨backed.stored, backed.keyed, backed.consistent⟩
  have each : ∀ item : ArtifactKey × Bool × Outcome, ∀ other : Engine MemoryStore,
      other.config.failurePolicy = engine.config.failurePolicy →
      ∃ report after,
        other.perform (applyOutcome item.1 item.2.1 item.2.2) = (.ok report, after) ∧
        Settling other after (answerAt engine.config.failurePolicy item.1 item.2.2) := by
    intro item other samePolicy
    rw [← samePolicy]
    exact perform_applyOutcome other item.1 item.2.1 item.2.2
  rcases perform_reportEach each built { engine with memo := memo } rfl with
    ⟨report, after, performed, settling⟩
  refine ⟨report, after, ?_, learned.trans settling⟩
  simp only [buildTargets, perform_bind, perform_get, outcome, perform_modify]
  exact performed

theorem perform_buildTargets_builtIn (builtIn : engine.registry = Compile.Registry.builtIn)
    (sound : engine.memo.Sound engine.store) (targets : Targets) :
    ∃ report after, engine.perform (buildTargets targets) = (.ok report, after) ∧
      Settling engine after fun key slot =>
        if key ∈ targets then
          slot.answer engine.config.failurePolicy key (fresh engine.store engine.scheme key)
        else slot := by
  rcases perform_buildTargets engine targets with ⟨report, after, performed, settling⟩
  refine ⟨report, after, performed, settling.congr fun key slot => ?_⟩
  have outcomes := engine.inputs.buildAll_eq_map builtIn sound targets.toList
  have keys : targets.toList.map Prod.fst = targets.keys := Std.ExtTreeMap.map_fst_toList_eq_keys
  have folded := foldl_outcomes engine.config.failurePolicy (fresh engine.store engine.scheme)
    (keys ▸ nodup_keys targets) key slot
  rw [outcomes]
  simp only [keys, Std.ExtTreeMap.mem_keys] at folded
  exact folded

end Engine
end TemplateCascade

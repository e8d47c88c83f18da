import Mathlib
import TemplateCascade.Proofs.Engine.Advancing

namespace TemplateCascade

/-!
# What reports say

A report is read key by key: the part of it that is about one key.  Applying the outcome of a build has a
fate in store for its key, and the report says which; no other key is touched or mentioned.  So it is for
many outcomes in turn, as long as no key comes twice.

Generations are drawn in sequence, so a new artifact has a later one than any that is there.
-/

open Compile (Diagnostic Uses)
open Markup (ParseMemo)

/-! ## The part of a report that is about a key -/

namespace CascadeReport

variable (report first second : CascadeReport) (key : ArtifactKey)

/-- What a report says of one key. -/
def about : CascadeReport :=
  ⟨report.recompiled.filter fun built => built.1 == key,
    report.removed.filter fun removed => removed == key,
    report.failures.filter fun failure => failure.key == key⟩

/-- The keys that a report lists, each as often as it is listed. -/
def keys : List ArtifactKey :=
  report.recompiled.map Prod.fst ++ report.removed ++ report.failures.map CascadeFailure.key

@[simp]
theorem empty_append : CascadeReport.empty ++ report = report := rfl

@[simp]
theorem append_empty : report ++ CascadeReport.empty = report := by
  change append report CascadeReport.empty = report
  rw [append, empty, List.append_nil, List.append_nil, List.append_nil]

@[simp]
theorem about_empty : CascadeReport.empty.about key = CascadeReport.empty := rfl

@[simp]
theorem about_append : (first ++ second).about key = first.about key ++ second.about key := by
  change about (append first second) key = append (first.about key) (second.about key)
  simp only [about, append, List.filter_append]

theorem mem_recompiled_iff {generation : Nat} :
    (key, generation) ∈ report.recompiled ↔ (key, generation) ∈ (report.about key).recompiled := by
  simp [about]

theorem mem_removed_iff : key ∈ report.removed ↔ key ∈ (report.about key).removed := by
  simp [about]

theorem mem_failures_iff {failure : CascadeFailure} :
    failure ∈ report.failures ∧ failure.key = key ↔ failure ∈ (report.about key).failures := by
  simp [about]

/-- A report is about one key. -/
structure Only : Prop where
  about_self : report.about key = report
  about_other : ∀ other, other ≠ key → report.about other = CascadeReport.empty

theorem only_empty : CascadeReport.empty.Only key :=
  ⟨rfl, fun _ _ => rfl⟩

variable {key}

theorem only_built {generation : Nat} : Only ⟨[(key, generation)], [], []⟩ key :=
  ⟨by simp [about], fun other different => by simp [about, empty, Ne.symm different]⟩

theorem only_removed : Only ⟨[], [key], []⟩ key :=
  ⟨by simp [about], fun other different => by simp [about, empty, Ne.symm different]⟩

theorem only_failed {diagnostic : Diagnostic} {direct : Bool} :
    Only ⟨[], [], [⟨key, diagnostic, direct⟩]⟩ key :=
  ⟨by simp [about], fun other different => by simp [about, empty, Ne.symm different]⟩

variable (key)

/-- A key is listed as often as there are entries about it. -/
theorem count_keys : report.keys.count key =
    (report.about key).recompiled.length + (report.about key).removed.length +
      (report.about key).failures.length := by
  have counted : ∀ {Item : Type} (keyOf : Item → ArtifactKey) (items : List Item),
      (items.map keyOf).count key = (items.filter fun item => keyOf item == key).length := by
    intro Item keyOf items
    rw [List.count, List.countP_map, List.countP_eq_length_filter]
    rfl
  have plain := counted id report.removed
  rw [List.map_id] at plain
  rw [keys, List.count_append, List.count_append, counted, counted, plain]
  rfl

end CascadeReport

/-! ## Outcomes of what is stored -/

namespace Engine

/-- What building a key gives when nothing is remembered, whatever functions the engine knows. -/
def outcome (engine : Engine MemoryStore) (key : ArtifactKey) : Outcome :=
  BuildInputs.build ⟨engine.store, engine.scheme, engine.registry, ParseMemo.empty⟩ key

theorem outcome_eq_unresolved_iff {engine : Engine MemoryStore} {key : ArtifactKey} :
    engine.outcome key = .unresolved ↔ own? engine.store engine.scheme key = none :=
  BuildInputs.build_eq_unresolved_iff (ParseMemo.sound_empty engine.store)

theorem outcome_eq_of_definitions {engine other : Engine MemoryStore}
    (definitions : other.store.definitions = engine.store.definitions)
    (scheme : other.scheme = engine.scheme) (registry : other.registry = engine.registry)
    (key : ArtifactKey) : other.outcome key = engine.outcome key :=
  BuildInputs.build_eq_of_definitions (ParseMemo.sound_empty engine.store)
    (ParseMemo.sound_empty other.store) definitions scheme registry key

/-! ## The fate of a key -/

variable {before between after : Engine MemoryStore} {key : ArtifactKey} {outcome later : Outcome}
  {report first second : CascadeReport}

/-- What applying an outcome has done with its key, and what the report says of the key. -/
inductive Fate (before after : Engine MemoryStore) (key : ArtifactKey) :
    Outcome → CascadeReport → Prop where
  | built {code : Code} {uses : Uses} {generation : Nat}
      (isNew : before.cache.nextGeneration ≤ generation)
      (drawn : generation < after.cache.nextGeneration)
      (held : after.artifact? key = some ⟨key, code, generation, .current, uses⟩)
      (recorded : after.dependencies.usesOf? key = some uses) :
      Fate before after key (.built code uses) ⟨[(key, generation)], [], []⟩
  | aged {diagnostic : Diagnostic} {uses : Uses} {previous : Artifact} (direct : Bool)
      (was : before.artifact? key = some previous)
      (held : after.artifact? key = some (ArtifactCache.aged previous diagnostic uses))
      (recorded : after.dependencies.usesOf? key = some (uses.union previous.uses)) :
      Fate before after key (.failed diagnostic uses) ⟨[], [], [⟨key, diagnostic, direct⟩]⟩
  | missed {diagnostic : Diagnostic} {uses : Uses} (direct : Bool)
      (held : after.artifact? key = none)
      (recorded : after.dependencies.usesOf? key = some uses) :
      Fate before after key (.failed diagnostic uses) ⟨[], [], [⟨key, diagnostic, direct⟩]⟩
  | dropped (was : before.artifact? key ≠ none) (held : after.artifact? key = none)
      (recorded : after.dependencies.usesOf? key = none) :
      Fate before after key .unresolved ⟨[], [key], []⟩
  | absent (was : before.artifact? key = none) (held : after.artifact? key = none)
      (recorded : after.dependencies.usesOf? key = none) :
      Fate before after key .unresolved CascadeReport.empty

/-- Nothing has been done with a key, and nothing is said of it. -/
structure Spared (before after : Engine MemoryStore) (key : ArtifactKey) (report : CascadeReport) :
    Prop where
  held : after.artifact? key = before.artifact? key
  recorded : after.dependencies.usesOf? key = before.dependencies.usesOf? key
  silent : report = CascadeReport.empty

/-- The generation of what is held under a key has been drawn. -/
def DatedAt (engine : Engine MemoryStore) (key : ArtifactKey) : Prop :=
  ∀ artifact, engine.artifact? key = some artifact →
    artifact.generation < engine.cache.nextGeneration

/-- What is held under a key is on record with the names it depends on. -/
def RecordedAt (engine : Engine MemoryStore) (key : ArtifactKey) : Prop :=
  ∀ artifact, engine.artifact? key = some artifact →
    engine.dependencies.usesOf? key = some artifact.uses

/-- Two engines hold the same artifacts, and have the same on record. -/
structure HoldsAs (engine other : Engine MemoryStore) : Prop where
  cache_eq : other.cache = engine.cache
  dependencies_eq : other.dependencies = engine.dependencies

/-- What is done besides the artifacts spares every key. -/
theorem HoldsAs.spared (same : HoldsAs before after) (key : ArtifactKey) :
    Spared before after key CascadeReport.empty :=
  ⟨by rw [artifact?, same.cache_eq, artifact?], by rw [same.dependencies_eq], rfl⟩

namespace Spared

theorem trans (spared : Spared before between key first) (next : Spared between after key second) :
    Spared before after key (first ++ second) :=
  ⟨next.held.trans spared.held, next.recorded.trans spared.recorded,
    by rw [spared.silent, next.silent, CascadeReport.empty_append]⟩

/-- A key that was spared before has the fate that comes then. -/
theorem fate (spared : Spared before between key first)
    (drawn : before.cache.nextGeneration ≤ between.cache.nextGeneration)
    (next : Fate between after key outcome second) : Fate before after key outcome (first ++ second) := by
  rw [spared.silent, CascadeReport.empty_append]
  cases next with
  | built isNew isDrawn held recorded => exact .built (drawn.trans isNew) isDrawn held recorded
  | aged direct was held recorded => exact .aged direct (spared.held ▸ was) held recorded
  | missed direct held recorded => exact .missed direct held recorded
  | dropped was held recorded => exact .dropped (spared.held ▸ was) held recorded
  | absent was held recorded => exact .absent (spared.held ▸ was) held recorded

theorem datedAt (spared : Spared before after key report)
    (drawn : before.cache.nextGeneration ≤ after.cache.nextGeneration) (dated : before.DatedAt key) :
    after.DatedAt key := by
  intro artifact holds
  rw [spared.held] at holds
  exact (dated artifact holds).trans_le drawn

theorem recordedAt (spared : Spared before after key report) (recorded : before.RecordedAt key) :
    after.RecordedAt key := by
  intro artifact holds
  rw [spared.held] at holds
  rw [spared.recorded]
  exact recorded artifact holds

end Spared

namespace Fate

/-- A fate stays as it is when the key is spared afterwards. -/
theorem spared (fate : Fate before between key outcome first) (next : Spared between after key second)
    (drawn : between.cache.nextGeneration ≤ after.cache.nextGeneration) :
    Fate before after key outcome (first ++ second) := by
  rw [next.silent, CascadeReport.append_empty]
  cases fate with
  | built isNew isDrawn held recorded =>
      exact .built isNew (isDrawn.trans_le drawn) (next.held.trans held) (next.recorded.trans recorded)
  | aged direct was held recorded =>
      exact .aged direct was (next.held.trans held) (next.recorded.trans recorded)
  | missed direct held recorded => exact .missed direct (next.held.trans held) (next.recorded.trans recorded)
  | dropped was held recorded => exact .dropped was (next.held.trans held) (next.recorded.trans recorded)
  | absent was held recorded => exact .absent was (next.held.trans held) (next.recorded.trans recorded)

/-- What there is nothing to build for is not held afterwards. -/
theorem held_eq_none (fate : Fate before after key .unresolved report) : after.artifact? key = none := by
  cases fate with
  | dropped _ held _ => exact held
  | absent _ held _ => exact held

/-- What has been dropped stays away when there is nothing to build. -/
theorem dropped_again (fate : Fate before between key .unresolved first)
    (next : Fate between after key .unresolved second) :
    Fate before after key .unresolved (first ++ second) := by
  cases next with
  | dropped was _ _ => exact absurd fate.held_eq_none was
  | absent _ held recorded =>
      rw [CascadeReport.append_empty]
      cases fate with
      | dropped was _ _ => exact .dropped was held recorded
      | absent was _ _ => exact .absent was held recorded

/-- What is held afterwards is what was built, or what was held before and has aged. -/
theorem datedAt (fate : Fate before after key outcome report) (dated : before.DatedAt key)
    (drawn : before.cache.nextGeneration ≤ after.cache.nextGeneration) : after.DatedAt key := by
  intro artifact holds
  cases fate with
  | built _ isDrawn held _ =>
      rw [held, Option.some.injEq] at holds
      exact holds ▸ isDrawn
  | aged _ was held _ =>
      rw [held, Option.some.injEq] at holds
      exact holds ▸ (dated _ was).trans_le drawn
  | missed _ held _ => exact nomatch held.symm.trans holds
  | dropped _ held _ => exact nomatch held.symm.trans holds
  | absent _ held _ => exact nomatch held.symm.trans holds

theorem recordedAt (fate : Fate before after key outcome report) : after.RecordedAt key := by
  intro artifact holds
  cases fate with
  | built _ _ held recorded =>
      rw [held, Option.some.injEq] at holds
      exact holds ▸ recorded
  | aged _ _ held recorded =>
      rw [held, Option.some.injEq] at holds
      exact holds ▸ recorded
  | missed _ held _ => exact nomatch held.symm.trans holds
  | dropped _ held _ => exact nomatch held.symm.trans holds
  | absent _ held _ => exact nomatch held.symm.trans holds

end Fate

/-! ## Passes -/

/-- Some keys have had the fates that their outcomes hold, and all others have been spared. -/
structure Pass (before after : Engine MemoryStore) (report : CascadeReport)
    (outcomeOf : ArtifactKey → Option Outcome) : Prop where
  drawn : before.cache.nextGeneration ≤ after.cache.nextGeneration
  spared : ∀ key, outcomeOf key = none → Spared before after key (report.about key)
  fate : ∀ key outcome, outcomeOf key = some outcome →
    Fate before after key outcome (report.about key)

namespace Pass

variable {outcomeOf laterOf : ArtifactKey → Option Outcome}

/-- Where the artifacts and the record are as before, nothing is to be said. -/
theorem silent (same : HoldsAs before after) : Pass before after CascadeReport.empty fun _ => none :=
  ⟨by rw [same.cache_eq], fun key _ => same.spared key, nofun⟩

theorem congr (pass : Pass before after report outcomeOf) (same : ∀ key, outcomeOf key = laterOf key) :
    Pass before after report laterOf :=
  ⟨pass.drawn, fun key none => pass.spared key ((same key).trans none),
    fun key outcome isOutcome => pass.fate key outcome ((same key).trans isOutcome)⟩

/-- Passes over different keys are one pass. -/
theorem trans (pass : Pass before between first outcomeOf) (next : Pass between after second laterOf)
    (apart : ∀ key, outcomeOf key = none ∨ laterOf key = none) :
    Pass before after (first ++ second) fun key => (outcomeOf key).or (laterOf key) := by
  refine ⟨pass.drawn.trans next.drawn, fun key neither => ?_, fun key outcome isOutcome => ?_⟩
  · rw [Option.or_eq_none_iff] at neither
    rw [CascadeReport.about_append]
    exact (pass.spared key neither.1).trans (next.spared key neither.2)
  · rw [CascadeReport.about_append]
    rcases apart key with none | none
    · rw [none, Option.none_or] at isOutcome
      exact (pass.spared key none).fate pass.drawn (next.fate key outcome isOutcome)
    · rw [none, Option.or_none] at isOutcome
      exact (pass.fate key outcome isOutcome).spared (next.spared key none) next.drawn

/-- What is done besides the artifacts does not count, before a pass and behind it. -/
theorem of_same {start last : Engine MemoryStore} (pass : Pass before after report outcomeOf)
    (fromStart : HoldsAs start before) (toLast : HoldsAs after last) :
    Pass start last report outcomeOf := by
  have onwards := (silent fromStart).trans pass fun _ => Or.inl rfl
  have whole := onwards.trans (silent toLast) fun _ => Or.inr rfl
  rw [CascadeReport.empty_append, CascadeReport.append_empty] at whole
  exact whole.congr fun key => by rw [Option.or_none, Option.none_or]

theorem datedAt (pass : Pass before after report outcomeOf) (dated : before.DatedAt key) :
    after.DatedAt key := by
  cases isOutcome : outcomeOf key with
  | some outcome => exact (pass.fate key outcome isOutcome).datedAt dated pass.drawn
  | none => exact (pass.spared key isOutcome).datedAt pass.drawn dated

theorem recordedAt (pass : Pass before after report outcomeOf) (recorded : before.RecordedAt key) :
    after.RecordedAt key := by
  cases isOutcome : outcomeOf key with
  | some outcome => exact (pass.fate key outcome isOutcome).recordedAt
  | none => exact (pass.spared key isOutcome).recordedAt recorded

/-- A pass over one key. -/
theorem single (drawn : before.cache.nextGeneration ≤ after.cache.nextGeneration)
    (others : ∀ other, other ≠ key → Spared before after other (report.about other))
    (fate : Fate before after key outcome (report.about key)) :
    Pass before after report fun other => if other = key then some outcome else none := by
  refine ⟨drawn, fun other notKey => others other fun same => ?_, fun other found isOutcome => ?_⟩
  · rw [if_pos same] at notKey
    cases notKey
  · split at isOutcome
    · next same =>
        rw [Option.some.injEq] at isOutcome
        subst same isOutcome
        exact fate
    · cases isOutcome

end Pass

/-! ## One outcome -/

namespace Replaced

variable {held : Option Artifact} {recorded : Option Uses}
  (replaced : Replaced before after key held recorded)

include replaced

theorem held_self : after.artifact? key = held :=
  (replaced.held_eq key).trans (if_pos rfl)

theorem recorded_self : after.dependencies.usesOf? key = recorded :=
  (replaced.recorded_eq key).trans (if_pos rfl)

/-- Where one key has had its fate and the report is about no other, there was a pass over it. -/
theorem pass (only : report.Only key) (fate : Fate before after key outcome report) :
    Pass before after report fun other => if other = key then some outcome else none := by
  refine Pass.single replaced.drawn (fun other different => ⟨?_, ?_, only.about_other other different⟩)
    (only.about_self.symm ▸ fate)
  · exact (replaced.held_eq other).trans (if_neg different)
  · exact (replaced.recorded_eq other).trans (if_neg different)

end Replaced

section

variable (engine : Engine MemoryStore)

theorem pass_drop (performed : engine.perform (drop key) = (.ok report, after)) :
    Pass engine after report fun other => if other = key then some .unresolved else none := by
  rcases perform_drop engine key with ⟨_, isPerformed, _, replaced⟩
  have held := replaced.held_self
  have recorded := replaced.recorded_self
  rw [isPerformed] at performed
  cases was : engine.cache.get? key with
  | none =>
      rw [was] at performed
      cases performed
      exact replaced.pass (CascadeReport.only_empty key) (.absent was held recorded)
  | some artifact =>
      rw [was] at performed
      cases performed
      refine replaced.pass CascadeReport.only_removed (.dropped (fun gone => ?_) held recorded)
      exact nomatch was.symm.trans gone

/-- Applying an outcome is a pass over its key. -/
theorem pass_applyOutcome {direct : Bool}
    (performed : engine.perform (applyOutcome key direct outcome) = (.ok report, after)) :
    Pass engine after report fun other => if other = key then some outcome else none := by
  cases outcome with
  | built code uses =>
      rcases perform_install engine key code uses with ⟨_, isPerformed, drawn, replaced⟩
      cases isPerformed.symm.trans performed
      exact replaced.pass CascadeReport.only_built
        (.built (le_refl _) (drawn ▸ Nat.lt_succ_self _) replaced.held_self replaced.recorded_self)
  | unresolved => exact pass_drop engine performed
  | failed diagnostic uses =>
      simp only [applyOutcome, perform_bind, perform_get] at performed
      cases policy : engine.config.failurePolicy with
      | keepLastGood =>
          rcases perform_keep engine key diagnostic uses with ⟨_, isPerformed, _, replaced⟩
          have held := replaced.held_self
          have recorded := replaced.recorded_self
          simp only [policy, perform_bind, isPerformed, perform_pure] at performed
          cases performed
          refine replaced.pass CascadeReport.only_failed ?_
          cases was : engine.cache.get? key with
          | none =>
              rw [was] at held recorded
              exact .missed direct held recorded
          | some previous =>
              rw [was] at held recorded
              exact .aged direct was held recorded
      | invalidate =>
          rcases perform_invalidate engine key uses with ⟨_, isPerformed, _, replaced⟩
          simp only [policy, perform_bind, isPerformed, perform_pure] at performed
          cases performed
          exact replaced.pass CascadeReport.only_failed
            (.missed direct replaced.held_self replaced.recorded_self)

/-! ## Many outcomes -/

/-- Commands over different keys, given in turn, are a pass over their keys. -/
theorem pass_reportEach {Item : Type} {command : Item → EngineM MemoryStore CascadeReport}
    (keyOf : Item → ArtifactKey) (outcomeOf : ArtifactKey → Outcome) {items : List Item}
    (each : ∀ item ∈ items, ∀ (engine : Engine MemoryStore) {report after},
      engine.perform (command item) = (.ok report, after) →
      Pass engine after report fun other =>
        if other = keyOf item then some (outcomeOf (keyOf item)) else none)
    (distinct : (items.map keyOf).Nodup)
    (performed : engine.perform (reportEach command items) = (.ok report, after)) :
    Pass engine after report fun key =>
      if key ∈ items.map keyOf then some (outcomeOf key) else none := by
  induction items generalizing engine report with
  | nil =>
      rw [reportEach, perform_pure, Prod.mk.injEq, Except.ok.injEq] at performed
      rcases performed with ⟨rfl, rfl⟩
      exact (Pass.silent ⟨rfl, rfl⟩).congr fun key => (if_neg List.not_mem_nil).symm
  | cons item rest inductionHypothesis =>
      rw [List.map_cons, List.nodup_cons] at distinct
      rw [reportEach] at performed
      rcases exists_of_perform_bind engine performed with ⟨first, between, done, performed⟩
      rcases exists_of_perform_bind between performed with ⟨others, last, restDone, performed⟩
      rw [perform_pure, Prod.mk.injEq, Except.ok.injEq] at performed
      rcases performed with ⟨rfl, rfl⟩
      have pass := each item List.mem_cons_self engine done
      have passes := inductionHypothesis between
        (fun other member => each other (List.mem_cons_of_mem item member)) distinct.2 restDone
      -- No later item has the first one's key, so every key is left alone by the one or by the others.
      refine (pass.trans passes fun key => ?_).congr fun key => ?_
      · by_cases same : key = keyOf item
        · exact Or.inr (if_neg (same ▸ distinct.1))
        · exact Or.inl (if_neg same)
      · by_cases same : key = keyOf item
        · simp [same]
        · simp [same]

/-- Dropping different keys is a pass over them. -/
theorem pass_dropAll {keys : List ArtifactKey} (distinct : keys.Nodup)
    (performed : engine.perform (reportEach drop keys) = (.ok report, after)) :
    Pass engine after report fun key => if key ∈ keys then some .unresolved else none := by
  have pass := pass_reportEach engine id (fun _ => .unresolved)
    (fun key _ engine {_ _} performed => pass_drop engine performed) (by rwa [List.map_id]) performed
  rwa [List.map_id] at pass

/-- Building targets is a pass over them, with the outcomes that what is stored gives. -/
theorem pass_buildTargets (sound : engine.memo.Sound engine.store) {targets : Targets}
    (performed : engine.perform (buildTargets targets) = (.ok report, after)) :
    Pass engine after report fun key =>
      if key ∈ targets then some (engine.outcome key) else none := by
  rcases built : engine.inputs.buildAll targets.toList with ⟨outcomes, memo⟩
  have isOutcomes := @BuildInputs.buildAll_eq_of_sound engine.inputs sound targets.toList
  rw [built] at isOutcomes
  dsimp only at isOutcomes
  have keys : outcomes.map Prod.fst = targets.keys := by
    rw [isOutcomes, List.map_map, ← Std.ExtTreeMap.map_fst_toList_eq_keys]
    rfl
  simp only [buildTargets, perform_bind, perform_get, built, perform_modify] at performed
  have pass := pass_reportEach { engine with memo := memo } Prod.fst engine.outcome
    (fun item member other {_ _} applied => ?_) (keys ▸ nodup_keys targets) performed
  · rw [keys] at pass
    simp only [Std.ExtTreeMap.mem_keys] at pass
    exact pass.of_same ⟨rfl, rfl⟩ ⟨rfl, rfl⟩
  · rw [isOutcomes, List.mem_map] at member
    rcases member with ⟨target, _, rfl⟩
    exact pass_applyOutcome other applied

end

end Engine
end TemplateCascade

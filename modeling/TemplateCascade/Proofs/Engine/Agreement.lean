import Mathlib
import TemplateCascade.Proofs.Engine.Opening

namespace TemplateCascade
namespace Engine

/-!
# Agreement with a rebuild

An engine that has been opened over a store without artifacts, rebuilt and then edited holds for every
key what building the key from scratch gives.  Where that fails, nothing is held, or what the last
successful build has left, marked with the failure.  So rebuilding changes nothing but generations.

The invariant along the edits is that every slot is settled; what is held is also compared with the code
of the last state in which the key could be built.
-/

open Compile (Registry)

/-- The states of an engine from its first rebuild on, the latest first. -/
inductive Trail : List (Engine MemoryStore) → Prop where
  | rebuilt {config : Config} {store : MemoryStore} {opened engine : Engine MemoryStore}
      {report : CascadeReport} (constructed : store.Constructed) (bare : store.artifacts = ∅)
      (isOpened : ofStore config Registry.builtIn store = .ok opened)
      (performed : opened.perform rebuildAll = (.ok report, engine)) : Trail [engine]
  | edited {before after : Engine MemoryStore} {earlier : List (Engine MemoryStore)} {edit : Edit}
      {report : CascadeReport} (trail : Trail (before :: earlier))
      (performed : before.perform edit.command = (.ok report, after)) :
      Trail (after :: before :: earlier)

/-- The code of a build that did not fail. -/
def codeOf : Outcome → Option Code
  | .built code _ => some code
  | .failed _ _ => none
  | .unresolved => none

/-- The code of the last state in which a key could be built from scratch. -/
def lastCode (states : List (Engine MemoryStore)) (key : ArtifactKey) : Option Code :=
  states.findSome? fun engine => codeOf (engine.scratch key)

theorem lastCode_cons (engine : Engine MemoryStore) (earlier : List (Engine MemoryStore))
    (key : ArtifactKey) :
    lastCode (engine :: earlier) key = (codeOf (engine.scratch key)).or (lastCode earlier key) := by
  rw [lastCode, List.findSome?_cons]
  cases codeOf (engine.scratch key) <;> rfl

/-- What is held under a key agrees with building the key from scratch. -/
def Agrees (engine : Engine MemoryStore) (earlier : List (Engine MemoryStore)) (key : ArtifactKey) :
    Prop :=
  match engine.scratch key with
  | .built code uses =>
      ∃ artifact, engine.artifact? key = some artifact ∧ artifact.code = code ∧
        artifact.uses = uses ∧ artifact.status = .current
  | .failed diagnostic _ =>
      engine.artifact? key = none ∨
        (engine.config.failurePolicy = .keepLastGood ∧
          ∃ artifact, engine.artifact? key = some artifact ∧ artifact.status = .stale diagnostic ∧
            lastCode (engine :: earlier) key = some artifact.code)
  | .unresolved => engine.artifact? key = none

/-- Two engines hold the same but for generations, and have the same on record for what there should be. -/
structure SameHeld (first second : Engine MemoryStore) : Prop where
  scheme_eq : second.scheme = first.scheme
  held_eq : ∀ key, (second.artifact? key).map Artifact.undated =
    (first.artifact? key).map Artifact.undated
  uses_eq : ∀ key ∈ first.scheme.allKeys,
    second.dependencies.usesOf? key = first.dependencies.usesOf? key

/-- An engine is as if everything had just been built from scratch. -/
structure UpToDate (engine : Engine MemoryStore) (earlier : List (Engine MemoryStore)) : Prop where
  loaded : loadScheme engine.store = .ok engine.scheme
  held_wanted : ∀ key ∈ engine.cache.keys, key ∈ engine.scheme.allKeys
  agrees : ∀ key ∈ engine.scheme.allKeys, engine.scratch key ≠ .unresolved ∧ Agrees engine earlier key
  rebuilds : ∃ report after, engine.perform rebuildAll = (.ok report, after) ∧ SameHeld engine after

/-! ## Along a trail -/

variable {engine : Engine MemoryStore} {earlier : List (Engine MemoryStore)}

/-- What is held under a key has the code of the last state in which the key could be built. -/
def HoldsLast (engine : Engine MemoryStore) (earlier : List (Engine MemoryStore)) (key : ArtifactKey) :
    Prop :=
  ∀ artifact, (engine.slot key).held = some artifact →
    lastCode (engine :: earlier) key = some artifact.code

/-- An answer holds the new code, or what was held before a failure. -/
theorem holdsLast_of_heldAfter {policy : FailurePolicy} {key : ArtifactKey} {held : Option Artifact}
    (before : ∀ artifact, held = some artifact → lastCode earlier key = some artifact.code)
    (after : (engine.slot key).held = heldAfter policy key held (engine.scratch key)) :
    HoldsLast engine earlier key := by
  intro artifact isHeld
  rw [after] at isHeld
  rw [lastCode_cons]
  cases outcome : engine.scratch key with
  | built code uses =>
      rw [outcome, heldAfter, Slot.answer, Option.some.injEq] at isHeld
      rw [← isHeld]
      rfl
  | unresolved =>
      rw [outcome] at isHeld
      cases isHeld
  | failed diagnostic uses =>
      rw [outcome] at isHeld
      rw [codeOf, Option.none_or]
      cases policy with
      | invalidate => cases isHeld
      | keepLastGood =>
          cases held with
          | none => cases isHeld
          | some previous =>
              change some (ArtifactCache.aged previous diagnostic uses) = some artifact at isHeld
              rw [Option.some.injEq] at isHeld
              rw [before previous rfl, ← isHeld]
              rfl

/-- Along a trail the engine is in step with the store and every slot is settled. -/
structure Kept (engine : Engine MemoryStore) (earlier : List (Engine MemoryStore)) : Prop where
  inStep : engine.InStep
  settledAt : ∀ key, engine.SettledAt key
  holdsLast : ∀ key, HoldsLast engine earlier key

theorem kept_of_trail {states : List (Engine MemoryStore)} (trail : Trail states) :
    ∀ engine earlier, states = engine :: earlier → Kept engine earlier := by
  induction trail with
  | @rebuilt config store opened first report constructed bare isOpened performed =>
      rintro _ _ ⟨rfl, rfl⟩
      have isOpen := opened_of_ofStore constructed.wellFormed isOpened
      have loaded : loadScheme opened.store = .ok opened.scheme := isOpen.store_eq ▸ isOpen.loaded
      rcases exists_rebuilt isOpen.registry_eq isOpen.founded loaded with ⟨_, after, again, _, rebuilt⟩
      rw [performed, Prod.mk.injEq] at again
      rcases again with ⟨_, rfl⟩
      refine ⟨rebuilt.inStep, rebuilt.settledAt, fun key => ?_⟩
      have nothing : (opened.slot key).held = none := by
        rw [isOpen.slot_eq, bare, Std.ExtTreeMap.getElem?_empty, Option.map_none]
      apply holdsLast_of_heldAfter _ (rebuilt.held_eq key)
      intro artifact held
      rw [nothing] at held
      cases held
  | @edited before after older edit report trail performed inductionHypothesis =>
      rintro _ _ ⟨rfl, rfl⟩
      have kept := inductionHypothesis before older rfl
      have advances := edit_advances kept.inStep performed
      refine ⟨advances.inStep, fun key => advances.settledAt (kept.settledAt key), fun key => ?_⟩
      apply holdsLast_of_heldAfter _ (advances.held_eq (kept.settledAt key))
      exact kept.holdsLast key

/-! ## What is held -/

theorem held_eq_some_iff {key : ArtifactKey} {held : Artifact} :
    (engine.slot key).held = some held ↔
      ∃ artifact, engine.artifact? key = some artifact ∧ artifact.undated = held :=
  Option.map_eq_some_iff

theorem held_eq_none_iff {key : ArtifactKey} :
    (engine.slot key).held = none ↔ engine.artifact? key = none :=
  Option.map_eq_none_iff

/-- What a settled slot holds agrees with building from scratch. -/
theorem Kept.agrees (kept : Kept engine earlier) (key : ArtifactKey) : Agrees engine earlier key := by
  have settled := kept.settledAt key
  have holdsLast := kept.holdsLast key
  rw [SettledAt] at settled
  rw [HoldsLast] at holdsLast
  rw [Agrees]
  generalize outcomeIs : engine.scratch key = outcome at settled
  generalize slotIs : engine.slot key = slot at settled holdsLast
  have held : (engine.slot key).held = slot.held := congrArg Slot.held slotIs
  cases settled with
  | built code uses =>
      rcases held_eq_some_iff.mp held with ⟨artifact, isHeld, same⟩
      refine ⟨artifact, isHeld, ?_, ?_, ?_⟩
      · exact congrArg Artifact.code same
      · exact congrArg Artifact.uses same
      · exact congrArg Artifact.status same
  | failed diagnostic uses => exact .inl (held_eq_none_iff.mp held)
  | stale last diagnostic uses keeps isStale within =>
      rcases held_eq_some_iff.mp held with ⟨artifact, isHeld, same⟩
      subst same
      exact .inr ⟨keeps, artifact, isHeld, isStale, holdsLast artifact.undated rfl⟩
  | unresolved recorded => exact held_eq_none_iff.mp held

/-- Only what there is something to build for is held. -/
theorem SettledAt.resolved_of_held {key : ArtifactKey} (settled : engine.SettledAt key)
    (isHeld : engine.artifact? key ≠ none) : engine.scratch key ≠ .unresolved := by
  intro unresolved
  rw [SettledAt, unresolved] at settled
  apply isHeld
  rw [← held_eq_none_iff]
  generalize engine.slot key = slot at settled
  cases settled with
  | unresolved recorded => rfl

theorem mem_allKeys_iff_resolved {key : ArtifactKey} :
    key ∈ engine.scheme.allKeys ↔ engine.scratch key ≠ .unresolved := by
  rw [InheritanceScheme.mem_allKeys_iff engine.store, scratch, ne_eq, ne_eq, fresh_eq_unresolved_iff]

theorem mem_keys_iff {key : ArtifactKey} : key ∈ engine.cache.keys ↔ engine.artifact? key ≠ none := by
  rw [ArtifactCache.keys, Std.ExtTreeMap.mem_keys, Std.ExtTreeMap.mem_iff_isSome_getElem?,
    Option.isSome_iff_ne_none]
  rfl

/-- Rebuilding answers settled slots once more, which changes nothing. -/
theorem Kept.rebuilds (kept : Kept engine earlier) :
    ∃ report after, engine.perform rebuildAll = (.ok report, after) ∧ SameHeld engine after := by
  rcases exists_rebuilt kept.inStep.builtIn kept.inStep.founded kept.inStep.loaded with
    ⟨report, after, performed, sameScheme, rebuilt⟩
  have sameScratch : ∀ key, after.scratch key = engine.scratch key := by
    intro key
    have definitions : after.store.definitions = engine.store.definitions := by
      rw [rebuilt.store_eq]
    rw [scratch, sameScheme, fresh_of_definitions definitions]
    rfl
  have answered : ∀ key, after.slot key =
      (engine.slot key).answer engine.config.failurePolicy key (engine.scratch key) := by
    intro key
    rw [rebuilt.slot_eq, sameScratch]
    exact Slot.answer_congr rfl
  refine ⟨report, after, performed, sameScheme, fun key => ?_, fun key member => ?_⟩
  · have sameHeld := (kept.settledAt key).held_answer
    rw [← answered] at sameHeld
    exact sameHeld
  · have sameRecord := (kept.settledAt key).recorded_answer (mem_allKeys_iff_resolved.mp member)
    rw [← answered] at sameRecord
    exact sameRecord

/-- After any successful edits everything is as if it had just been built from scratch. -/
theorem upToDate_of_trail (trail : Trail (engine :: earlier)) : UpToDate engine earlier := by
  have kept := kept_of_trail trail engine earlier rfl
  refine ⟨kept.inStep.loaded, fun key isHeld => ?_, fun key member => ?_, kept.rebuilds⟩
  · apply mem_allKeys_iff_resolved.mpr
    exact (kept.settledAt key).resolved_of_held (mem_keys_iff.mp isHeld)
  · exact ⟨mem_allKeys_iff_resolved.mp member, kept.agrees key⟩

/-! ## A page that waits for its header -/

/-- A page that includes a header which there is not. -/
def pageStore : MemoryStore :=
  (MemoryStore.empty.define .template rootPosition "page"
    "<tpl:include template=\"header\"/>body").1

theorem constructed_pageStore : pageStore.Constructed :=
  .define .template rootPosition "page" _ .empty

def pageKey : ArtifactKey :=
  .template rootPosition rootPosition "page"

def openedPage : Engine MemoryStore :=
  (openedOver {} pageStore).get (by decide +kernel)

theorem ofStore_pageStore : ofStore {} Registry.builtIn pageStore = .ok openedPage :=
  ofStore_of_openedOver (Option.some_get _).symm

def waitingPage : Engine MemoryStore :=
  openedPage.afterwards rebuildAll

def saveHeader : Edit :=
  .saveTemplate rootPosition "header" "top "

def headedPage : Engine MemoryStore :=
  waitingPage.afterwards saveHeader.command

/-- The page is not built as long as there is no header, and it is built as soon as there is one. -/
theorem trail_headedPage : Trail [headedPage, waitingPage] := by
  have rebuilds : (openedPage.perform rebuildAll).1.isOk = true := by decide +kernel
  have saves : (waitingPage.perform saveHeader.command).1.isOk = true := by decide +kernel
  rcases exists_perform_ok openedPage rebuilds with ⟨_, rebuilt⟩
  rcases exists_perform_ok waitingPage saves with ⟨_, saved⟩
  have bare : pageStore.artifacts = ∅ := rfl
  exact .edited (.rebuilt constructed_pageStore bare ofStore_pageStore rebuilt) saved

theorem upToDate_headedPage :
    UpToDate headedPage [waitingPage] ∧ waitingPage.artifact? pageKey = none ∧
      (headedPage.artifact? pageKey).map Artifact.status = some .current := by
  refine ⟨upToDate_of_trail trail_headedPage, ?_, by decide +kernel⟩
  have isNone : (waitingPage.artifact? pageKey).isNone = true := by decide +kernel
  exact Option.isNone_iff_eq_none.mp isNone

end Engine
end TemplateCascade

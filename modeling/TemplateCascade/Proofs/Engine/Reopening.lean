import Mathlib
import TemplateCascade.Proofs.Engine.Agreement
import TemplateCascade.Proofs.Engine.Atomicity

namespace TemplateCascade

/-!
# Opening a store again

An engine that is opened over the store of another one has the same scheme and the same artifacts.  What
a build has asked for that failed and left no artifact is not stored, though, and is forgotten.  From then
on such a key is built when something else is in effect for its own name, and for nothing else.

How a key stands is followed along the edits of the engine that was not closed.  It decides for every key
whether both engines hold the same.
-/

open Compile (Registry)

/-- Whether a build has failed. -/
def Outcome.isFailure : Outcome → Bool
  | .built _ _ => false
  | .failed _ _ => true
  | .unresolved => false

/-- How a key stands with an engine that has been opened again. -/
inductive Standing where
  /-- The same is held. -/
  | same
  /-- Nothing is held, and nothing is on record. -/
  | forgotten
  /-- The key could not be built since, so that nothing is held. -/
  | bare
deriving DecidableEq, Repr

namespace Engine

/-- The engines that have been rebuilt and edited since. -/
inductive Tended : Engine MemoryStore → Prop where
  | rebuilt {before engine : Engine MemoryStore} {report : CascadeReport} (reached : Reached before)
      (builtIn : before.registry = Registry.builtIn)
      (performed : before.perform rebuildAll = (.ok report, engine)) : Tended engine
  | edited {before after : Engine MemoryStore} {edit : Edit} {report : CascadeReport}
      (tended : Tended before) (performed : before.perform edit.command = (.ok report, after)) :
      Tended after

/-- The states of an engine since another one has been opened over its store, the latest first, and the
other engine after the same edits. -/
inductive Reopened : List (Engine MemoryStore) → Engine MemoryStore → Prop where
  | opened {engine other : Engine MemoryStore} (tended : Tended engine)
      (isOpened : ofStore engine.config Registry.builtIn engine.store = .ok other) :
      Reopened [engine] other
  | edited {before after other otherAfter : Engine MemoryStore} {earlier : List (Engine MemoryStore)}
      {edit : Edit} {report otherReport : CascadeReport} (reopened : Reopened (before :: earlier) other)
      (performed : before.perform edit.command = (.ok report, after))
      (otherPerformed : other.perform edit.command = (.ok otherReport, otherAfter)) :
      Reopened (after :: before :: earlier) otherAfter

/-- How a key stands when the store is opened again. -/
def standingAtOpening (engine : Engine MemoryStore) (key : ArtifactKey) : Standing :=
  if (engine.artifact? key).isNone && (engine.scratch key).isFailure then .forgotten else .same

/-- How a key stands after an edit that has built it for both engines. -/
def standingAfterBuild (engine : Engine MemoryStore) (key : ArtifactKey) : Standing :=
  if (engine.scratch key).isFailure then .bare else .same

/-- How a key stands after an edit. -/
def standingAfter (before after : Engine MemoryStore) (key : ArtifactKey) : Standing → Standing
  | .same => .same
  | .forgotten =>
      if own? after.store after.scheme key = own? before.store before.scheme key then .forgotten
      else standingAfterBuild after key
  | .bare => standingAfterBuild after key

/-- How a key stands after the edits since the store has been opened again. -/
def standing (key : ArtifactKey) : List (Engine MemoryStore) → Standing
  | [] => .same
  | [engine] => standingAtOpening engine key
  | after :: before :: earlier => standingAfter before after key (standing key (before :: earlier))

/-! ## What both engines have in common -/

variable {engine other : Engine MemoryStore} {earlier : List (Engine MemoryStore)} {key : ArtifactKey}

/-- An engine that is tended is in step with its store, and every slot is settled. -/
theorem Tended.settledAt (tended : Tended engine) :
    engine.InStep ∧ ∀ key, engine.SettledAt key := by
  induction tended with
  | @rebuilt before engine report reached builtIn performed =>
      cases loaded : loadScheme before.store with
      | error error =>
          rw [perform_rebuildAll_error loaded] at performed
          cases performed
      | ok scheme =>
          rcases exists_rebuilt builtIn reached.founded loaded with ⟨_, after, again, _, rebuilt⟩
          rw [performed, Prod.mk.injEq] at again
          rcases again with ⟨_, rfl⟩
          exact ⟨rebuilt.inStep, rebuilt.settledAt⟩
  | edited tended performed inductionHypothesis =>
      have advances := edit_advances inductionHypothesis.1 performed
      exact ⟨advances.inStep, fun key => advances.settledAt (inductionHypothesis.2 key)⟩

/-- Two engines are in step with stores that differ in artifacts only. -/
structure Parallel (engine other : Engine MemoryStore) : Prop where
  inStep : engine.InStep
  otherInStep : other.InStep
  config_eq : other.config = engine.config
  contents_eq : other.store.contents = engine.store.contents

namespace Parallel

theorem scheme_eq (parallel : Parallel engine other) : other.scheme = engine.scheme := by
  have loaded := parallel.inStep.loaded
  have otherLoaded := parallel.otherInStep.loaded
  have same : loadScheme other.store = loadScheme engine.store := by
    change loadScheme other.store.contents = loadScheme engine.store.contents
    rw [parallel.contents_eq]
  rw [same, loaded, Except.ok.injEq] at otherLoaded
  exact otherLoaded.symm

theorem definitions_eq (parallel : Parallel engine other) :
    other.store.definitions = engine.store.definitions := by
  change other.store.contents.definitions = engine.store.contents.definitions
  rw [parallel.contents_eq]

theorem scratch_eq (parallel : Parallel engine other) (key : ArtifactKey) :
    other.scratch key = engine.scratch key := by
  rw [scratch, scratch, parallel.scheme_eq, fresh_of_definitions parallel.definitions_eq]

theorem own?_eq (parallel : Parallel engine other) (key : ArtifactKey) :
    own? other.store other.scheme key = own? engine.store engine.scheme key := by
  rw [parallel.scheme_eq, own?_of_definitions parallel.definitions_eq]

/-- They stay so under the same edits. -/
theorem edited {after otherAfter : Engine MemoryStore} {edit : Edit}
    {report otherReport : CascadeReport} (parallel : Parallel engine other)
    (performed : engine.perform edit.command = (.ok report, after))
    (otherPerformed : other.perform edit.command = (.ok otherReport, otherAfter)) :
    Parallel after otherAfter := by
  have advances := edit_advances parallel.inStep performed
  have otherAdvances := edit_advances parallel.otherInStep otherPerformed
  refine ⟨advances.inStep, otherAdvances.inStep, ?_, ?_⟩
  · rw [otherAdvances.config_eq, parallel.config_eq, advances.config_eq]
  · rw [edit_contents_eq parallel.inStep.founded performed,
      edit_contents_eq parallel.otherInStep.founded otherPerformed, parallel.scheme_eq,
      parallel.contents_eq]

end Parallel

/-! ## How a key stands -/

/-- The store of an engine can always be opened again. -/
theorem Tended.exists_reopened (tended : Tended engine) (valid : engine.config.validate = .ok ()) :
    ∃ other, Reopened [engine] other := by
  rcases exists_ofStore valid Registry.builtIn tended.settledAt.1.loaded with ⟨other, isOpened⟩
  exact ⟨other, .opened tended isOpened⟩

/-- What it means for both engines how a key stands. -/
def Stands (engine other : Engine MemoryStore) (key : ArtifactKey) : Standing → Prop
  | .same => other.SettledAt key ∧ (other.slot key).held = (engine.slot key).held
  | .forgotten => other.slot key = Slot.empty ∧ own? other.store other.scheme key ≠ none
  | .bare => other.SettledAt key ∧ (other.slot key).held = none

/-- What was held makes a difference to failures only. -/
theorem heldAfter_congr {policy : FailurePolicy} {outcome : Outcome}
    (succeeded : outcome.isFailure = false) (held otherHeld : Option Artifact) :
    heldAfter policy key held outcome = heldAfter policy key otherHeld outcome := by
  cases outcome with
  | built code uses => rfl
  | failed diagnostic uses => cases succeeded
  | unresolved => rfl

theorem heldAfter_none {policy : FailurePolicy} {outcome : Outcome}
    (failed : outcome.isFailure = true) : heldAfter policy key none outcome = none := by
  cases outcome with
  | built code uses => cases failed
  | failed diagnostic uses => cases policy <;> rfl
  | unresolved => cases failed

/-- When both engines have built a key and the other one held nothing, they hold the same unless the build
has failed. -/
theorem stands_of_built {policy : FailurePolicy} {held : Option Artifact}
    (settled : other.SettledAt key)
    (isHeld : (engine.slot key).held = heldAfter policy key held (engine.scratch key))
    (isOtherHeld : (other.slot key).held = heldAfter policy key none (engine.scratch key)) :
    Stands engine other key (standingAfterBuild engine key) := by
  rw [standingAfterBuild]
  cases failed : (engine.scratch key).isFailure with
  | true =>
      rw [if_pos rfl]
      exact ⟨settled, isOtherHeld.trans (heldAfter_none failed)⟩
  | false =>
      rw [if_neg Bool.false_ne_true]
      exact ⟨settled, isOtherHeld.trans ((heldAfter_congr failed none held).trans isHeld.symm)⟩

/-- What a held artifact depends on is on record. -/
theorem recorded_of_settled {policy : FailurePolicy} {slot : Slot} {outcome : Outcome}
    {held : Artifact} (settled : Slot.Settled policy key slot outcome)
    (isHeld : slot.held = some held) : slot.recorded = some held.uses := by
  cases settled with
  | built code uses =>
      cases isHeld
      rfl
  | failed diagnostic uses => cases isHeld
  | stale kept diagnostic uses keeps isStale within =>
      cases isHeld
      rfl
  | unresolved recorded => cases isHeld

/-- Where nothing is held and nothing has failed, there is nothing to build. -/
theorem unresolved_of_settled {policy : FailurePolicy} {slot : Slot} {outcome : Outcome}
    (settled : Slot.Settled policy key slot outcome) (nothing : slot.held = none)
    (succeeded : outcome.isFailure = false) : outcome = .unresolved := by
  cases settled with
  | built code uses => cases nothing
  | failed diagnostic uses => cases succeeded
  | stale kept diagnostic uses keeps isStale within => cases nothing
  | unresolved recorded => rfl

/-- A key stands as it should when the store has been opened again. -/
theorem stands_of_opened (settled : engine.SettledAt key)
    (opened : Opened engine.config Registry.builtIn engine.store other)
    (parallel : Parallel engine other) :
    Stands engine other key (standingAtOpening engine key) := by
  have stored : engine.store.artifacts[key]? = engine.artifact? key := by
    rw [parallel.inStep.backed.stored]
    rfl
  have otherSlot := opened.slot_eq key
  rw [stored] at otherSlot
  have isHeld : (engine.slot key).held = (engine.artifact? key).map Artifact.undated := rfl
  have settledFor : (other.SettledAt key) =
      (other.slot key).Settled engine.config.failurePolicy key (engine.scratch key) := by
    rw [SettledAt, parallel.config_eq, parallel.scratch_eq]
  cases held : engine.artifact? key with
  | some artifact =>
      rw [held, Option.map_some] at isHeld
      have sameSlot : other.slot key = engine.slot key := by
        rw [otherSlot, held]
        ext1
        · exact isHeld.symm
        · exact (recorded_of_settled settled isHeld).symm
      rw [standingAtOpening, held, Option.isNone_some, Bool.false_and, if_neg Bool.false_ne_true]
      refine ⟨?_, congrArg Slot.held sameSlot⟩
      rw [settledFor, sameSlot]
      exact settled
  | none =>
      rw [held, Option.map_none] at isHeld
      rw [held] at otherSlot
      rw [standingAtOpening, held, Option.isNone_none, Bool.true_and]
      cases failed : (engine.scratch key).isFailure with
      | true =>
          rw [if_pos rfl]
          refine ⟨otherSlot, fun unresolved => ?_⟩
          rw [parallel.own?_eq, ← fresh_eq_unresolved_iff] at unresolved
          rw [scratch, unresolved] at failed
          cases failed
      | false =>
          rw [if_neg Bool.false_ne_true]
          have unresolved := unresolved_of_settled settled isHeld failed
          refine ⟨?_, ?_⟩
          · rw [settledFor, unresolved, otherSlot]
            exact .unresolved none
          · rw [isHeld, otherSlot]
            rfl

/-- A key stands as it should after an edit. -/
theorem stands_of_edited {after otherAfter : Engine MemoryStore} {before : Standing}
    (settled : engine.SettledAt key) (advances : Advances engine after)
    (otherAdvances : Advances other otherAfter) (parallel : Parallel engine other)
    (parallelAfter : Parallel after otherAfter) (stands : Stands engine other key before) :
    Stands after otherAfter key (standingAfter engine after key before) := by
  have isHeld := advances.held_eq settled
  cases before with
  | same =>
      rcases stands with ⟨otherSettled, sameHeld⟩
      refine ⟨otherAdvances.settledAt otherSettled, ?_⟩
      rw [otherAdvances.held_eq otherSettled, isHeld, parallel.config_eq, parallelAfter.scratch_eq,
        sameHeld]
  | forgotten =>
      rcases stands with ⟨isEmpty, resolved⟩
      rw [standingAfter, ← parallel.own?_eq, ← parallelAfter.own?_eq]
      split
      · next same =>
          refine ⟨otherAdvances.slot_of_empty isEmpty resolved same, ?_⟩
          rw [same]
          exact resolved
      · next different =>
          rcases otherAdvances.settledAt_of_empty isEmpty different with ⟨otherSettled, isOtherHeld⟩
          apply stands_of_built otherSettled isHeld
          rw [isOtherHeld, parallel.config_eq, parallelAfter.scratch_eq]
  | bare =>
      rcases stands with ⟨otherSettled, nothing⟩
      apply stands_of_built (otherAdvances.settledAt otherSettled) isHeld
      rw [otherAdvances.held_eq otherSettled, nothing, parallel.config_eq, parallelAfter.scratch_eq]

/-! ## Along the edits -/

/-- Two engines that have gone through the same edits, and how their keys stand. -/
structure Accompanied (engine : Engine MemoryStore) (earlier : List (Engine MemoryStore))
    (other : Engine MemoryStore) : Prop where
  parallel : Parallel engine other
  settledAt : ∀ key, engine.SettledAt key
  stands : ∀ key, Stands engine other key (standing key (engine :: earlier))

theorem accompanied_of_reopened {states : List (Engine MemoryStore)} (reopened : Reopened states other) :
    ∀ engine earlier, states = engine :: earlier → Accompanied engine earlier other := by
  induction reopened with
  | @opened first second tended isOpened =>
      rintro _ _ ⟨rfl, rfl⟩
      rcases tended.settledAt with ⟨inStep, settled⟩
      have opened := opened_of_ofStore inStep.wellFormed isOpened
      have contents : second.store.contents = first.store.contents := by rw [opened.store_eq]
      have parallel : Parallel first second :=
        ⟨inStep, opened.inStep inStep.wellFormed, opened.config_eq, contents⟩
      exact ⟨parallel, settled, fun key => stands_of_opened (settled key) opened parallel⟩
  | @edited before after second secondAfter older edit report secondReport reopened performed
      secondPerformed inductionHypothesis =>
      rintro _ _ ⟨rfl, rfl⟩
      have accompanied := inductionHypothesis before older rfl
      have parallel := accompanied.parallel
      have advances := edit_advances parallel.inStep performed
      have secondAdvances := edit_advances parallel.otherInStep secondPerformed
      have parallelAfter := parallel.edited performed secondPerformed
      refine ⟨parallelAfter, fun key => advances.settledAt (accompanied.settledAt key), fun key => ?_⟩
      exact stands_of_edited (accompanied.settledAt key) advances secondAdvances parallel parallelAfter
        (accompanied.stands key)

/-- What the other engine holds under a key is the same or nothing. -/
theorem Accompanied.held_eq (accompanied : Accompanied engine earlier other) (key : ArtifactKey) :
    (other.slot key).held =
      if standing key (engine :: earlier) = .same then (engine.slot key).held else none := by
  have stands := accompanied.stands key
  cases isStanding : standing key (engine :: earlier) with
  | same =>
      rw [isStanding] at stands
      exact stands.2
  | forgotten =>
      rw [isStanding] at stands
      rw [stands.1]
      rfl
  | bare =>
      rw [isStanding] at stands
      exact stands.2

/-- Two engines hold the same under a key, generations aside. -/
def SameAt (engine other : Engine MemoryStore) (key : ArtifactKey) : Prop :=
  (other.artifact? key).map Artifact.undated = (engine.artifact? key).map Artifact.undated

/-- A key that stood the same when the store was opened again has done so since. -/
theorem standing_eq_same {first : Engine MemoryStore} (atOpening : standingAtOpening first key = .same)
    (later : List (Engine MemoryStore)) : standing key (later ++ [first]) = .same := by
  induction later with
  | nil => exact atOpening
  | cons after before inductionHypothesis =>
      cases before with
      | nil => exact congrArg (standingAfter first after key) inductionHypothesis
      | cons last older => exact congrArg (standingAfter last after key) inductionHypothesis

/-- Opening a store again never makes a difference for a key that had an artifact by then, or that had
not failed. -/
theorem sameAt_of_opening {first : Engine MemoryStore} {later : List (Engine MemoryStore)}
    (reopened : Reopened (engine :: earlier) other) (isFirst : engine :: earlier = later ++ [first])
    (present : (first.scratch key).isFailure = true → first.artifact? key ≠ none) :
    SameAt engine other key := by
  have atOpening : standingAtOpening first key = .same := by
    rw [standingAtOpening, if_neg]
    rw [Bool.and_eq_true, Option.isNone_iff_eq_none]
    exact fun both => present both.2 both.1
  have held := (accompanied_of_reopened reopened engine earlier rfl).held_eq key
  rw [isFirst, standing_eq_same atOpening later, if_pos rfl] at held
  exact held

/-- Opening a store again makes a difference exactly for those keys that had failed by then, or have
failed since, and for which only the engine that was not closed holds something.  Nothing is held for
them by the other one. -/
theorem sameAt_iff_of_reopened (reopened : Reopened (engine :: earlier) other) (key : ArtifactKey) :
    (SameAt engine other key ↔
      standing key (engine :: earlier) = .same ∨ engine.artifact? key = none) ∧
    (¬ SameAt engine other key → other.artifact? key = none) := by
  have held := (accompanied_of_reopened reopened engine earlier rfl).held_eq key
  change (other.artifact? key).map Artifact.undated = if _ then
    (engine.artifact? key).map Artifact.undated else none at held
  rw [SameAt, held]
  by_cases same : standing key (engine :: earlier) = .same
  · rw [if_pos same]
    exact ⟨iff_of_true rfl (.inl same), fun different => absurd rfl different⟩
  · rw [if_neg same] at held ⊢
    rw [or_iff_right same, eq_comm, Option.map_eq_none_iff]
    exact ⟨Iff.rfl, fun _ => Option.map_eq_none_iff.mp held⟩

/-! ## A page that is not retried -/

def reopenedPage : Engine MemoryStore :=
  (openedOver waitingPage.config waitingPage.store).get (by decide +kernel)

def reopenedHeader : Engine MemoryStore :=
  reopenedPage.afterwards saveHeader.command

def headerKey : ArtifactKey :=
  .template rootPosition rootPosition "header"

/-- The store is opened again while the page waits for its header. -/
theorem reopened_headedPage : Reopened [headedPage, waitingPage] reopenedHeader := by
  have rebuilds : (openedPage.perform rebuildAll).1.isOk = true := by decide +kernel
  have saves : (waitingPage.perform saveHeader.command).1.isOk = true := by decide +kernel
  have savesToo : (reopenedPage.perform saveHeader.command).1.isOk = true := by decide +kernel
  rcases exists_perform_ok openedPage rebuilds with ⟨_, rebuilt⟩
  rcases exists_perform_ok waitingPage saves with ⟨_, saved⟩
  rcases exists_perform_ok reopenedPage savesToo with ⟨_, savedToo⟩
  have isReopened : ofStore waitingPage.config Registry.builtIn waitingPage.store = .ok reopenedPage :=
    ofStore_of_openedOver (Option.some_get _).symm
  have builtIn : openedPage.registry = Registry.builtIn :=
    (opened_of_ofStore constructed_pageStore.wellFormed ofStore_pageStore).registry_eq
  have reached : Reached openedPage := .opened constructed_pageStore ofStore_pageStore
  exact .edited (.opened (.rebuilt reached builtIn rebuilt) isReopened) saved savedToo

/-- Both engines have the header. -/
theorem sameAt_header : SameAt headedPage reopenedHeader headerKey := by
  apply (sameAt_iff_of_reopened reopened_headedPage headerKey).1.mpr
  exact .inl (by decide +kernel)

/-- Only the one that was not closed has the page. -/
theorem not_sameAt_page : ∃ (engine : Engine MemoryStore) (earlier : List (Engine MemoryStore))
    (other : Engine MemoryStore) (key : ArtifactKey),
    Reopened (engine :: earlier) other ∧ ¬ SameAt engine other key := by
  refine ⟨headedPage, [waitingPage], reopenedHeader, pageKey, reopened_headedPage, fun same => ?_⟩
  have isHeld : (headedPage.artifact? pageKey).isSome = true := by decide +kernel
  have nothing : (reopenedHeader.artifact? pageKey).isSome = false := by decide +kernel
  have both := congrArg Option.isSome same
  rw [Option.isSome_map, Option.isSome_map, isHeld, nothing] at both
  cases both

end Engine
end TemplateCascade

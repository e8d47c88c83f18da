import Mathlib
import TemplateCascade.Proofs.Engine.Opening

namespace TemplateCascade
namespace Engine

/-!
# Edits that fail

An edit that fails leaves everything as it was, remembered trees aside, unless it is a removal that is
refused late.  A root that owns definitions or has artifacts loses them before it is refused.  So does a
position that is not stored; an engine whose store nobody else writes to has no such position.
-/

open Compile (Registry)

/-- The states that engines get into by rebuilding and editing, also where these fail. -/
inductive Reached : Engine MemoryStore → Prop where
  | opened {config : Config} {registry : Registry} {store : MemoryStore} {engine : Engine MemoryStore}
      (constructed : store.Constructed) (isOpened : ofStore config registry store = .ok engine) :
      Reached engine
  | reopened {config : Config} {registry : Registry} {before engine : Engine MemoryStore}
      (reached : Reached before) (isOpened : ofStore config registry before.store = .ok engine) :
      Reached engine
  | rebuilt {before after : Engine MemoryStore} {outcome : Except EngineError CascadeReport}
      (reached : Reached before) (performed : before.perform rebuildAll = (outcome, after)) :
      Reached after
  | edited {before after : Engine MemoryStore} {edit : Edit}
      {outcome : Except EngineError CascadeReport} (reached : Reached before)
      (performed : before.perform edit.command = (outcome, after)) : Reached after

theorem Reached.afterRebuild {engine : Engine MemoryStore} (reached : Reached engine) :
    Reached (engine.afterwards rebuildAll) :=
  .rebuilt reached rfl

theorem Reached.afterEdit {engine : Engine MemoryStore} (reached : Reached engine) (edit : Edit) :
    Reached (engine.afterwards edit.command) :=
  .edited reached rfl

/-- Every engine that can be reached has the trees of its store, and the stored artifacts. -/
theorem Reached.founded {engine : Engine MemoryStore} (reached : Reached engine) : engine.Founded := by
  induction reached with
  | opened constructed isOpened => exact (opened_of_ofStore constructed.wellFormed isOpened).founded
  | reopened reached isOpened inductionHypothesis =>
      exact (opened_of_ofStore inductionHypothesis.wellFormed isOpened).founded
  | rebuilt reached performed inductionHypothesis => exact rebuildAll_founded inductionHypothesis performed
  | edited reached performed inductionHypothesis => exact edit_founded inductionHypothesis performed

/-- An edit that fails leaves everything as it was except when it robs a root or, which takes another
writer to the store, removes a position that is not stored. -/
theorem untouched_iff_of_failed {engine after : Engine MemoryStore} {edit : Edit} {error : EngineError}
    (failed : engine.perform edit.command = (.error error, after)) :
    (engine.store.Constructed →
      (Untouched engine after ↔ ¬ (engine.RobsRoot edit ∨ engine.RemovesUnstored edit))) ∧
    (Reached engine → (Untouched engine after ↔ ¬ engine.RobsRoot edit)) := by
  constructor
  · exact fun constructed => edit_untouched_iff constructed.wellFormed failed
  · intro reached
    have founded := reached.founded
    rw [edit_untouched_iff founded.wellFormed failed, or_iff_left founded.not_removesUnstored]

/-! ## A page at the root -/

def greetingStore : MemoryStore :=
  (MemoryStore.empty.define .template rootPosition "page" "Hello").1

def openedGreeting : Engine MemoryStore :=
  (openedOver {} greetingStore).get (by decide +kernel)

def greeting : Engine MemoryStore :=
  openedGreeting.afterwards rebuildAll

theorem reached_greeting : Reached greeting := by
  have constructed : greetingStore.Constructed := .define .template rootPosition "page" "Hello" .empty
  have isOpened : ofStore {} Registry.builtIn greetingStore = .ok openedGreeting :=
    ofStore_of_openedOver (Option.some_get _).symm
  exact (Reached.opened constructed isOpened).afterRebuild

/-- A position that there is already is refused, and nothing has happened. -/
theorem untouched_greeting : ∃ error after,
    greeting.perform (Edit.addPosition .style rootPosition rootPosition).command =
      (.error error, after) ∧ Untouched greeting after := by
  have fails : (greeting.perform (Edit.addPosition .style rootPosition rootPosition).command).1.isOk =
      false := by decide +kernel
  rcases exists_perform_error greeting fails with ⟨error, failed⟩
  refine ⟨error, _, failed, ((untouched_iff_of_failed failed).2 reached_greeting).mpr ?_⟩
  rintro ⟨tree, isRemoval, _⟩
  cases isRemoval

/-- The root is refused when the page is gone. -/
theorem robbed_greeting : ∃ (engine after : Engine MemoryStore) (edit : Edit) (error : EngineError),
    Reached engine ∧ engine.perform edit.command = (.error error, after) ∧
      ¬ Untouched engine after := by
  let robbery := Edit.removePosition .style rootPosition
  have fails : (greeting.perform robbery.command).1.isOk = false := by decide +kernel
  have owned : greeting.store.definitions.size = 1 := by decide +kernel
  have lost : (greeting.afterwards robbery.command).store.definitions.size = 0 := by decide +kernel
  rcases exists_perform_error greeting fails with ⟨error, failed⟩
  refine ⟨greeting, _, robbery, error, reached_greeting, failed, fun untouched => ?_⟩
  have same : (greeting.afterwards robbery.command).store.definitions =
      greeting.store.definitions := by
    rw [untouched]
  rw [same, owned] at lost
  cases lost

end Engine
end TemplateCascade

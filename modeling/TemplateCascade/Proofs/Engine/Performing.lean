import Mathlib
import TemplateCascade.Engine.Edit
import TemplateCascade.Store.Memory

namespace TemplateCascade
namespace Engine

/-!
# Giving commands

What comes of a command is worked out step by step: a sequence hands the engine on from one command to
the next, and stops at the first failure with the engine as it is by then.
-/

variable {σ Result Other : Type} (engine : Engine σ)

@[simp]
theorem perform_pure (result : Result) :
    engine.perform (pure result : EngineM σ Result) = (.ok result, engine) := rfl

@[simp]
theorem perform_throw (error : EngineError) :
    engine.perform (throw error : EngineM σ Result) = (.error error, engine) := rfl

@[simp]
theorem perform_get : engine.perform (get : EngineM σ (Engine σ)) = (.ok engine, engine) := rfl

@[simp]
theorem perform_modify (change : Engine σ → Engine σ) :
    engine.perform (modify change : EngineM σ Unit) = (.ok (), change engine) := rfl

theorem perform_bind (command : EngineM σ Result) (next : Result → EngineM σ Other) :
    engine.perform (command >>= next) =
      match engine.perform command with
      | (.ok result, after) => after.perform (next result)
      | (.error error, after) => (.error error, after) := by
  unfold perform ExceptT.run StateT.run
  simp only [bind, ExceptT.bind, ExceptT.mk, StateT.bind]
  cases command engine with
  | mk outcome after => cases outcome <;> rfl

/-- A sequence goes on where its first command has succeeded. -/
theorem perform_bind_ok {command : EngineM σ Result} {next : Result → EngineM σ Other}
    {result : Result} {after : Engine σ} (succeeded : engine.perform command = (.ok result, after)) :
    engine.perform (command >>= next) = after.perform (next result) := by
  rw [perform_bind, succeeded]

/-- A sequence that has succeeded has done so step by step. -/
theorem exists_of_perform_bind {command : EngineM σ Result} {next : Result → EngineM σ Other}
    {result : Other} {after : Engine σ}
    (performed : engine.perform (command >>= next) = (.ok result, after)) :
    ∃ given between, engine.perform command = (.ok given, between) ∧
      between.perform (next given) = (.ok result, after) := by
  rw [perform_bind] at performed
  rcases first : engine.perform command with ⟨_ | given, between⟩
  · rw [first] at performed
    cases performed
  · rw [first] at performed
    exact ⟨given, between, rfl, performed⟩

/-- A sequence ends where its first command has failed. -/
theorem perform_bind_error {command : EngineM σ Result} {next : Result → EngineM σ Other}
    {error : EngineError} {after : Engine σ}
    (failed : engine.perform command = (.error error, after)) :
    engine.perform (command >>= next) = (.error error, after) := by
  rw [perform_bind, failed]

@[simp]
theorem perform_ofTree_ok (result : Result) :
    engine.perform (EngineM.ofTree (.ok result) : EngineM σ Result) = (.ok result, engine) := rfl

@[simp]
theorem perform_ofTree_error (error : TreeError) :
    engine.perform (EngineM.ofTree (.error error) : EngineM σ Result) =
      (.error (.tree error), engine) := rfl

theorem perform_ask (question : σ → Except StoreError Result) :
    engine.perform (EngineM.ask question) =
      ((question engine.store).mapError EngineError.store, engine) := by
  simp only [EngineM.ask, perform_bind, perform_get]
  cases question engine.store <;> rfl

theorem perform_tell_ok {change : σ → Except StoreError σ} {store : σ}
    (changed : change engine.store = .ok store) :
    engine.perform (EngineM.tell change) = (.ok (), { engine with store := store }) := by
  simp only [EngineM.tell, perform_bind, perform_get, changed]
  rfl

theorem perform_tell_error {change : σ → Except StoreError σ} {error : StoreError}
    (failed : change engine.store = .error error) :
    engine.perform (EngineM.tell change) = (.error (.store error), engine) := by
  simp only [EngineM.tell, perform_bind, perform_get, failed]
  rfl

theorem perform_tellFor_ok {change : σ → Except StoreError (σ × Result)} {store : σ} {result : Result}
    (changed : change engine.store = .ok (store, result)) :
    engine.perform (EngineM.tellFor change) = (.ok result, { engine with store := store }) := by
  simp only [EngineM.tellFor, perform_bind, perform_get, changed]
  rfl

theorem perform_tellFor_error {change : σ → Except StoreError (σ × Result)} {error : StoreError}
    (failed : change engine.store = .error error) :
    engine.perform (EngineM.tellFor change) = (.error (.store error), engine) := by
  simp only [EngineM.tellFor, perform_bind, perform_get, failed]
  rfl

/-- The engine after a command. -/
def afterwards (command : EngineM σ Result) : Engine σ :=
  (engine.perform command).2

theorem exists_perform_ok {command : EngineM σ Result}
    (succeeds : (engine.perform command).1.isOk = true) :
    ∃ result, engine.perform command = (.ok result, engine.afterwards command) := by
  rw [afterwards]
  cases performed : engine.perform command with
  | mk outcome after =>
      rw [performed] at succeeds
      cases outcome with
      | error error => cases succeeds
      | ok result => exact ⟨result, rfl⟩

theorem exists_perform_error {command : EngineM σ Result}
    (fails : (engine.perform command).1.isOk = false) :
    ∃ error, engine.perform command = (.error error, engine.afterwards command) := by
  rw [afterwards]
  cases performed : engine.perform command with
  | mk outcome after =>
      rw [performed] at fails
      cases outcome with
      | error error => exact ⟨error, rfl⟩
      | ok result => cases fails

end Engine
end TemplateCascade

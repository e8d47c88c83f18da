import Mathlib
import TemplateCascade.Proofs.Engine.Uprooting

namespace TemplateCascade

/-!
# Edits together

All edits obey the same laws.  An edit that succeeds stores what only the edit, the scheme and the
stored definitions and nodes decide, and takes one step with every slot.  An edit that fails has done
nothing, unless it is a removal that is refused late.

What is held in a slot that was settled before an edit is what was held, answered with the outcome of
building the key from scratch afterwards.
-/

open Compile (Registry Uses)

/-- What a store holds without the artifacts. -/
def MemoryStore.contents (store : MemoryStore) : MemoryStore :=
  { store with artifacts := ∅ }

/-- An edit of what is stored. -/
inductive Edit where
  | saveTemplate (style : Position) (name source : String)
  | savePhrase (language : Position) (name text : String)
  | deleteDefinition (kind : DefinitionKind) (name : String) (position : Position)
  | addPosition (tree : TreeKind) (id parent : Position)
  | movePosition (tree : TreeKind) (id parent : Position)
  | removePosition (tree : TreeKind) (id : Position)
deriving DecidableEq, Repr

namespace Edit

/-- The command that carries an edit out. -/
def command : Edit → EngineM MemoryStore CascadeReport
  | saveTemplate style name source => Engine.saveTemplate style name source
  | savePhrase language name text => Engine.savePhrase language name text
  | deleteDefinition kind name position => Engine.deleteDefinition kind name position
  | addPosition tree id parent => Engine.addPosition tree id parent
  | movePosition tree id parent => Engine.movePosition tree id parent
  | removePosition tree id => Engine.removePosition tree id

/-- What a store holds after an edit, artifacts aside. -/
def stored (scheme : InheritanceScheme) (store : MemoryStore) : Edit → MemoryStore
  | saveTemplate style name source => store.saved .template style name source
  | savePhrase language name text => store.saved .phrase language name text
  | deleteDefinition kind name position => store.discard (Definition.isAt kind name position)
  | addPosition tree id parent => store.addPosition tree id parent
  | movePosition tree id parent =>
      match (scheme.tree tree).setParent id parent with
      | .ok (moved, _) => Engine.movedStore store tree moved id
      | .error _ => store
  | removePosition tree id =>
      match (scheme.tree tree).remove id with
      | .ok (left, _) =>
          (store.discard (Definition.isOwnedBy tree.defines id)).withNodes tree
            (Engine.nodesWithout store tree id
              (left.nodesBelow ((scheme.tree tree).children id)))
      | .error _ => store

/-- An edit does not look at the artifacts. -/
theorem contents_stored (scheme : InheritanceScheme) (store : MemoryStore) (edit : Edit) :
    (edit.stored scheme store).contents = edit.stored scheme store.contents := by
  have saved : ∀ kind position name content,
      (store.saved kind position name content).contents =
        store.contents.saved kind position name content := by
    intro kind position name content
    have sameKept : store.contents.isKept kind name position content =
        store.isKept kind name position content := rfl
    have sameOwned : store.contents.owned? kind position name = store.owned? kind position name := rfl
    rw [MemoryStore.saved, MemoryStore.saved, sameKept]
    split
    · rfl
    · rw [MemoryStore.define, MemoryStore.define, sameOwned]
      cases store.owned? kind position name <;> rfl
  cases edit with
  | saveTemplate style name source => exact saved .template style name source
  | savePhrase language name text => exact saved .phrase language name text
  | deleteDefinition kind name position => rfl
  | addPosition tree id parent => cases tree <;> rfl
  | movePosition tree id parent =>
      simp only [stored]
      split
      · cases tree <;> rfl
      · rfl
  | removePosition tree id =>
      simp only [stored]
      split
      · cases tree <;> rfl
      · rfl

end Edit

namespace Engine

variable {engine after : Engine MemoryStore} {edit : Edit} {report : CascadeReport}

theorem edit_stores (founded : engine.Founded)
    (succeeded : engine.perform edit.command = (.ok report, after)) :
    Stores (edit.stored engine.scheme engine.store) after := by
  cases edit with
  | saveTemplate style name source => exact saveTemplate_stores founded succeeded
  | savePhrase language name text => exact savePhrase_stores founded succeeded
  | deleteDefinition kind name position => exact deleteDefinition_stores founded succeeded
  | addPosition tree id parent => exact addPosition_stores founded succeeded
  | movePosition tree id parent =>
      rcases movePosition_stores founded succeeded with ⟨moved, move, set, stores⟩
      rw [Edit.stored, set]
      exact stores
  | removePosition tree id =>
      rcases removePosition_stores founded succeeded with ⟨left, removal, removed, stores⟩
      rw [Edit.stored, removed]
      exact stores

/-- What is stored after an edit follows from what was stored before. -/
theorem edit_contents_eq (founded : engine.Founded)
    (succeeded : engine.perform edit.command = (.ok report, after)) :
    after.store.contents = edit.stored engine.scheme engine.store.contents := by
  rw [← Edit.contents_stored, (edit_stores founded succeeded).store_eq]
  rfl

theorem edit_advances (inStep : engine.InStep)
    (succeeded : engine.perform edit.command = (.ok report, after)) : Advances engine after := by
  cases edit with
  | saveTemplate style name source => exact saveTemplate_advances inStep succeeded
  | savePhrase language name text => exact savePhrase_advances inStep succeeded
  | deleteDefinition kind name position => exact deleteDefinition_advances inStep succeeded
  | addPosition tree id parent => exact addPosition_advances inStep succeeded
  | movePosition tree id parent => exact movePosition_advances inStep succeeded
  | removePosition tree id => exact removePosition_advances inStep succeeded

/-! ## Failed edits -/

/-- The edit removes a root that owns definitions or has artifacts. -/
def RobsRoot (engine : Engine MemoryStore) (edit : Edit) : Prop :=
  ∃ tree, edit = .removePosition tree rootPosition ∧
    ¬ ((∀ (id : DefinitionId) (definition : Definition),
        engine.store.definitions[id]? = some definition →
          definition.isOwnedBy tree.defines rootPosition = false) ∧
      engine.heldAt tree rootPosition = [])

/-- The edit removes a position that the engine has in its tree, and that is not stored. -/
def RemovesUnstored (engine : Engine MemoryStore) (edit : Edit) : Prop :=
  ∃ tree id, edit = .removePosition tree id ∧ id ≠ rootPosition ∧
    (engine.scheme.tree tree).contains id = true ∧ (engine.store.nodes tree).contains id = false

/-- Where the trees of an engine are the stored ones, there is no such position. -/
theorem Founded.not_removesUnstored (founded : engine.Founded) : ¬ engine.RemovesUnstored edit := by
  rintro ⟨tree, id, _, notRoot, present, missing⟩
  rw [contains_node founded present notRoot] at missing
  cases missing

theorem removeRoot_untouched_iff (wellFormed : engine.store.WellFormed) (tree : TreeKind)
    {error : EngineError}
    (failed : engine.perform (removePosition tree rootPosition) = (.error error, after)) :
    Untouched engine after ↔ ¬ engine.RobsRoot (.removePosition tree rootPosition) := by
  rcases perform_removePosition_root wellFormed tree with
    ⟨between, middle, dropped, uprooting, performed⟩
  rw [performed, Prod.mk.injEq] at failed
  rcases failed with ⟨_, rfl⟩
  rw [uprooting.untouched_iff, RobsRoot]
  constructor
  · rintro nothing ⟨other, isRemoval, lost⟩
    cases isRemoval
    exact lost nothing
  · intro spared
    by_contra lost
    exact spared ⟨tree, rfl, lost⟩

/-- An edit that fails has done nothing, unless there is something to lose. -/
theorem edit_idle (wellFormed : engine.store.WellFormed) {error : EngineError}
    (failed : engine.perform edit.command = (.error error, after))
    (spared : ¬ (engine.RobsRoot edit ∨ engine.RemovesUnstored edit)) : Idle engine after := by
  cases edit with
  | saveTemplate style name source => exact saveTemplate_idle wellFormed failed
  | savePhrase language name text => exact savePhrase_untouched wellFormed failed ▸ Idle.refl engine
  | deleteDefinition kind name position =>
      exact deleteDefinition_untouched wellFormed failed ▸ Idle.refl engine
  | addPosition tree id parent => exact addPosition_untouched wellFormed failed ▸ Idle.refl engine
  | movePosition tree id parent => exact movePosition_untouched wellFormed failed ▸ Idle.refl engine
  | removePosition tree id =>
      rw [not_or] at spared
      by_cases isRoot : id = rootPosition
      · subst isRoot
        rcases perform_removePosition_root wellFormed tree with
          ⟨between, middle, dropped, uprooting, performed⟩
        have untouched := (removeRoot_untouched_iff wellFormed tree failed).mpr spared.1
        change engine.perform (Engine.removePosition tree rootPosition) = _ at failed
        rw [performed, Prod.mk.injEq] at failed
        rcases failed with ⟨_, rfl⟩
        exact uprooting.idle untouched
      · have stored : (engine.scheme.tree tree).contains id = true →
            (engine.store.nodes tree).contains id = true := by
          intro present
          by_contra missing
          rw [Bool.not_eq_true] at missing
          exact spared.2 ⟨tree, id, rfl, isRoot, present, missing⟩
        exact removePosition_untouched wellFormed isRoot stored failed ▸ Idle.refl engine

/-- An edit that fails has left something behind exactly if it has removed a root with something to lose,
or a position that is not stored. -/
theorem edit_untouched_iff (wellFormed : engine.store.WellFormed) {error : EngineError}
    (failed : engine.perform edit.command = (.error error, after)) :
    Untouched engine after ↔ ¬ (engine.RobsRoot edit ∨ engine.RemovesUnstored edit) := by
  refine ⟨fun untouched => ?_, fun spared => (edit_idle wellFormed failed spared).untouched⟩
  rintro (robs | ⟨tree, id, rfl, notRoot, present, missing⟩)
  · rcases robs with ⟨tree, rfl, lost⟩
    exact (removeRoot_untouched_iff wellFormed tree failed).mp untouched ⟨tree, rfl, lost⟩
  · rcases perform_removePosition_missing wellFormed present notRoot missing with
      ⟨last, performed, gone⟩
    change engine.perform (Engine.removePosition tree id) = _ at failed
    rw [performed, Prod.mk.injEq] at failed
    rw [failed.2, untouched, present] at gone
    cases gone

/-- An edit that is refused leaves an engine idle, unless it has taken away what there was at a root. -/
theorem edit_refused (founded : engine.Founded) {error : EngineError}
    (failed : engine.perform edit.command = (.error error, after)) :
    (∃ tree between dropped, Uprooting engine between after tree rootPosition dropped) ∨
      Idle engine after := by
  by_cases robs : engine.RobsRoot edit
  · rcases robs with ⟨tree, rfl, _⟩
    rcases perform_removePosition_root founded.wellFormed tree with
      ⟨between, middle, dropped, uprooting, refused⟩
    change engine.perform (Engine.removePosition tree rootPosition) = _ at failed
    rw [refused, Prod.mk.injEq] at failed
    exact .inl ⟨tree, between, dropped, failed.2 ▸ uprooting⟩
  · exact .inr (edit_idle founded.wellFormed failed (not_or.mpr ⟨robs, founded.not_removesUnstored⟩))

/-- Also an edit that fails leaves the trees and the artifacts the stored ones. -/
theorem edit_founded (founded : engine.Founded) {outcome : Except EngineError CascadeReport}
    (performed : engine.perform edit.command = (outcome, after)) : after.Founded := by
  cases outcome with
  | ok report => exact (edit_stores founded performed).founded
  | error error =>
      rcases edit_refused founded performed with ⟨tree, between, dropped, uprooting⟩ | idle
      · exact uprooting.founded founded
      · rw [idle.untouched]
        exact founded.withMemo

/-! ## One slot -/

/-- What is held after an outcome depends on what was held, and not on the record. -/
def heldAfter (policy : FailurePolicy) (key : ArtifactKey) (held : Option Artifact)
    (outcome : Outcome) : Option Artifact :=
  (Slot.answer policy key ⟨held, none⟩ outcome).held

theorem held_answer (policy : FailurePolicy) (key : ArtifactKey) (slot : Slot) (outcome : Outcome) :
    (slot.answer policy key outcome).held = heldAfter policy key slot.held outcome :=
  congrArg Slot.held (Slot.answer_congr rfl)

/-- The slot of a key fits what building the key from scratch gives. -/
def SettledAt (engine : Engine MemoryStore) (key : ArtifactKey) : Prop :=
  (engine.slot key).Settled engine.config.failurePolicy key (engine.scratch key)

/-- Where nothing is different for a settled key, building it from scratch gives what it gave. -/
theorem scratch_eq_of_undisturbed {before : Engine MemoryStore} {key : ArtifactKey}
    (settled : before.SettledAt key) (undisturbed : Undisturbed before after key) :
    after.scratch key = before.scratch key :=
  fresh_eq_of_alike (undisturbed.of_within settled.within_recorded)

namespace Advances

variable {before : Engine MemoryStore} {key : ArtifactKey}

/-- A settled slot is settled afterwards too. -/
theorem settledAt (advances : Advances before after) (settled : before.SettledAt key) :
    after.SettledAt key := by
  rw [SettledAt, advances.config_eq]
  cases advances.slotStep key with
  | kept undisturbed slot_eq =>
      rw [slot_eq, scratch_eq_of_undisturbed settled undisturbed]
      exact settled
  | answered _ slot_eq =>
      rw [slot_eq]
      exact Slot.settled_answer _ key _ _
  | dropped unresolved held_eq =>
      have outcome : after.scratch key = .unresolved := fresh_eq_unresolved_iff.mpr unresolved
      have slotAfter : after.slot key = ⟨none, (after.slot key).recorded⟩ := Slot.ext held_eq rfl
      rw [outcome, slotAfter]
      exact .unresolved _

/-- What is held in a settled slot answers to what building from scratch gives. -/
theorem held_eq (advances : Advances before after) (settled : before.SettledAt key) :
    (after.slot key).held =
      heldAfter before.config.failurePolicy key (before.slot key).held (after.scratch key) := by
  rw [← held_answer]
  cases advances.slotStep key with
  | kept undisturbed slot_eq =>
      rw [slot_eq, scratch_eq_of_undisturbed settled undisturbed]
      exact settled.held_answer.symm
  | answered _ slot_eq => rw [slot_eq]
  | dropped unresolved held_eq =>
      have outcome : after.scratch key = .unresolved := fresh_eq_unresolved_iff.mpr unresolved
      rw [held_eq, outcome]
      rfl

/-- For an empty slot only what is in effect for the key itself can be different. -/
theorem undisturbed_iff_of_empty (isEmpty : before.slot key = Slot.empty) :
    Undisturbed before after key ↔
      own? after.store after.scheme key = own? before.store before.scheme key := by
  have sameUses : before.usesOf key = Uses.none := by
    rw [usesOf, isEmpty]
    rfl
  rw [Undisturbed, sameUses]
  constructor
  · exact fun alike => alike.own_eq
  · exact fun own => ⟨own, fun _ member => absurd member Std.ExtTreeSet.not_mem_empty,
      fun _ member => absurd member Std.ExtTreeSet.not_mem_empty⟩

/-- An empty slot stays empty as long as the same is in effect for the key itself. -/
theorem slot_of_empty (advances : Advances before after) (isEmpty : before.slot key = Slot.empty)
    (resolved : own? before.store before.scheme key ≠ none)
    (same : own? after.store after.scheme key = own? before.store before.scheme key) :
    after.slot key = Slot.empty := by
  cases advances.slotStep key with
  | kept _ slot_eq => rw [slot_eq, isEmpty]
  | answered disturbed _ => exact absurd ((undisturbed_iff_of_empty isEmpty).mpr same) disturbed
  | dropped unresolved _ =>
      rw [unresolved] at same
      exact absurd same.symm resolved

/-- It is settled as soon as something else is in effect. -/
theorem settledAt_of_empty (advances : Advances before after) (isEmpty : before.slot key = Slot.empty)
    (different : own? after.store after.scheme key ≠ own? before.store before.scheme key) :
    after.SettledAt key ∧ (after.slot key).held =
      heldAfter before.config.failurePolicy key none (after.scratch key) := by
  rw [SettledAt, advances.config_eq]
  cases advances.slotStep key with
  | kept undisturbed _ => exact absurd ((undisturbed_iff_of_empty isEmpty).mp undisturbed) different
  | answered _ slot_eq =>
      rw [slot_eq, isEmpty]
      exact ⟨Slot.settled_answer _ key _ _, held_answer _ key Slot.empty _⟩
  | dropped unresolved held_eq =>
      have outcome : after.scratch key = .unresolved := fresh_eq_unresolved_iff.mpr unresolved
      have slotAfter : after.slot key = ⟨none, (after.slot key).recorded⟩ := Slot.ext held_eq rfl
      rw [outcome, slotAfter]
      exact ⟨.unresolved _, rfl⟩

end Advances

end Engine
end TemplateCascade

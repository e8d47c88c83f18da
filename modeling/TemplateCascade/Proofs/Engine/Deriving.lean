import Mathlib
import TemplateCascade.Proofs.Engine.Opening

namespace TemplateCascade
namespace Engine

/-!
# Edits keep the scheme derived

What an engine has derived from its store stays what the store gives, edit by edit: the trees are those
that would be loaded from the stored nodes, and both maps are what working out all names anew would give.
Every edit works out only the names that it selects; the others resolve as before along the changed tree.
-/

open Compile (Registry)

variable {engine after : Engine MemoryStore} {edit : Edit} {report : CascadeReport}

theorem define_derived (derived : engine.Derived) {kind : DefinitionKind} {name content : String}
    {position : Position} (isNew : engine.store.isKept kind name position content = false)
    (succeeded : engine.perform (define kind position name content) = (.ok report, after)) :
    after.Derived := by
  have prepared := prepared_redefined engine derived.upheld isNew
  have mutates : (.ok engine.scheme : Except TreeError InheritanceScheme) = .ok engine.scheme := rfl
  rcases prepared.perform_carried mutates with ⟨_, last, performed, carried⟩
  rw [cascade_of_define derived.wellFormed succeeded, Prod.mk.injEq] at performed
  rcases performed with ⟨_, rfl⟩
  have stores := define_stores derived.founded succeeded
  exact carried.derived prepared derived.maps stores.founded.trees

theorem saveTemplate_derived (derived : engine.Derived) {style : Position} {name source : String}
    (succeeded : engine.perform (saveTemplate style name source) = (.ok report, after)) :
    after.Derived := by
  rcases perform_saveTemplate derived.wellFormed style name source with
    ⟨_, performed⟩ | ⟨isNew, memo, sound, ⟨_, performed⟩ | ⟨_, performed⟩⟩
  · rw [performed, Prod.mk.injEq] at succeeded
    exact succeeded.2 ▸ derived
  · rw [performed] at succeeded
    exact define_derived (derived.withMemo (sound derived.sound)) isNew succeeded
  · rw [performed] at succeeded
    cases succeeded

theorem savePhrase_derived (derived : engine.Derived) {language : Position} {name text : String}
    (succeeded : engine.perform (savePhrase language name text) = (.ok report, after)) :
    after.Derived := by
  rw [perform_savePhrase derived.wellFormed] at succeeded
  split at succeeded
  · rw [Prod.mk.injEq] at succeeded
    exact succeeded.2 ▸ derived
  · next isNew =>
      rw [Bool.not_eq_true] at isNew
      exact define_derived derived isNew succeeded

theorem deleteDefinition_derived (derived : engine.Derived) {kind : DefinitionKind} {name : String}
    {position : Position}
    (succeeded : engine.perform (deleteDefinition kind name position) = (.ok report, after)) :
    after.Derived := by
  rcases cascade_of_deleteDefinition derived.wellFormed succeeded with ⟨middle, released, performed⟩
  have prepared := prepared_released derived.upheld released
  have mutates : (.ok engine.scheme : Except TreeError InheritanceScheme) = .ok engine.scheme := rfl
  rcases prepared.perform_carried mutates with ⟨_, last, again, carried⟩
  rw [performed, Prod.mk.injEq] at again
  rcases again with ⟨_, rfl⟩
  have stores := deleteDefinition_stores derived.founded succeeded
  exact carried.derived prepared derived.maps stores.founded.trees

section Positions

variable {tree : TreeKind} {id parent : Position}

/-- What is built for a new language behind the cascade is no part of what is derived. -/
theorem addPosition_derived (derived : engine.Derived)
    (succeeded : engine.perform (addPosition tree id parent) = (.ok report, after)) :
    after.Derived := by
  rcases steps_of_addPosition derived.wellFormed succeeded with
    ⟨grown, names, first, between, added, unselected, performed, followed⟩
  have prepared := prepared_planted derived.upheld added unselected
  rcases prepared.perform_carried (changeTree_insert added) with ⟨_, _, again, carried⟩
  rw [performed, Prod.mk.injEq] at again
  rcases again with ⟨_, rfl⟩
  have treesAfter : TreesOf between.store between.scheme := by
    refine (treesOf_planted derived.founded added).of_eq carried.nodes_eq fun other => ?_
    exact carried.reworked.tree_eq other
  rcases perform_buildAdded between tree id first with ⟨_, _, _, built, settling⟩
  rw [followed, Prod.mk.injEq] at built
  rcases built with ⟨_, rfl⟩
  exact settling.derived (carried.derived prepared derived.maps treesAfter)

theorem movePosition_derived (derived : engine.Derived)
    (succeeded : engine.perform (movePosition tree id parent) = (.ok report, after)) :
    after.Derived := by
  rcases movePosition_stores derived.founded succeeded with ⟨_, _, _, stores⟩
  rcases steps_of_movePosition derived.wellFormed succeeded with
    ⟨moved, move, names, between, set, unselected, performed, rfl⟩
  have prepared := prepared_moved derived.upheld (PositionTree.setParent_moved set) unselected
  rcases prepared.perform_carried (changeTree_setParent set) with ⟨_, _, again, carried⟩
  rw [performed, Prod.mk.injEq] at again
  rcases again with ⟨_, rfl⟩
  exact carried.derived_replanted prepared derived.maps stores.founded

theorem removePosition_derived (derived : engine.Derived)
    (succeeded : engine.perform (removePosition tree id) = (.ok report, after)) :
    after.Derived := by
  rcases removePosition_stores derived.founded succeeded with ⟨_, _, _, stores⟩
  rcases steps_of_removePosition derived.founded succeeded with
    ⟨between, middle, dropped, left, removal, first, last, parent, uprooting, removed, isWithout,
      performed, _, _, rfl⟩
  have prepared := prepared_uprooted derived.upheld uprooting isWithout
  rcases prepared.perform_carried (changeTree_remove removed) with ⟨_, _, again, carried⟩
  rw [performed, Prod.mk.injEq] at again
  rcases again with ⟨_, rfl⟩
  exact carried.derived_replanted prepared derived.maps stores.founded

end Positions

/-- Whatever functions an engine knows, what it has derived follows its store through an edit. -/
theorem edit_derived (derived : engine.Derived)
    (succeeded : engine.perform edit.command = (.ok report, after)) : after.Derived := by
  cases edit with
  | saveTemplate style name source => exact saveTemplate_derived derived succeeded
  | savePhrase language name text => exact savePhrase_derived derived succeeded
  | deleteDefinition kind name position => exact deleteDefinition_derived derived succeeded
  | addPosition tree id parent => exact addPosition_derived derived succeeded
  | movePosition tree id parent => exact movePosition_derived derived succeeded
  | removePosition tree id => exact removePosition_derived derived succeeded

/-! ## The engines that come about -/

/-- The engines that are opened over a store, rebuilt, opened again, and changed by edits that succeed. -/
inductive Maintained : Engine MemoryStore → Prop where
  | opened {config : Config} {registry : Registry} {store : MemoryStore} {engine : Engine MemoryStore}
      (constructed : store.Constructed) (isOpened : ofStore config registry store = .ok engine) :
      Maintained engine
  | reopened {config : Config} {registry : Registry} {before engine : Engine MemoryStore}
      (maintained : Maintained before) (isOpened : ofStore config registry before.store = .ok engine) :
      Maintained engine
  | rebuilt {before after : Engine MemoryStore} {outcome : Except EngineError CascadeReport}
      (maintained : Maintained before) (performed : before.perform rebuildAll = (outcome, after)) :
      Maintained after
  | edited {before after : Engine MemoryStore} {edit : Edit} {report : CascadeReport}
      (maintained : Maintained before)
      (performed : before.perform edit.command = (.ok report, after)) : Maintained after

theorem Maintained.derived (maintained : Maintained engine) : engine.Derived := by
  induction maintained with
  | opened constructed isOpened =>
      exact (opened_of_ofStore constructed.wellFormed isOpened).derived constructed.wellFormed
  | reopened maintained isOpened inductionHypothesis =>
      have wellFormed := inductionHypothesis.wellFormed
      exact (opened_of_ofStore wellFormed isOpened).derived wellFormed
  | rebuilt maintained performed inductionHypothesis =>
      exact rebuildAll_derived inductionHypothesis performed
  | edited maintained performed inductionHypothesis => exact edit_derived inductionHypothesis performed

/--
The trees of an engine are those of the stored nodes, and its maps are those of all stored definitions
along these trees.
-/
structure MirrorsStore (engine : Engine MemoryStore) : Prop where
  trees : ∀ tree, PositionTree.ofNodes tree (engine.store.nodes tree).values =
    .ok (engine.scheme.tree tree)
  maps : ∀ kind, engine.scheme.map kind = ResolutionMap.build kind (engine.scheme.tree kind.tree)
    ((engine.store.definitionsOf kind).map Definition.ownership)

theorem Derived.mirrorsStore (derived : engine.Derived) : engine.MirrorsStore := by
  refine ⟨fun tree => ?_, fun kind => (build_eq_of_maps derived.maps kind).symm⟩
  have loaded := PositionTree.ofNodes_of_storedAs (derived.wellFormed.node_id tree)
    (derived.trees.stored tree)
  rwa [derived.trees.kind_eq] at loaded

/-- Neither trees nor maps drift from the store, however many edits there are. -/
theorem mirrorsStore_of_maintained (maintained : Maintained engine) : engine.MirrorsStore :=
  maintained.derived.mirrorsStore

/-! ## A page at a position that comes later -/

/-- Pages at the root and at a style that there is not yet. -/
def awaitingStore : MemoryStore :=
  ((MemoryStore.empty.define .template rootPosition "page" "Hello").1.define .template 7 "page"
    "Welcome").1

def openedAwaiting : Engine MemoryStore :=
  (openedOver {} awaitingStore).get (by decide +kernel)

/-- The style is added under another one, then that one goes. -/
def regrowth : List Edit :=
  [.addPosition .style 3 rootPosition, .addPosition .style 7 rootPosition, .movePosition .style 7 3,
    .removePosition .style 3]

/-- The engine after some edits in turn. -/
def afterEdits (engine : Engine MemoryStore) : List Edit → Engine MemoryStore
  | [] => engine
  | edit :: rest => (engine.afterwards edit.command).afterEdits rest

/-- Whether edits succeed when they are done in turn. -/
def allSucceed (engine : Engine MemoryStore) : List Edit → Bool
  | [] => true
  | edit :: rest =>
      (engine.perform edit.command).1.isOk && (engine.afterwards edit.command).allSucceed rest

theorem Maintained.afterEdits (maintained : Maintained engine) {edits : List Edit}
    (succeed : engine.allSucceed edits = true) : Maintained (engine.afterEdits edits) := by
  induction edits generalizing engine with
  | nil => exact maintained
  | cons edit rest inductionHypothesis =>
      rw [allSucceed, Bool.and_eq_true] at succeed
      rcases exists_perform_ok engine succeed.1 with ⟨_, performed⟩
      exact inductionHypothesis (.edited maintained performed) succeed.2

theorem maintained_regrown : Maintained (openedAwaiting.afterEdits regrowth) := by
  have constructed : awaitingStore.Constructed :=
    .define .template 7 "page" "Welcome" (.define .template rootPosition "page" "Hello" .empty)
  have isOpened : ofStore {} Registry.builtIn awaitingStore = .ok openedAwaiting :=
    ofStore_of_openedOver (Option.some_get _).symm
  exact Maintained.afterEdits (.opened constructed isOpened) (by decide +kernel)

/-- The page of the late style is in effect there from its addition on, and keeps so under the root. -/
theorem mirrorsStore_regrown :
    (openedAwaiting.afterEdits regrowth).MirrorsStore ∧
      openedAwaiting.resolve? .template "page" 7 = none ∧
      (openedAwaiting.afterEdits regrowth).resolve? .template "page" 7 = some 2 :=
  ⟨mirrorsStore_of_maintained maintained_regrown, by decide +kernel, by decide +kernel⟩

end Engine
end TemplateCascade

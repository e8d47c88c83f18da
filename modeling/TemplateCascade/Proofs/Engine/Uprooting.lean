import Mathlib
import TemplateCascade.Proofs.Engine.Replanting

namespace TemplateCascade

/-!
# Removing positions

A removal deletes what the position defines and drops its artifacts before it asks the tree.  The tree
refuses the root only, and by then the engine is without the definitions and the artifacts of the root.
The store is asked last; it refuses a position that it does not have, which the tree is without by then.
-/

open Compile (Registry)

/-- Whether a position owns a definition. -/
def Definition.isOwnedBy (kind : DefinitionKind) (position : Position) (definition : Definition) :
    Bool :=
  definition.kind == kind && definition.position == position

theorem Definition.isOwnedBy_iff {kind : DefinitionKind} {position : Position}
    {definition : Definition} :
    definition.isOwnedBy kind position = true ↔
      definition.kind = kind ∧ definition.position = position := by
  simp [isOwnedBy]

namespace Engine

variable (engine : Engine MemoryStore) {tree : TreeKind} {id : Position}

/-- The keys of the artifacts that go with a position. -/
def heldAt (engine : Engine MemoryStore) (tree : TreeKind) (id : Position) : List ArtifactKey :=
  engine.cache.keys.filter (isAt tree id)

theorem mem_heldAt {key : ArtifactKey} :
    key ∈ engine.heldAt tree id ↔ (engine.slot key).held ≠ none ∧ isAt tree id key = true := by
  rw [heldAt, List.mem_filter, ArtifactCache.keys, Std.ExtTreeMap.mem_keys,
    Std.ExtTreeMap.mem_iff_isSome_getElem?, Option.isSome_iff_ne_none, slot, ne_eq, ne_eq,
    Option.map_eq_none_iff, ArtifactCache.get?]

/-! ## What comes first -/

/-- Deleting what a position defines never fails. -/
theorem perform_deleteOwned (wellFormed : engine.store.WellFormed) (tree : TreeKind) (id : Position) :
    ∃ owned between, Store.definitionsAt engine.store tree.defines id = .ok owned ∧
      engine.perform (owned.forM fun (_, definition) => deleteStored tree.defines definition) =
        (.ok (), between) ∧
      Released engine between
        (fun definition => Definition.isOwnedBy tree.defines id definition = true) := by
  let here := (engine.store.definitionsOf tree.defines).filter fun definition =>
    definition.position == id
  let owned := here.map fun definition => (definition.name, definition.id)
  have ids : owned.map Prod.snd = here.map Definition.id := by
    rw [List.map_map]
    rfl
  have distinct : (owned.map Prod.snd).Nodup := by
    rw [ids]
    exact (wellFormed.nodup_definitionsOf tree.defines).sublist (List.filter_sublist.map _)
  have stored : ∀ pair ∈ owned,
      ∃ definition, engine.store.definition? tree.defines pair.2 = some definition := by
    intro pair member
    rcases List.mem_map.mp member with ⟨definition, isHere, rfl⟩
    rcases MemoryStore.mem_definitionsOf.mp (List.mem_filter.mp isHere).1 with ⟨key, found, isKind⟩
    rw [← wellFormed.definition_id key definition found] at found
    exact ⟨definition, MemoryStore.definition?_eq_some_iff.mpr ⟨found, isKind⟩⟩
  rcases perform_deleteEach wellFormed tree.defines distinct stored with ⟨between, performed, released⟩
  refine ⟨owned, between, rfl, performed, released.congr fun key definition found => ?_⟩
  rw [ids, List.mem_map, Definition.isOwnedBy_iff]
  constructor
  · rintro ⟨other, isHere, sameId⟩
    rw [List.mem_filter, beq_iff_eq] at isHere
    rcases MemoryStore.mem_definitionsOf.mp isHere.1 with ⟨otherKey, otherFound, isKind⟩
    rw [← wellFormed.definition_id otherKey other otherFound, sameId,
      wellFormed.definition_id key definition found, found, Option.some.injEq] at otherFound
    exact otherFound ▸ ⟨isKind, isHere.2⟩
  · rintro ⟨isKind, isHere⟩
    refine ⟨definition, ?_, rfl⟩
    rw [List.mem_filter, beq_iff_eq]
    exact ⟨MemoryStore.mem_definitionsOf.mpr ⟨key, found, isKind⟩, isHere⟩

/-- Store the trees behind a removal, and pass the report on. -/
def finishRemoval (tree : TreeKind) (id : Position) (children : List Position)
    (report : CascadeReport) : EngineM MemoryStore CascadeReport := do
  EngineM.tell fun store => Store.deleteTreeNode store tree id
  storeNodes tree children
  pure report

/-- What a removal does before the cascade, and what is left to do. -/
structure Uprooting (engine between middle : Engine MemoryStore) (tree : TreeKind) (id : Position)
    (dropped : CascadeReport) : Prop where
  released : Released engine between
    fun definition => Definition.isOwnedBy tree.defines id definition = true
  performed : between.perform (reportEach drop (engine.heldAt tree id)) = (.ok dropped, middle)
  settling : Settling between middle fun key slot =>
    if key ∈ engine.heldAt tree id then Slot.empty else slot

theorem perform_removePosition (wellFormed : engine.store.WellFormed)
    (present : (engine.scheme.tree tree).contains id = true) :
    ∃ between middle dropped, Uprooting engine between middle tree id dropped ∧
      engine.perform (removePosition tree id) =
        middle.perform (cascade tree.defines (engine.namesResolvingAt tree.defines id) none
          (changeTree tree fun positions => (positions.remove id).map Prod.fst) >>= fun report =>
            finishRemoval tree id ((engine.scheme.tree tree).children id) (dropped ++ report)) := by
  rcases PositionTree.contains_iff.mp present with ⟨up, found⟩
  have above := PositionTree.ancestors_eq_ok_iff.mpr found
  rcases perform_deleteOwned engine wellFormed tree id with ⟨owned, between, isOwned, deleted, released⟩
  rcases perform_dropAll between (engine.heldAt tree id) with ⟨dropped, middle, performed, settling⟩
  refine ⟨between, middle, dropped, ⟨released, performed, settling⟩, ?_⟩
  have cache : between.cache = engine.cache := by rw [released.frame]
  have names : between.namesResolvingAt tree.defines id = engine.namesResolvingAt tree.defines id := by
    rw [namesResolvingAt, namesResolvingAt, released.scheme_eq]
  rw [heldAt, ← cache] at performed
  simp only [removePosition, perform_bind, perform_get, above, perform_ofTree_ok, perform_ask, isOwned,
    Except.mapError, deleted, positionRemoved, performed, names, finishRemoval]
  rcases middle.perform (cascade tree.defines (engine.namesResolvingAt tree.defines id) none
    (changeTree tree fun positions => (positions.remove id).map Prod.fst)) with ⟨_ | report, after⟩
  · rfl
  · rfl

theorem perform_removePosition_error
    (absent : (engine.scheme.tree tree).contains id = false) :
    ∃ error, engine.perform (removePosition tree id) = (.error error, engine) := by
  have above : (engine.scheme.tree tree).ancestors id =
      .error (.unknownPosition (engine.scheme.tree tree).kind id) := by
    rw [PositionTree.ancestors, PositionTree.ancestors?, PositionTree.contains_eq_false_iff.mp absent]
  refine ⟨.tree (.unknownPosition (engine.scheme.tree tree).kind id), ?_⟩
  simp only [removePosition, perform_bind, perform_get, above, perform_ofTree_error]

namespace Uprooting

variable {engine} {between middle : Engine MemoryStore} {dropped : CascadeReport}

theorem scheme_eq (uprooting : Uprooting engine between middle tree id dropped) :
    middle.scheme = engine.scheme :=
  uprooting.settling.scheme_eq.trans uprooting.released.scheme_eq

theorem founded (uprooting : Uprooting engine between middle tree id dropped)
    (founded : engine.Founded) : middle.Founded :=
  uprooting.settling.founded (uprooting.released.founded founded)

theorem nodes_eq (uprooting : Uprooting engine between middle tree id dropped) (other : TreeKind) :
    middle.store.nodes other = engine.store.nodes other :=
  (uprooting.settling.nodes_eq other).trans (uprooting.released.reduced.nodes_eq other)

theorem cleared (uprooting : Uprooting engine between middle tree id dropped)
    (upheld : engine.Upheld) : Cleared engine middle
      fun definition => Definition.isOwnedBy tree.defines id definition = true := by
  have cleared := uprooting.released.cleared upheld
  have settling := uprooting.settling
  refine ⟨⟨fun other definition => ?_⟩, ?_, uprooting.scheme_eq, ?_, ?_, ?_, ?_, ?_⟩
  · rw [settling.definitions_eq]
    exact cleared.fewer.definitions_iff other definition
  · refine cleared.onward.trans (MemoryStore.onward_of_definitions settling.definitions_eq ?_)
    rw [settling.store_eq]
  · exact settling.config_eq.trans cleared.config_eq
  · exact settling.registry_eq.trans cleared.registry_eq
  · exact settling.wellFormed cleared.wellFormed
  · exact settling.backed cleared.backed
  · refine (settling.sound cleared.sound).of_definitions fun other definition stored => ?_
    rwa [MemoryStore.definition?, settling.definitions_eq] at stored

/-- The artifacts at the position are gone. -/
theorem held_eq_none (uprooting : Uprooting engine between middle tree id dropped)
    {key : ArtifactKey} (here : isAt tree id key = true) : (middle.slot key).held = none := by
  rw [uprooting.settling.slot_eq]
  split
  · rfl
  · next notHeld =>
      rw [uprooting.released.slot_eq]
      by_contra held
      exact notHeld ((mem_heldAt engine).mpr ⟨held, here⟩)

/-- Nothing is lost exactly if there was nothing to lose. -/
theorem untouched_iff (uprooting : Uprooting engine between middle tree id dropped) :
    Untouched engine middle ↔
      (∀ (key : DefinitionId) (definition : Definition),
        engine.store.definitions[key]? = some definition →
          definition.isOwnedBy tree.defines id = false) ∧ engine.heldAt tree id = [] := by
  constructor
  · intro untouched
    have sameStore : middle.store = engine.store := by rw [untouched]
    have sameCache : middle.cache = engine.cache := by rw [untouched]
    constructor
    · intro key definition stored
      have still : middle.store.definitions[key]? = some definition := sameStore ▸ stored
      rw [uprooting.settling.definitions_eq, uprooting.released.reduced.definitions_iff,
        Bool.not_eq_true] at still
      exact still.2
    · rw [List.eq_nil_iff_forall_not_mem]
      intro key member
      have emptied := uprooting.settling.slot_eq key
      rw [if_pos member] at emptied
      have same : (middle.slot key).held = (engine.slot key).held := by rw [slot, slot, sameCache]
      apply ((mem_heldAt engine).mp member).1
      rw [← same, emptied]
      rfl
  · rintro ⟨unowned, unheld⟩
    have reduced : engine.store.Reduced between.store fun _ => False := by
      refine uprooting.released.reduced.congr fun key definition stored => ?_
      rw [unowned key definition stored]
      exact iff_of_false Bool.false_ne_true not_false
    have sameStore := reduced.unique (MemoryStore.Reduced.refl engine.store)
    have performed := uprooting.performed
    rw [unheld, reportEach, perform_pure, Prod.mk.injEq] at performed
    have frame := uprooting.released.frame
    rw [sameStore, performed.2] at frame
    exact frame

/-- Where there is nothing to lose, nothing has been done. -/
theorem idle (uprooting : Uprooting engine between middle tree id dropped)
    (untouched : Untouched engine middle) : Idle engine middle := by
  refine ⟨middle.memo, fun sound => ?_, untouched⟩
  have released := uprooting.settling.sound (uprooting.released.sound sound)
  refine released.of_definitions fun other definition stored => ?_
  have same : middle.store = engine.store := by rw [untouched]
  rwa [MemoryStore.definition?, ← uprooting.settling.definitions_eq, same]

theorem slot_eq (uprooting : Uprooting engine between middle tree id dropped)
    {key : ArtifactKey} (elsewhere : ¬ isAt tree id key = true) : middle.slot key = engine.slot key := by
  rw [uprooting.settling.slot_eq, if_neg, uprooting.released.slot_eq]
  intro member
  exact elsewhere ((mem_heldAt engine).mp member).2

end Uprooting

/-! ## The cascade and what comes behind it -/

variable {engine}

theorem changeTree_remove {scheme : InheritanceScheme} {left : PositionTree}
    {removal : PositionTree.Removal} (removed : (scheme.tree tree).remove id = .ok (left, removal)) :
    changeTree tree (fun positions => (positions.remove id).map Prod.fst) scheme =
      .ok (scheme.withTree tree left) := by
  apply changeTree_ok
  rw [removed, Except.map]

/-- The nodes of a tree after a removal. -/
def nodesWithout (store : MemoryStore) (tree : TreeKind) (id : Position)
    (changed : List TreeNode) : Std.ExtTreeMap Position TreeNode :=
  PositionTree.overwrite ((store.nodes tree).erase id) changed

theorem perform_finishRemoval (engine : Engine MemoryStore) (tree : TreeKind) {id : Position}
    (stored : (engine.store.nodes tree).contains id = true) (children : List Position)
    (report : CascadeReport) :
    engine.perform (finishRemoval tree id children report) =
      (.ok report, engine.replanted tree (nodesWithout engine.store tree id
        ((engine.scheme.tree tree).nodesBelow children))) := by
  have deleted : Store.deleteTreeNode engine.store tree id =
      .ok (engine.store.withNodes tree ((engine.store.nodes tree).erase id)) := by
    change engine.store.deleteTreeNode tree id = _
    rw [MemoryStore.deleteTreeNode, if_pos stored]
  have told : engine.perform (EngineM.tell fun store => Store.deleteTreeNode store tree id) =
      (.ok (), engine.replanted tree ((engine.store.nodes tree).erase id)) :=
    perform_tell_ok engine deleted
  rw [finishRemoval, perform_bind_ok engine told, perform_bind_ok _ (perform_storeNodes _ tree children),
    perform_pure]
  simp only [replanted, nodesWithout, MemoryStore.withNodes_withNodes, MemoryStore.nodes_withNodes,
    if_pos]

theorem perform_finishRemoval_error (engine : Engine MemoryStore) {tree : TreeKind} {id : Position}
    (missing : (engine.store.nodes tree).contains id = false) (children : List Position)
    (report : CascadeReport) :
    engine.perform (finishRemoval tree id children report) =
      (.error (.store (.missingPosition tree id)), engine) := by
  have refused : Store.deleteTreeNode engine.store tree id = .error (.missingPosition tree id) := by
    change engine.store.deleteTreeNode tree id = _
    rw [MemoryStore.deleteTreeNode, missing, if_neg Bool.false_ne_true]
  exact perform_bind_error engine (perform_tell_error engine refused)

/-- Every position but the root has a node. -/
theorem contains_node (founded : engine.Founded)
    (present : (engine.scheme.tree tree).contains id = true) (notRoot : id ≠ rootPosition) :
    (engine.store.nodes tree).contains id = true := by
  rw [← Std.ExtTreeMap.mem_iff_contains]
  exact (((founded.trees.stored tree).contains_iff id).mp present).resolve_left notRoot

/-- The cascade of a removal goes through for any position of the tree but the root. -/
theorem perform_removePosition_carried (wellFormed : engine.store.WellFormed)
    (present : (engine.scheme.tree tree).contains id = true) (notRoot : id ≠ rootPosition) :
    ∃ between middle dropped left removal report last,
      Uprooting engine between middle tree id dropped ∧
      (engine.scheme.tree tree).remove id = .ok (left, removal) ∧
      middle.perform (cascade tree.defines (engine.namesResolvingAt tree.defines id) none
        (changeTree tree fun positions => (positions.remove id).map Prod.fst)) = (.ok report, last) ∧
      Framed middle last (engine.scheme.withTree tree left) ∧
      engine.perform (removePosition tree id) = last.perform
        (finishRemoval tree id ((engine.scheme.tree tree).children id) (dropped ++ report)) := by
  rcases perform_removePosition engine wellFormed present with
    ⟨between, middle, dropped, uprooting, performed⟩
  rcases PositionTree.exists_remove present notRoot with ⟨left, removal, removed⟩
  have mutates := changeTree_remove removed
  rw [← uprooting.scheme_eq] at mutates
  rcases exists_perform_cascade middle (engine.namesResolvingAt tree.defines id) mutates with
    ⟨report, last, carried, framed⟩
  rw [uprooting.scheme_eq] at framed
  refine ⟨between, middle, dropped, left, removal, report, last, uprooting, removed, carried, framed,
    ?_⟩
  rw [performed, perform_bind_ok middle carried]

/-- A removal of any position of the tree but the root goes through if the position is stored. -/
theorem perform_removePosition_ok (wellFormed : engine.store.WellFormed)
    (present : (engine.scheme.tree tree).contains id = true) (notRoot : id ≠ rootPosition)
    (stored : (engine.store.nodes tree).contains id = true) :
    ∃ between middle dropped left removal report last,
      Uprooting engine between middle tree id dropped ∧
      (engine.scheme.tree tree).remove id = .ok (left, removal) ∧
      middle.perform (cascade tree.defines (engine.namesResolvingAt tree.defines id) none
        (changeTree tree fun positions => (positions.remove id).map Prod.fst)) = (.ok report, last) ∧
      Framed middle last (engine.scheme.withTree tree left) ∧
      engine.perform (removePosition tree id) =
        (.ok (dropped ++ report), last.replanted tree (nodesWithout engine.store tree id
          (left.nodesBelow ((engine.scheme.tree tree).children id)))) := by
  rcases perform_removePosition_carried wellFormed present notRoot with
    ⟨between, middle, dropped, left, removal, report, last, uprooting, removed, carried, framed,
      performed⟩
  refine ⟨between, middle, dropped, left, removal, report, last, uprooting, removed, carried, framed,
    ?_⟩
  have nodes : last.store.nodes tree = engine.store.nodes tree := by
    rw [framed.store_eq, MemoryStore.nodes_withArtifacts, uprooting.nodes_eq]
  have positions : last.scheme.tree tree = left := by
    rw [framed.tree_eq, InheritanceScheme.tree_withTree, if_pos rfl]
  rw [← nodes] at stored
  rw [performed, perform_finishRemoval last tree stored, nodesWithout, nodes, positions]
  rfl

/-- The root is refused when its definitions and its artifacts are gone already. -/
theorem perform_removePosition_root (wellFormed : engine.store.WellFormed) (tree : TreeKind) :
    ∃ between middle dropped, Uprooting engine between middle tree rootPosition dropped ∧
      engine.perform (removePosition tree rootPosition) =
        (.error (.tree (.rootImmutable (engine.scheme.tree tree).kind)), middle) := by
  rcases perform_removePosition engine wellFormed
      (PositionTree.contains_root (engine.scheme.tree tree)) with
    ⟨between, middle, dropped, uprooting, performed⟩
  have mutates : changeTree tree (fun positions => (positions.remove rootPosition).map Prod.fst)
      middle.scheme = .error (.rootImmutable (engine.scheme.tree tree).kind) := by
    apply changeTree_error
    rw [PositionTree.remove_root, uprooting.scheme_eq, Except.map]
  refine ⟨between, middle, dropped, uprooting, ?_⟩
  rw [performed, perform_bind_error middle (perform_cascade_error middle _ mutates)]

/-- A position that the tree has and the store does not is refused when it is gone from the tree. -/
theorem perform_removePosition_missing (wellFormed : engine.store.WellFormed)
    (present : (engine.scheme.tree tree).contains id = true) (notRoot : id ≠ rootPosition)
    (missing : (engine.store.nodes tree).contains id = false) :
    ∃ last, engine.perform (removePosition tree id) =
        (.error (.store (.missingPosition tree id)), last) ∧
      (last.scheme.tree tree).contains id = false := by
  rcases perform_removePosition_carried wellFormed present notRoot with
    ⟨between, middle, dropped, left, removal, report, last, uprooting, removed, carried, framed,
      performed⟩
  rcases PositionTree.remove_without removed with ⟨_, parent, isWithout⟩
  have nodes : last.store.nodes tree = engine.store.nodes tree := by
    rw [framed.store_eq, MemoryStore.nodes_withArtifacts, uprooting.nodes_eq]
  rw [← nodes] at missing
  refine ⟨last, performed.trans (perform_finishRemoval_error last missing _ _), ?_⟩
  rw [framed.tree_eq, InheritanceScheme.tree_withTree, if_pos rfl, ← Bool.not_eq_true,
    isWithout.contains_iff]
  exact fun both => both.1 rfl

/-- A removal goes through for positions of the tree other than the root only. -/
theorem contains_of_removePosition (founded : engine.Founded) {report : CascadeReport}
    {after : Engine MemoryStore}
    (succeeded : engine.perform (removePosition tree id) = (.ok report, after)) :
    (engine.scheme.tree tree).contains id = true ∧ id ≠ rootPosition := by
  constructor
  · by_contra absent
    rw [Bool.not_eq_true] at absent
    rcases perform_removePosition_error engine absent with ⟨_, performed⟩
    rw [performed] at succeeded
    cases succeeded
  · rintro rfl
    rcases perform_removePosition_root founded.wellFormed tree with ⟨_, _, _, _, performed⟩
    rw [performed] at succeeded
    cases succeeded

/-- The steps of a removal that goes through. -/
theorem steps_of_removePosition (founded : engine.Founded) {report : CascadeReport}
    {after : Engine MemoryStore}
    (succeeded : engine.perform (removePosition tree id) = (.ok report, after)) :
    ∃ between middle dropped left removal first last parent,
      Uprooting engine between middle tree id dropped ∧
      (engine.scheme.tree tree).remove id = .ok (left, removal) ∧
      (engine.scheme.tree tree).Without left id parent ∧
      middle.perform (cascade tree.defines (engine.namesResolvingAt tree.defines id) none
        (changeTree tree fun positions => (positions.remove id).map Prod.fst)) = (.ok first, last) ∧
      Framed middle last (engine.scheme.withTree tree left) ∧ report = dropped ++ first ∧
      after = last.replanted tree (nodesWithout engine.store tree id
        (left.nodesBelow ((engine.scheme.tree tree).children id))) := by
  rcases contains_of_removePosition founded succeeded with ⟨present, notRoot⟩
  rcases perform_removePosition_ok founded.wellFormed present notRoot
      (contains_node founded present notRoot) with
    ⟨between, middle, dropped, left, removal, first, last, uprooting, removed, carried, framed, performed⟩
  rw [succeeded, Prod.mk.injEq, Except.ok.injEq] at performed
  rcases PositionTree.remove_without removed with ⟨_, parent, isWithout⟩
  exact ⟨between, middle, dropped, left, removal, first, last, parent, uprooting, removed, isWithout,
    carried, framed, performed.1, performed.2⟩

/-- Where a removal goes through, it leaves the store without the position and what it defines. -/
theorem removePosition_stores (founded : engine.Founded) {report : CascadeReport}
    {after : Engine MemoryStore}
    (succeeded : engine.perform (removePosition tree id) = (.ok report, after)) :
    ∃ left removal, (engine.scheme.tree tree).remove id = .ok (left, removal) ∧
      Stores ((engine.store.discard (Definition.isOwnedBy tree.defines id)).withNodes tree
        (nodesWithout engine.store tree id
          (left.nodesBelow ((engine.scheme.tree tree).children id)))) after := by
  rcases steps_of_removePosition founded succeeded with
    ⟨between, middle, dropped, left, removal, first, last, parent, uprooting, removed, isWithout, _,
      framed, _, rfl⟩
  have middleFounded := uprooting.founded founded
  refine ⟨left, removal, removed, framed.founded_replanted middleFounded.wellFormed
    middleFounded.backed ?_ ?_, ?_⟩
  · exact PositionTree.overwrite_keyed (keyed_erase (founded.wellFormed.node_id tree) id) _
  · have trees := middleFounded.trees
    rw [uprooting.scheme_eq] at trees
    apply trees.withNodes
    · exact isWithout.kind.trans (founded.trees.kind_eq tree)
    · exact (founded.trees.stored tree).without isWithout
  · have discarded := uprooting.released.reduced.unique
      (MemoryStore.discard_reduced engine.store (Definition.isOwnedBy tree.defines id))
    rw [← discarded, replanted, framed.store_eq, uprooting.settling.store_eq]
    cases tree <;> rfl

section Without

variable {left : PositionTree} {parent : Position}
  (isWithout : (engine.scheme.tree tree).Without left id parent) {store : MemoryStore}
  {kind : DefinitionKind} {list : List String} {scheme : InheritanceScheme}
  (reworked : Reworked store kind list (engine.scheme.withTree tree left) scheme) {key : ArtifactKey}

include isWithout reworked

/-- The languages of other keys are still there, if they were. -/
theorem contains_language_elsewhere (elsewhere : ¬ isAt tree id key = true) :
    scheme.languages.contains key.language = engine.scheme.languages.contains key.language := by
  have changed : scheme.languages = _ := reworked.tree_eq .language
  rw [changed, InheritanceScheme.tree_withTree]
  split
  · next isLanguage =>
      subst isLanguage
      have different : key.language ≠ id := by simpa [isAt] using elsewhere
      rw [Bool.eq_iff_iff, isWithout.contains_iff]
      exact and_iff_right different
  · rfl

/-- A removed position has nothing in effect. -/
theorem own?_of_removed {other : MemoryStore} (tracks : ∀ name, Tracks other scheme tree.defines name)
    (here : isAt tree id key = true) : own? other scheme key = none := by
  have gone : (scheme.tree tree).contains id = false := by
    rw [reworked.tree_eq, InheritanceScheme.tree_withTree, if_pos rfl, ← Bool.not_eq_true,
      isWithout.contains_iff]
    exact fun both => both.1 rfl
  have unresolved : ∀ name, effective? other scheme tree.defines name id = none := by
    intro name
    rw [effective?, Option.map_eq_none_iff, Option.eq_none_iff_forall_ne_some]
    intro definition resolved
    have inTree := (tracks name).trailing.inTree id definition resolved
    rw [tree.tree_defines, gone] at inTree
    cases inTree
  cases tree with
  | style =>
      cases key with
      | phrase language name => simp [isAt, ArtifactKey.style?] at here
      | template style language name =>
          have atId : style = id := by simpa [isAt, ArtifactKey.style?] using here
          have nothing : effective? other scheme .template name style = none :=
            atId ▸ unresolved name
          rw [own?, nothing, ite_self]
  | language =>
      have atId : key.language = id := by simpa [isAt] using here
      cases key with
      | template style language name =>
          apply own?_of_absent_language other rfl
          rw [atId]
          exact gone
      | phrase language name =>
          have sameLanguage : language = id := atId
          rw [own?, sameLanguage]
          exact unresolved name

end Without

/-- A removal prepares for a cascade of the names that resolve at the position. -/
theorem prepared_uprooted (upheld : engine.Upheld) {between middle : Engine MemoryStore}
    {dropped : CascadeReport} (uprooting : Uprooting engine between middle tree id dropped)
    {left : PositionTree} {parent : Position}
    (isWithout : (engine.scheme.tree tree).Without left id parent) :
    Prepared engine middle tree.defines (engine.namesResolvingAt tree.defines id) none
      (engine.scheme.withTree tree left) := by
  have cleared := uprooting.cleared upheld
  have present : (engine.scheme.tree tree.defines.tree).contains id = true := by
    rw [tree.tree_defines]
    exact PositionTree.contains_of_parent? isWithout.isParent
  have selected : ∀ (other : DefinitionId) (definition : Definition),
      engine.store.definitions[other]? = some definition →
      Definition.isOwnedBy tree.defines id definition = true →
      definition.name ∈ engine.namesResolvingAt tree.defines id := by
    intro other definition stored owned
    rcases Definition.isOwnedBy_iff.mp owned with ⟨isKind, isHere⟩
    have own : (engine.store.direct tree.defines definition.name)[id]? = some other :=
      upheld.wellFormed.direct_eq_some_iff.mpr ⟨definition, stored, isKind, rfl, isHere⟩
    by_contra absent
    have resolved := (upheld.tracks tree.defines definition.name).trailing.found_of_direct present own
    rw [resolve?_of_not_mem engine absent] at resolved
    cases resolved
  have sameDirect : ∀ name, name ∉ engine.namesResolvingAt tree.defines id →
      middle.store.direct tree.defines name = engine.store.direct tree.defines name := by
    intro name absent
    have same : engine.store.SameNamed middle.store tree.defines name := by
      apply cleared.fewer.sameNamed
      intro other definition stored _ isName gone
      exact absent (isName ▸ selected other definition stored gone)
    exact same.direct_eq upheld.wellFormed cleared.wellFormed
  apply cleared.prepared_withTree upheld
  · exact fun definition gone => (Definition.isOwnedBy_iff.mp gone).1
  · exact selected
  · intro name absent trailing
    have unresolved := resolve?_of_not_mem engine absent
    rw [sameDirect name absent]
    exact ⟨flatten_without isWithout (trailing.flatten_eq_none unresolved), trailing.without isWithout unresolved⟩

/-- Removing a position brings everything in line. -/
theorem removePosition_advances (inStep : engine.InStep) {report : CascadeReport}
    {after : Engine MemoryStore}
    (succeeded : engine.perform (removePosition tree id) = (.ok report, after)) :
    Advances engine after := by
  rcases removePosition_stores inStep.founded succeeded with ⟨_, _, _, stores⟩
  rcases steps_of_removePosition inStep.founded succeeded with
    ⟨between, middle, dropped, left, removal, first, last, parent, uprooting, removed, isWithout,
      carried, _, _, rfl⟩
  have prepared := prepared_uprooted inStep.upheld uprooting isWithout
  rcases prepared.perform_cascade inStep (changeTree_remove removed) with ⟨_, _, again, cascaded⟩
  rw [carried, Prod.mk.injEq] at again
  rcases again with ⟨_, rfl⟩
  have config : last.config = engine.config := cascaded.config_eq.trans prepared.config_eq
  refine ⟨cascaded.inStep_replanted prepared inStep stores.founded, config, fun key => ?_⟩
  have maps := cascaded.carried.maps prepared inStep.maps
  have step : SlotStep engine last key := by
    by_cases here : isAt tree id key = true
    · have nothing := own?_of_removed isWithout cascaded.reworked
        (maps.tracks cascaded.wellFormed tree.defines) here
      have unresolved : last.scratch key = .unresolved := fresh_eq_unresolved_iff.mpr nothing
      apply SlotStep.dropped nothing
      by_cases concerned : OwnConcerned (engine.scheme.withTree tree left) last.scheme tree.defines none
          (engine.namesResolvingAt tree.defines id).toList key ∨
        UseConcerned (engine.scheme.withTree tree left) last.scheme tree.defines none
          (engine.namesResolvingAt tree.defines id).toList key (middle.usesOf key)
      · rw [cascaded.slot_concerned key concerned, unresolved]
        rfl
      · rw [cascaded.slot_other key concerned]
        exact uprooting.held_eq_none here
    · apply cascaded.slotStep_of_languages prepared inStep (uprooting.slot_eq here)
      exact fun _ => contains_language_elsewhere isWithout cascaded.reworked here
  exact step.of_same (MemoryStore.definitions_withNodes last.store tree _) rfl rfl

theorem removePosition_untouched (wellFormed : engine.store.WellFormed) (notRoot : id ≠ rootPosition)
    (stored : (engine.scheme.tree tree).contains id = true →
      (engine.store.nodes tree).contains id = true)
    {error : EngineError} {after : Engine MemoryStore}
    (failed : engine.perform (removePosition tree id) = (.error error, after)) :
    after = engine := by
  cases present : (engine.scheme.tree tree).contains id with
  | false =>
      rcases perform_removePosition_error engine present with ⟨_, performed⟩
      rw [performed, Prod.mk.injEq] at failed
      exact failed.2.symm
  | true =>
      rcases perform_removePosition_ok wellFormed present notRoot (stored present) with
        ⟨_, _, _, _, _, _, _, _, _, _, _, performed⟩
      rw [performed] at failed
      cases failed

end Engine
end TemplateCascade

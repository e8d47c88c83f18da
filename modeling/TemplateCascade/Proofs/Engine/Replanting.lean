import Mathlib
import TemplateCascade.Proofs.Engine.Planting

namespace TemplateCascade

/-!
# Moving positions

The tree of the engine is changed with the cascade, and the nodes of the positions that have another
parent are stored behind it.  Nothing is done before the tree has been asked, so a move that it refuses
leaves the engine as it was.
-/

namespace Engine

variable (engine : Engine MemoryStore) {tree : TreeKind} {id parent : Position}

theorem changeTree_setParent {scheme : InheritanceScheme} {moved : PositionTree}
    {move : PositionTree.Move} (set : (scheme.tree tree).setParent id parent = .ok (moved, move)) :
    changeTree tree (fun positions => (positions.setParent id parent).map Prod.fst) scheme =
      .ok (scheme.withTree tree moved) := by
  apply changeTree_ok
  rw [set, Except.map]

/-- Store the nodes below a moved position, and pass the report on. -/
def finishMove (tree : TreeKind) (id : Position) (report : CascadeReport) :
    EngineM MemoryStore CascadeReport := do
  storeNodes tree [id]
  pure report

/-- A move asks for the names above the position, where it is and where it goes. -/
theorem perform_movePosition (wellFormed : engine.store.WellFormed)
    {up upParent : List Position} (found : (engine.scheme.tree tree).chains[id]? = some up)
    (parentFound : (engine.scheme.tree tree).chains[parent]? = some upParent) :
    ∃ names, (∀ name, name ∉ names → ∀ position ∈ up ++ (upParent ++ [parent]),
        (engine.store.direct tree.defines name)[position]? = none) ∧
      engine.perform (movePosition tree id parent) =
        engine.perform (cascade tree.defines names none
          (changeTree tree fun positions => (positions.setParent id parent).map Prod.fst) >>=
            finishMove tree id) := by
  have old := PositionTree.ancestors_eq_ok_iff.mpr found
  have new : (engine.scheme.tree tree).chain parent = .ok (upParent ++ [parent]) := by
    rw [PositionTree.chain, PositionTree.ancestors_eq_ok_iff.mpr parentFound, Except.map]
  rcases perform_namesDefinedAt engine tree.defines (up ++ (upParent ++ [parent])) with
    ⟨names, asked, undefined⟩
  refine ⟨names, undefined wellFormed, ?_⟩
  simp only [movePosition, positionMoved, finishMove, perform_bind, perform_get, old, new,
    perform_ofTree_ok, asked]

/-- A move that the tree refuses has done nothing. -/
theorem perform_movePosition_error (wellFormed : engine.store.WellFormed) {error : TreeError}
    (refused : (engine.scheme.tree tree).setParent id parent = .error error) :
    ∃ error, engine.perform (movePosition tree id parent) = (.error error, engine) := by
  cases old : (engine.scheme.tree tree).ancestors id with
  | error reason =>
      refine ⟨.tree reason, ?_⟩
      simp only [movePosition, positionMoved, perform_bind, perform_get, old, perform_ofTree_error]
  | ok up =>
      cases above : (engine.scheme.tree tree).ancestors parent with
      | error reason =>
          have new : (engine.scheme.tree tree).chain parent = .error reason := by
            rw [PositionTree.chain, above, Except.map]
          refine ⟨.tree reason, ?_⟩
          simp only [movePosition, positionMoved, perform_bind, perform_get, old, new,
            perform_ofTree_ok, perform_ofTree_error]
      | ok upParent =>
          have found := PositionTree.ancestors_eq_ok_iff.mp old
          have parentFound := PositionTree.ancestors_eq_ok_iff.mp above
          rcases perform_movePosition engine wellFormed found parentFound with ⟨names, _, performed⟩
          have mutates : changeTree tree (fun positions =>
              (positions.setParent id parent).map Prod.fst) engine.scheme = .error error := by
            apply changeTree_error
            rw [refused, Except.map]
          refine ⟨.tree error, ?_⟩
          rw [performed, perform_bind_error engine (perform_cascade_error engine names mutates)]

variable {engine}

/-- A name has no definition above a position, nor at another one or above that. -/
def UndefinedAbove (positions : PositionTree) (id parent : Position) (direct : DirectDefinitions) : Prop :=
  ∃ up upParent, positions.chains[id]? = some up ∧ positions.chains[parent]? = some upParent ∧
    ∀ position ∈ up ++ (upParent ++ [parent]), direct[position]? = none

/-- The names that a move does not select resolve neither at the old parent nor at the new one. -/
theorem flatten_moved_of_undefined {positions moved : PositionTree}
    {direct : DirectDefinitions} (isMoved : positions.Moved moved id parent)
    (undefined : UndefinedAbove positions id parent direct) :
    flatten moved direct = flatten positions direct := by
  rcases undefined with ⟨up, upParent, found, parentFound, undefined⟩
  rcases PositionTree.exists_parent? isMoved.present isMoved.notRoot with ⟨old, isParent⟩
  rcases PositionTree.parent?_eq_some_iff.mp isParent with ⟨higher, oldFound, again⟩
  rw [found, Option.some.injEq] at again
  subst again
  apply flatten_moved isMoved isParent
  · apply flatten_eq_none_of_chain oldFound
    exact fun position member => undefined position (List.mem_append_left _ member)
  · apply flatten_eq_none_of_chain parentFound
    exact fun position member => undefined position (List.mem_append_right _ member)

/-- Where the root lags behind, they have what the root has, at the old parent and at the new one. -/
theorem trailing_moved_of_undefined {positions moved : PositionTree} {direct : DirectDefinitions}
    {found : Position → Option DefinitionId} (trailing : Trailing positions direct found)
    (isMoved : positions.Moved moved id parent)
    (undefined : UndefinedAbove positions id parent direct) : Trailing moved direct found := by
  rcases undefined with ⟨up, upParent, idFound, parentFound, undefined⟩
  rcases PositionTree.exists_parent? isMoved.present isMoved.notRoot with ⟨old, isParent⟩
  rcases PositionTree.parent?_eq_some_iff.mp isParent with ⟨higher, oldFound, again⟩
  rw [idFound, Option.some.injEq] at again
  subst again
  apply trailing.moved isMoved isParent
  rw [trailing.found_eq_root oldFound fun position member =>
      undefined position (List.mem_append_left _ member),
    trailing.found_eq_root parentFound fun position member =>
      undefined position (List.mem_append_right _ member)]

/-- The steps of a position that is moved. -/
theorem steps_of_movePosition (wellFormed : engine.store.WellFormed) {report : CascadeReport}
    {after : Engine MemoryStore}
    (succeeded : engine.perform (movePosition tree id parent) = (.ok report, after)) :
    ∃ moved move names between,
      (engine.scheme.tree tree).setParent id parent = .ok (moved, move) ∧
      (∀ name, name ∉ names → UndefinedAbove (engine.scheme.tree tree) id parent
        (engine.store.direct tree.defines name)) ∧
      engine.perform (cascade tree.defines names none (changeTree tree fun positions =>
        (positions.setParent id parent).map Prod.fst)) = (.ok report, between) ∧
      after = between.replanted tree (PositionTree.overwrite (between.store.nodes tree)
        ((between.scheme.tree tree).nodesBelow [id])) := by
  rcases set : (engine.scheme.tree tree).setParent id parent with reason | ⟨moved, move⟩
  · rcases perform_movePosition_error engine wellFormed set with ⟨_, refused⟩
    rw [refused] at succeeded
    cases succeeded
  · have isMoved := PositionTree.setParent_moved set
    rcases PositionTree.contains_iff.mp isMoved.present with ⟨up, found⟩
    rcases PositionTree.contains_iff.mp isMoved.parentPresent with ⟨upParent, parentFound⟩
    rcases perform_movePosition engine wellFormed found parentFound with ⟨names, undefined, performed⟩
    rcases exists_perform_cascade engine names (changeTree_setParent set) with
      ⟨first, between, carried, _⟩
    rw [performed, perform_bind_ok engine carried, finishMove,
      perform_bind_ok between (perform_storeNodes between tree [id]), perform_pure,
      Prod.mk.injEq, Except.ok.injEq] at succeeded
    rcases succeeded with ⟨rfl, rfl⟩
    refine ⟨moved, move, names, between, rfl, fun name absent => ?_, carried, rfl⟩
    exact ⟨up, upParent, found, parentFound, undefined name absent⟩

theorem movePosition_untouched (wellFormed : engine.store.WellFormed) {error : EngineError}
    {after : Engine MemoryStore}
    (failed : engine.perform (movePosition tree id parent) = (.error error, after)) :
    after = engine := by
  rcases set : (engine.scheme.tree tree).setParent id parent with reason | ⟨moved, move⟩
  · rcases perform_movePosition_error engine wellFormed set with ⟨_, refused⟩
    rw [refused, Prod.mk.injEq] at failed
    exact failed.2.symm
  · have isMoved := PositionTree.setParent_moved set
    rcases PositionTree.contains_iff.mp isMoved.present with ⟨up, found⟩
    rcases PositionTree.contains_iff.mp isMoved.parentPresent with ⟨upParent, parentFound⟩
    rcases perform_movePosition engine wellFormed found parentFound with ⟨names, _, performed⟩
    rcases exists_perform_cascade engine names (changeTree_setParent set) with
      ⟨first, between, carried, _⟩
    rw [performed, perform_bind_ok engine carried, finishMove,
      perform_bind_ok between (perform_storeNodes between tree [id])] at failed
    cases failed

/-- What a store holds after a position has been moved. -/
def movedStore (store : MemoryStore) (tree : TreeKind) (moved : PositionTree) (id : Position) :
    MemoryStore :=
  store.withNodes tree (PositionTree.overwrite (store.nodes tree) (moved.nodesBelow [id]))

theorem movePosition_stores (founded : engine.Founded) {report : CascadeReport}
    {after : Engine MemoryStore}
    (succeeded : engine.perform (movePosition tree id parent) = (.ok report, after)) :
    ∃ moved move, (engine.scheme.tree tree).setParent id parent = .ok (moved, move) ∧
      Stores (movedStore engine.store tree moved id) after := by
  rcases steps_of_movePosition founded.wellFormed succeeded with
    ⟨moved, move, names, between, set, _, performed, rfl⟩
  have isMoved := PositionTree.setParent_moved set
  rcases exists_perform_cascade engine names (changeTree_setParent set) with ⟨_, _, carried, framed⟩
  rw [performed, Prod.mk.injEq] at carried
  rcases carried with ⟨_, rfl⟩
  have nodes : between.store.nodes tree = engine.store.nodes tree := by
    rw [framed.store_eq, MemoryStore.nodes_withArtifacts]
  have positions : between.scheme.tree tree = moved := by
    rw [framed.tree_eq, InheritanceScheme.tree_withTree, if_pos rfl]
  rw [nodes, positions]
  refine ⟨moved, move, set, framed.founded_replanted founded.wellFormed founded.backed ?_ ?_, ?_⟩
  · exact PositionTree.overwrite_keyed (founded.wellFormed.node_id tree) _
  · apply founded.trees.withNodes
    · exact isMoved.kind.trans (founded.trees.kind_eq tree)
    · exact (founded.trees.stored tree).moved isMoved
  · rw [replanted, movedStore, framed.store_eq]
    cases tree <;> rfl

/-- A move prepares for a cascade of the names that are defined above the position, before or afterwards. -/
theorem prepared_moved (upheld : engine.Upheld) {moved : PositionTree}
    (isMoved : (engine.scheme.tree tree).Moved moved id parent) {names : Std.ExtTreeSet String}
    (unselected : ∀ name, name ∉ names → UndefinedAbove (engine.scheme.tree tree) id parent
      (engine.store.direct tree.defines name)) :
    Prepared engine engine tree.defines names none (engine.scheme.withTree tree moved) := by
  have cleared : Cleared engine engine fun _ => False := (Released.refl engine).cleared upheld
  apply cleared.prepared_withTree upheld
  · exact fun definition gone => gone.elim
  · exact fun other definition _ gone => gone.elim
  · intro name absent trailing
    exact ⟨flatten_moved_of_undefined isMoved (unselected name absent),
      trailing_moved_of_undefined trailing isMoved (unselected name absent)⟩

/-- A move leaves the languages as they are. -/
theorem contains_language_moved {moved : PositionTree}
    (isMoved : (engine.scheme.tree tree).Moved moved id parent) {store : MemoryStore} {kind : DefinitionKind}
    {list : List String} {scheme : InheritanceScheme}
    (reworked : Reworked store kind list (engine.scheme.withTree tree moved) scheme) (position : Position) :
    scheme.languages.contains position = engine.scheme.languages.contains position := by
  have changed : scheme.languages = _ := reworked.tree_eq .language
  rw [changed, InheritanceScheme.tree_withTree]
  split
  · next isLanguage =>
      subst isLanguage
      exact isMoved.contains_eq position
  · rfl

theorem movePosition_advances (inStep : engine.InStep) {report : CascadeReport}
    {after : Engine MemoryStore}
    (succeeded : engine.perform (movePosition tree id parent) = (.ok report, after)) :
    Advances engine after := by
  rcases movePosition_stores inStep.founded succeeded with ⟨_, _, _, stores⟩
  rcases steps_of_movePosition inStep.wellFormed succeeded with
    ⟨moved, move, names, between, set, unselected, performed, rfl⟩
  have isMoved := PositionTree.setParent_moved set
  have prepared := prepared_moved inStep.upheld isMoved unselected
  rcases prepared.perform_cascade inStep (changeTree_setParent set) with ⟨_, _, carried, cascaded⟩
  rw [performed, Prod.mk.injEq] at carried
  rcases carried with ⟨_, rfl⟩
  refine ⟨cascaded.inStep_replanted prepared inStep stores.founded, cascaded.config_eq, fun key => ?_⟩
  have step : SlotStep engine between key :=
    cascaded.slotStep_of_languages prepared inStep rfl fun _ =>
      contains_language_moved isMoved cascaded.reworked key.language
  exact step.of_same (MemoryStore.definitions_withNodes between.store tree _) rfl rfl

end Engine
end TemplateCascade

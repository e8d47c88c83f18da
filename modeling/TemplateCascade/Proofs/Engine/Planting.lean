import Mathlib
import TemplateCascade.Proofs.Engine.Defining

namespace TemplateCascade

/-!
# Adding positions

An edit of a position asks first which names may resolve differently afterwards: names without a
definition at the positions concerned, and names that do not resolve there, can be left out.

A new style is followed by one cascade.  A new language calls for every template as well, and these
templates are built behind the cascade; a template that the cascade has built already is then built
again, with the same outcome.
-/

open Compile (Registry)

theorem TreeKind.tree_defines (tree : TreeKind) : tree.defines.tree = tree := by
  cases tree <;> rfl

namespace Engine

variable (engine : Engine MemoryStore) {tree : TreeKind} {id parent : Position}

/-! ## Names at positions -/

theorem mem_definitionsAt {store : MemoryStore} (wellFormed : store.WellFormed)
    {kind : DefinitionKind} {name : String} {position : Position} {definition : DefinitionId}
    (owned : (store.direct kind name)[position]? = some definition) :
    ∃ pairs, Store.definitionsAt store kind position = .ok pairs ∧ (name, definition) ∈ pairs := by
  rcases wellFormed.direct_eq_some_iff.mp owned with ⟨found, stored, isKind, isName, isHere⟩
  refine ⟨_, rfl, ?_⟩
  rw [List.mem_map]
  refine ⟨found, ?_, ?_⟩
  · rw [List.mem_filter, beq_iff_eq]
    exact ⟨MemoryStore.mem_definitionsOf.mpr ⟨definition, stored, isKind⟩, isHere⟩
  · rw [isName, wellFormed.definition_id definition found stored]

/-- Names that are not found at some positions are not defined there. -/
theorem perform_namesDefinedAt (kind : DefinitionKind) (positions : List Position) :
    ∃ names, engine.perform (namesDefinedAt kind positions) = (.ok names, engine) ∧
      (engine.store.WellFormed → ∀ name, name ∉ names → ∀ position ∈ positions,
        (engine.store.direct kind name)[position]? = none) := by
  induction positions with
  | nil => exact ⟨∅, rfl, fun _ _ _ position member => absurd member List.not_mem_nil⟩
  | cons position rest inductionHypothesis =>
      rcases inductionHypothesis with ⟨others, performed, undefined⟩
      rcases here : Store.definitionsAt engine.store kind position with _ | pairs
      · cases here
      · refine ⟨others.insertMany (pairs.map Prod.fst), ?_, ?_⟩
        · have asked : engine.perform
              (EngineM.ask fun store => Store.definitionsAt store kind position) = (.ok pairs, engine) := by
            rw [perform_ask, here, Except.mapError]
          rw [namesDefinedAt, perform_bind_ok engine asked, perform_bind_ok engine performed,
            perform_pure]
        · intro wellFormed name absent
          rw [Std.ExtTreeSet.mem_insertMany_list, not_or, List.contains_iff_mem] at absent
          rw [List.forall_mem_cons]
          refine ⟨?_, undefined wellFormed name absent.1⟩
          rw [Option.eq_none_iff_forall_ne_some]
          intro definition owned
          rcases mem_definitionsAt wellFormed owned with ⟨found, isFound, member⟩
          rw [here, Except.ok.injEq] at isFound
          subst isFound
          exact absent.2 (List.mem_map_of_mem member)

theorem resolve?_of_not_mem {kind : DefinitionKind} {name : String} {position : Position}
    (absent : name ∉ engine.namesResolvingAt kind position) :
    (engine.scheme.map kind).resolve? name position = none := by
  rw [Option.eq_none_iff_forall_ne_some]
  intro definition resolved
  apply absent
  rw [namesResolvingAt, Std.ExtTreeSet.mem_ofList, List.contains_iff_mem, List.mem_map]
  exact ⟨(name, definition), ResolutionMap.mem_namesAt.mpr resolved, rfl⟩

/-! ## Changing a tree and its nodes -/

theorem changeTree_ok {scheme : InheritanceScheme} {positions : PositionTree}
    {change : PositionTree → Except TreeError PositionTree}
    (changed : change (scheme.tree tree) = .ok positions) :
    changeTree tree change scheme = .ok (scheme.withTree tree positions) := by
  rw [changeTree, changed, Except.map]

theorem changeTree_error {scheme : InheritanceScheme} {error : TreeError}
    {change : PositionTree → Except TreeError PositionTree}
    (refused : change (scheme.tree tree) = .error error) :
    changeTree tree change scheme = .error error := by
  rw [changeTree, refused, Except.map]

theorem changeTree_insert {scheme : InheritanceScheme} {grown : PositionTree}
    (added : (scheme.tree tree).insert id parent = .ok grown) :
    changeTree tree (fun positions => positions.insert id parent) scheme =
      .ok (scheme.withTree tree grown) :=
  changeTree_ok added

/-- Storing nodes never fails. -/
theorem perform_putNodes (tree : TreeKind) (nodes : List TreeNode) :
    engine.perform (nodes.forM fun node =>
        EngineM.tell fun store => Store.putTreeNode store tree node) =
      (.ok (), engine.replanted tree (PositionTree.overwrite (engine.store.nodes tree) nodes)) := by
  induction nodes generalizing engine with
  | nil =>
      have same : engine.store.withNodes tree (engine.store.nodes tree) = engine.store := by
        cases tree <;> rfl
      rw [PositionTree.overwrite, List.foldl_nil, replanted, same]
      rfl
  | cons node rest inductionHypothesis =>
      have put : Store.putTreeNode engine.store tree node =
          .ok (engine.store.withNodes tree ((engine.store.nodes tree).insert node.id node)) := rfl
      refine (perform_bind_ok engine (perform_tell_ok engine put)).trans ?_
      refine (inductionHypothesis _).trans ?_
      simp only [replanted, MemoryStore.withNodes_withNodes, MemoryStore.nodes_withNodes, if_pos]
      rfl

theorem perform_storeNodes (tree : TreeKind) (tops : List Position) :
    engine.perform (storeNodes tree tops) =
      (.ok (), engine.replanted tree (PositionTree.overwrite (engine.store.nodes tree)
        ((engine.scheme.tree tree).nodesBelow tops))) := by
  rw [storeNodes, perform_bind, perform_get]
  exact perform_putNodes engine tree _

/-! ## Adding -/

/-- The engine when the node of a new position has been stored. -/
def planted (engine : Engine MemoryStore) (tree : TreeKind) (id parent : Position) :
    Engine MemoryStore :=
  { engine with store := engine.store.addPosition tree id parent }

theorem backed_planted (backed : engine.Backed) (tree : TreeKind) (id parent : Position) :
    (engine.planted tree id parent).Backed :=
  backed.replanted tree _

/-- A position that is there, or whose parent is not, is refused at once. -/
theorem perform_addPosition_error {error : TreeError}
    (refused : (engine.scheme.tree tree).insert id parent = .error error) :
    ∃ error, engine.perform (addPosition tree id parent) = (.error error, engine) := by
  simp only [addPosition, perform_bind, perform_get]
  cases present : (engine.scheme.tree tree).contains id with
  | true => exact ⟨_, rfl⟩
  | false =>
      cases above : (engine.scheme.tree tree).ancestors parent with
      | error reason => exact ⟨_, rfl⟩
      | ok up =>
          have parentThere : (engine.scheme.tree tree).contains parent = true :=
            PositionTree.contains_iff.mpr ⟨up, PositionTree.ancestors_eq_ok_iff.mp above⟩
          rcases PositionTree.exists_insert present parentThere with ⟨grown, added⟩
          rw [refused] at added
          cases added

/-- The keys that a new position calls for, whether the cascade has built them or not. -/
def addedKeys (scheme : InheritanceScheme) (tree : TreeKind) (id : Position) : List ArtifactKey :=
  match tree with
  | .style => []
  | .language =>
      (scheme.templateKeys id).filter fun key => key.style?.any scheme.styles.contains

/-- What is built behind the cascade for a new position. -/
def buildAdded (tree : TreeKind) (id : Position) (report : CascadeReport) :
    EngineM MemoryStore CascadeReport :=
  match tree with
  | .style => pure report
  | .language => do
      let more ← buildTargets (Targets.direct (addedKeys (← get).scheme .language id))
      pure (report ++ more)

/-- A position that can be added is stored first. -/
theorem perform_addPosition_planted {grown : PositionTree}
    (added : (engine.scheme.tree tree).insert id parent = .ok grown) :
    engine.perform (addPosition tree id parent) =
      (engine.planted tree id parent).perform (positionAdded tree id parent) := by
  have isGrown := PositionTree.insert_grown added
  rcases PositionTree.contains_iff.mp isGrown.present with ⟨up, found⟩
  have above := PositionTree.ancestors_eq_ok_iff.mpr found
  have put : Store.putTreeNode engine.store tree ⟨id, some parent, []⟩ =
      .ok (engine.store.addPosition tree id parent) := rfl
  have stored : engine.perform (EngineM.tell fun store =>
      Store.putTreeNode store tree ⟨id, some parent, []⟩) =
        (.ok (), engine.planted tree id parent) := perform_tell_ok engine put
  simp only [addPosition, perform_bind, perform_get, isGrown.absent, above, Bool.false_eq_true,
    if_false, perform_ofTree_ok, stored]

theorem positionAdded_of_addPosition {report : CascadeReport} {after : Engine MemoryStore}
    (succeeded : engine.perform (addPosition tree id parent) = (.ok report, after)) :
    (engine.planted tree id parent).perform (positionAdded tree id parent) = (.ok report, after) := by
  cases added : (engine.scheme.tree tree).insert id parent with
  | error reason =>
      rcases perform_addPosition_error engine added with ⟨_, refused⟩
      exact nomatch refused.symm.trans succeeded
  | ok grown => rw [← perform_addPosition_planted engine added, succeeded]

/-- A new position is followed by a cascade, and by what is built behind it. -/
theorem perform_positionAdded {names : Std.ExtTreeSet String}
    (asked : engine.perform (namesDefinedAt tree.defines [id]) = (.ok names, engine)) :
    engine.perform (positionAdded tree id parent) =
      engine.perform (cascade tree.defines (engine.namesResolvingAt tree.defines parent ∪ names) none
        (changeTree tree fun positions => positions.insert id parent) >>= buildAdded tree id) := by
  rw [positionAdded, perform_bind, perform_get]
  dsimp only
  rw [perform_bind_ok _ asked]
  cases tree <;> rfl

/-- A position that can be added is stored, and a cascade follows for the names that count. -/
theorem perform_addPosition (wellFormed : engine.store.WellFormed) {grown : PositionTree}
    (added : (engine.scheme.tree tree).insert id parent = .ok grown) :
    ∃ names, (∀ name, name ∉ names →
        (engine.scheme.map tree.defines).resolve? name parent = none ∧
        (engine.store.direct tree.defines name)[id]? = none) ∧
      engine.perform (addPosition tree id parent) =
        (engine.planted tree id parent).perform (cascade tree.defines names none
          (changeTree tree fun positions => positions.insert id parent) >>= buildAdded tree id) := by
  have plantedWellFormed : (engine.planted tree id parent).store.WellFormed :=
    wellFormed.insertNode tree ⟨id, some parent, []⟩
  rcases perform_namesDefinedAt (engine.planted tree id parent) tree.defines [id]
    with ⟨own, asked, undefined⟩
  refine ⟨engine.namesResolvingAt tree.defines parent ∪ own, ?_, ?_⟩
  · intro name absent
    rw [Std.ExtTreeSet.mem_union_iff, not_or] at absent
    refine ⟨resolve?_of_not_mem engine absent.1, ?_⟩
    have notHere := undefined plantedWellFormed name absent.2 id (List.mem_singleton_self id)
    have definitions : (engine.planted tree id parent).store.definitions = engine.store.definitions :=
      MemoryStore.definitions_withNodes engine.store tree _
    rwa [direct_of_definitions definitions] at notHere
  · rw [perform_addPosition_planted engine added, perform_positionAdded _ asked]
    rfl

/-- What is built behind the cascade cannot fail. -/
theorem perform_buildAdded (tree : TreeKind) (id : Position) (report : CascadeReport) :
    ∃ total after answer, engine.perform (buildAdded tree id report) = (.ok total, after) ∧
      Settling engine after answer := by
  cases tree with
  | style => exact ⟨report, engine, _, rfl, Settling.refl engine⟩
  | language =>
      rcases perform_buildTargets engine (Targets.direct (addedKeys engine.scheme .language id)) with
        ⟨more, after, built, settling⟩
      refine ⟨report ++ more, after, _, ?_, settling⟩
      simp only [buildAdded, perform_bind, perform_get, built, perform_pure]

theorem perform_buildAdded_builtIn (builtIn : engine.registry = Registry.builtIn)
    (sound : engine.memo.Sound engine.store) (tree : TreeKind) (id : Position)
    (report : CascadeReport) :
    ∃ total after, engine.perform (buildAdded tree id report) = (.ok total, after) ∧
      Settling engine after fun key slot =>
        if key ∈ addedKeys engine.scheme tree id then
          slot.answer engine.config.failurePolicy key (engine.scratch key)
        else slot := by
  cases tree with
  | style =>
      refine ⟨report, engine, rfl, (Settling.refl engine).congr fun key slot => ?_⟩
      rw [if_neg]
      exact List.not_mem_nil
  | language =>
      rcases perform_buildTargets_builtIn engine builtIn sound
          (Targets.direct (addedKeys engine.scheme .language id)) with ⟨more, after, built, settling⟩
      refine ⟨report ++ more, after, ?_, settling.congr fun key slot => ?_⟩
      · simp only [buildAdded, perform_bind, perform_get, built, perform_pure]
      · simp only [Targets.mem_direct]
        rfl

variable {engine}

theorem addPosition_untouched (wellFormed : engine.store.WellFormed) {error : EngineError}
    {after : Engine MemoryStore}
    (failed : engine.perform (addPosition tree id parent) = (.error error, after)) :
    after = engine := by
  cases added : (engine.scheme.tree tree).insert id parent with
  | error reason =>
      rcases perform_addPosition_error engine added with ⟨_, refused⟩
      rw [refused, Prod.mk.injEq] at failed
      exact failed.2.symm
  | ok grown =>
      rcases perform_addPosition engine wellFormed added with ⟨names, _, performed⟩
      have mutates := changeTree_insert added
      rcases exists_perform_cascade (engine.planted tree id parent) names mutates with
        ⟨report, between, carried, _⟩
      rcases perform_buildAdded between tree id report with ⟨_, _, _, built, _⟩
      rw [performed, perform_bind_ok _ carried, built] at failed
      cases failed

/-- The steps of a position that is added. -/
theorem steps_of_addPosition (wellFormed : engine.store.WellFormed) {report : CascadeReport}
    {after : Engine MemoryStore}
    (succeeded : engine.perform (addPosition tree id parent) = (.ok report, after)) :
    ∃ grown names first between, (engine.scheme.tree tree).insert id parent = .ok grown ∧
      (∀ name, name ∉ names →
        (engine.scheme.map tree.defines).resolve? name parent = none ∧
        (engine.store.direct tree.defines name)[id]? = none) ∧
      (engine.planted tree id parent).perform (cascade tree.defines names none
          (changeTree tree fun positions => positions.insert id parent)) = (.ok first, between) ∧
      between.perform (buildAdded tree id first) = (.ok report, after) := by
  cases added : (engine.scheme.tree tree).insert id parent with
  | error reason =>
      rcases perform_addPosition_error engine added with ⟨_, refused⟩
      rw [refused] at succeeded
      cases succeeded
  | ok grown =>
      rcases perform_addPosition engine wellFormed added with ⟨names, unselected, performed⟩
      have mutates := changeTree_insert added
      rcases exists_perform_cascade (engine.planted tree id parent) names mutates with
        ⟨first, between, carried, _⟩
      rw [performed, perform_bind_ok _ carried] at succeeded
      exact ⟨grown, names, first, between, rfl, unselected, carried, succeeded⟩

theorem treesOf_planted (founded : engine.Founded) {grown : PositionTree}
    (added : (engine.scheme.tree tree).insert id parent = .ok grown) :
    TreesOf (engine.planted tree id parent).store (engine.scheme.withTree tree grown) := by
  have isGrown := PositionTree.insert_grown added
  apply founded.trees.withNodes
  · exact isGrown.kind.trans (founded.trees.kind_eq tree)
  · exact (founded.trees.stored tree).grown isGrown

theorem addPosition_stores (founded : engine.Founded) {report : CascadeReport}
    {after : Engine MemoryStore}
    (succeeded : engine.perform (addPosition tree id parent) = (.ok report, after)) :
    Stores (engine.store.addPosition tree id parent) after := by
  rcases steps_of_addPosition founded.wellFormed succeeded with
    ⟨grown, names, first, between, added, _, performed, followed⟩
  have mutates := changeTree_insert added
  rcases exists_perform_cascade (engine.planted tree id parent) names mutates with
    ⟨_, _, carried, framed⟩
  rw [performed, Prod.mk.injEq] at carried
  rcases carried with ⟨_, rfl⟩
  rcases perform_buildAdded between tree id first with ⟨_, last, answer, built, settling⟩
  rw [followed, Prod.mk.injEq] at built
  rcases built with ⟨_, rfl⟩
  have plantedWellFormed : (engine.planted tree id parent).store.WellFormed :=
    founded.wellFormed.insertNode tree ⟨id, some parent, []⟩
  have betweenFounded := framed.founded plantedWellFormed
    (backed_planted engine founded.backed tree id parent) (treesOf_planted founded added)
  refine ⟨settling.founded betweenFounded, ?_⟩
  rw [settling.store_eq, framed.store_eq]
  rfl

/-- A tree may be changed as well, as long as the names that are not selected flatten as before and what they
resolve to still trails their definitions. -/
theorem Cleared.prepared_withTree {gone : Definition → Prop} {before middle : Engine MemoryStore}
    (cleared : Cleared before middle gone) (upheld : before.Upheld) {changed : PositionTree}
    {names : Std.ExtTreeSet String}
    (ofKind : ∀ definition, gone definition → definition.kind = tree.defines)
    (selected : ∀ (id : DefinitionId) (definition : Definition),
      before.store.definitions[id]? = some definition → gone definition → definition.name ∈ names)
    (unselected : ∀ name, name ∉ names →
      Trailing (before.scheme.tree tree) (before.store.direct tree.defines name)
        ((before.scheme.map tree.defines).resolve? name) →
      flatten changed (middle.store.direct tree.defines name) =
          flatten (before.scheme.tree tree) (before.store.direct tree.defines name) ∧
        Trailing changed (middle.store.direct tree.defines name)
          ((before.scheme.map tree.defines).resolve? name)) :
    Prepared before middle tree.defines names none (before.scheme.withTree tree changed) := by
  have trailing name : Trailing (before.scheme.tree tree) (before.store.direct tree.defines name)
      ((before.scheme.map tree.defines).resolve? name) := by
    have tracked := (upheld.tracks tree.defines name).trailing
    rwa [tree.tree_defines] at tracked
  have changed_eq : (before.scheme.withTree tree changed).tree tree.defines.tree = changed := by
    rw [tree.tree_defines, InheritanceScheme.tree_withTree, if_pos rfl]
  apply cleared.prepared upheld.wellFormed ofKind selected
  · exact fun other => InheritanceScheme.map_withTree before.scheme tree other changed
  · intro other different
    rw [tree.tree_defines] at different
    rw [InheritanceScheme.tree_withTree, if_neg different]
  · intro name absent
    rw [changed_eq, tree.tree_defines]
    exact (unselected name absent (trailing name)).1
  · intro name absent
    refine (upheld.tracks tree.defines name).onward cleared.onward ?_ ?_
    · rw [InheritanceScheme.map_withTree]
    · rw [changed_eq]
      exact (unselected name absent (trailing name)).2

/-- Adding a position prepares for a cascade of the names that can resolve there. -/
theorem prepared_planted (upheld : engine.Upheld) {grown : PositionTree}
    (added : (engine.scheme.tree tree).insert id parent = .ok grown)
    {names : Std.ExtTreeSet String}
    (unselected : ∀ name, name ∉ names →
      (engine.scheme.map tree.defines).resolve? name parent = none ∧
      (engine.store.direct tree.defines name)[id]? = none) :
    Prepared engine (engine.planted tree id parent) tree.defines names none
      (engine.scheme.withTree tree grown) := by
  have isGrown := PositionTree.insert_grown added
  have definitions : (engine.planted tree id parent).store.definitions = engine.store.definitions :=
    MemoryStore.definitions_withNodes engine.store tree _
  have onward : engine.store.Onward (engine.planted tree id parent).store :=
    MemoryStore.onward_of_definitions definitions (MemoryStore.nextId_withNodes engine.store tree _)
  have cleared : Cleared engine (engine.planted tree id parent) fun _ => False := by
    refine ⟨⟨fun other definition => ?_⟩, onward, rfl, rfl, rfl, ?_, ?_, ?_⟩
    · rw [definitions, not_false_iff, and_true]
    · exact upheld.wellFormed.insertNode tree ⟨id, some parent, []⟩
    · exact backed_planted engine upheld.backed tree id parent
    · refine upheld.sound.of_definitions fun other definition stored => ?_
      rwa [MemoryStore.definition?, definitions] at stored
  apply cleared.prepared_withTree upheld
  · exact fun definition gone => gone.elim
  · exact fun other definition _ gone => gone.elim
  · intro name absent trailing
    rcases unselected name absent with ⟨unresolved, undefined⟩
    rw [direct_of_definitions definitions]
    exact ⟨flatten_grown isGrown undefined (trailing.flatten_eq_none unresolved),
      trailing.grown isGrown undefined unresolved⟩

/-- A new language calls for all templates that have something in effect. -/
theorem mem_addedKeys {store : MemoryStore} {scheme : InheritanceScheme}
    (tracks : ∀ name, Tracks store scheme .template name)
    (present : tree = .language → scheme.languages.contains id = true) {key : ArtifactKey} :
    key ∈ addedKeys scheme tree id ↔
      tree = .language ∧ key.kind = .template ∧ key.language = id ∧ own? store scheme key ≠ none := by
  cases tree with
  | style => simp [addedKeys]
  | language =>
      have inEffect : ∀ style name, own? store scheme (.template style id name) ≠ none ↔
          ∃ definition, scheme.templates.resolve? name style = some definition := by
        intro style name
        rw [own?, if_pos (present rfl), effective?, Option.ne_none_iff_isSome, Option.isSome_map,
          Option.isSome_iff_exists]
        rfl
      rw [addedKeys, List.mem_filter, InheritanceScheme.mem_templateKeys]
      constructor
      · rintro ⟨⟨style, name, definition, rfl, resolved⟩, _⟩
        exact ⟨rfl, rfl, rfl, (inEffect style name).mpr ⟨definition, resolved⟩⟩
      · rintro ⟨_, isTemplate, rfl, some⟩
        cases key with
        | phrase language name => cases isTemplate
        | template style language name =>
            rcases (inEffect style name).mp some with ⟨definition, resolved⟩
            have inTree : (scheme.tree DefinitionKind.template.tree).contains style = true :=
              (tracks name).trailing.inTree style definition resolved
            exact ⟨⟨style, name, definition, rfl, resolved⟩, inTree⟩

section

variable {names : Std.ExtTreeSet String} {grown : PositionTree} {between after : Engine MemoryStore}
  {key : ArtifactKey}

/-- The languages after a position has been added. -/
theorem contains_language_planted (isGrown : (engine.scheme.tree tree).Grown grown id parent)
    {store : MemoryStore} {kind : DefinitionKind} {list : List String} {scheme : InheritanceScheme}
    (reworked : Reworked store kind list (engine.scheme.withTree tree grown) scheme)
    (position : Position) :
    scheme.languages.contains position = true ↔
      (tree = .language ∧ position = id) ∨ engine.scheme.languages.contains position = true := by
  have languages : scheme.languages =
      if TreeKind.language = tree then grown else engine.scheme.languages := by
    have changed := reworked.tree_eq .language
    rwa [InheritanceScheme.tree_withTree] at changed
  rw [languages]
  cases tree with
  | style => simp
  | language =>
      rw [if_pos rfl, isGrown.contains_iff, and_iff_right rfl]
      rfl

/-- A key that is built behind the cascade has had nothing in effect before. -/
theorem own?_of_added (isGrown : (engine.scheme.tree tree).Grown grown id parent)
    {store : MemoryStore} {scheme : InheritanceScheme} {list : List String}
    (reworked : Reworked (engine.planted tree id parent).store tree.defines list
      (engine.scheme.withTree tree grown) scheme)
    (tracks : ∀ name, Tracks store scheme .template name) (isAdded : key ∈ addedKeys scheme tree id) :
    own? engine.store engine.scheme key = none ∧ own? store scheme key ≠ none := by
  have languages := contains_language_planted isGrown reworked
  have present : tree = .language → scheme.languages.contains id = true :=
    fun isLanguage => (languages id).mpr (Or.inl ⟨isLanguage, rfl⟩)
  rcases (mem_addedKeys tracks present).mp isAdded with ⟨rfl, isTemplate, atId, some⟩
  refine ⟨own?_of_absent_language engine.store isTemplate ?_, some⟩
  rw [atId]
  exact isGrown.absent

/-- For the other keys their own name is affected exactly if something else is in effect for them. -/
theorem ownConcerned_iff_of_not_added (upheld : engine.Upheld)
    (isGrown : (engine.scheme.tree tree).Grown grown id parent)
    (prepared : Prepared engine (engine.planted tree id parent) tree.defines names none
      (engine.scheme.withTree tree grown)) {scheme : InheritanceScheme}
    (reworked : Reworked (engine.planted tree id parent).store tree.defines names.toList
      (engine.scheme.withTree tree grown) scheme) (notAdded : key ∉ addedKeys scheme tree id) :
    OwnConcerned (engine.scheme.withTree tree grown) scheme tree.defines none names.toList key ↔
      own? (engine.planted tree id parent).store scheme key ≠
        own? engine.store engine.scheme key := by
  have languages := contains_language_planted isGrown reworked
  by_cases here : key.kind = .template ∧ tree = .language ∧ key.language = id
  · rcases here with ⟨isTemplate, rfl, atId⟩
    have present : scheme.languages.contains id = true := (languages id).mpr (Or.inl ⟨rfl, rfl⟩)
    have nothing : own? (engine.planted .language id parent).store scheme key = none := by
      by_contra some
      apply notAdded
      exact (mem_addedKeys (prepared.tracksAll upheld reworked .template) fun _ => present).mpr
        ⟨rfl, isTemplate, atId, some⟩
    have nothingBefore : own? engine.store engine.scheme key = none := by
      apply own?_of_absent_language engine.store isTemplate
      rw [atId]
      exact isGrown.absent
    rw [nothing, nothingBefore]
    exact iff_of_false (not_ownConcerned_of_template isTemplate) fun different => different rfl
  · apply prepared.ownConcerned_iff upheld reworked
    intro isTemplate
    rw [Bool.eq_iff_iff, languages]
    exact or_iff_right fun both => here ⟨isTemplate, both⟩

/-- What is built behind the cascade takes one step with it, even if the cascade has built it too. -/
theorem slotStep_added (isGrown : (engine.scheme.tree tree).Grown grown id parent)
    (cascaded : Cascaded (engine.planted tree id parent) between tree.defines names none
      (engine.scheme.withTree tree grown))
    (betweenInStep : between.InStep)
    (settling : Settling between after fun key slot =>
      if key ∈ addedKeys between.scheme tree id then
        slot.answer between.config.failurePolicy key (between.scratch key)
      else slot)
    (isAdded : key ∈ addedKeys between.scheme tree id) : SlotStep engine after key := by
  rcases own?_of_added isGrown cascaded.reworked (betweenInStep.upheld.tracks .template) isAdded with
    ⟨nothingBefore, some⟩
  have own : own? after.store after.scheme key = own? between.store between.scheme key := by
    rw [settling.scheme_eq, own?_of_definitions settling.definitions_eq]
  have outcome : after.scratch key = between.scratch key := by
    rw [scratch, scratch, settling.scheme_eq, fresh_of_definitions settling.definitions_eq]
  have resolved : between.scratch key ≠ .unresolved := fun unresolved =>
    some (fresh_eq_unresolved_iff.mp unresolved)
  have policy : between.config.failurePolicy = engine.config.failurePolicy := by
    rw [cascaded.config_eq]
    rfl
  apply SlotStep.answered
  · intro undisturbed
    have same := undisturbed.own_eq
    rw [own, nothingBefore] at same
    exact some same
  · rw [settling.slot_eq, if_pos isAdded, outcome, policy]
    by_cases concerned : OwnConcerned (engine.scheme.withTree tree grown) between.scheme tree.defines
        none names.toList key ∨
      UseConcerned (engine.scheme.withTree tree grown) between.scheme tree.defines none names.toList
        key ((engine.planted tree id parent).usesOf key)
    · rw [cascaded.slot_concerned key concerned]
      exact Slot.answer_answer _ resolved
    · rw [cascaded.slot_other key concerned]
      rfl

end

/-- Adding a position brings everything in line. -/
theorem addPosition_advances (inStep : engine.InStep) {report : CascadeReport}
    {after : Engine MemoryStore}
    (succeeded : engine.perform (addPosition tree id parent) = (.ok report, after)) :
    Advances engine after := by
  rcases steps_of_addPosition inStep.wellFormed succeeded with
    ⟨grown, names, first, between, added, unselected, performed, followed⟩
  have isGrown := PositionTree.insert_grown added
  have prepared := prepared_planted inStep.upheld added unselected
  rcases prepared.perform_cascade inStep (changeTree_insert added) with ⟨_, _, carried, cascaded⟩
  rw [performed, Prod.mk.injEq] at carried
  rcases carried with ⟨_, rfl⟩
  have treesAfter : TreesOf between.store between.scheme := by
    refine (treesOf_planted inStep.founded added).of_eq cascaded.carried.nodes_eq fun other => ?_
    exact cascaded.reworked.tree_eq other
  have betweenInStep := cascaded.inStep prepared inStep treesAfter
  rcases perform_buildAdded_builtIn between betweenInStep.builtIn betweenInStep.sound tree id first with
    ⟨_, _, built, settling⟩
  rw [followed, Prod.mk.injEq] at built
  rcases built with ⟨_, rfl⟩
  refine ⟨settling.inStep betweenInStep, settling.config_eq.trans cascaded.config_eq, fun key => ?_⟩
  by_cases isAdded : key ∈ addedKeys between.scheme tree id
  · exact slotStep_added isGrown cascaded betweenInStep settling isAdded
  · have slotAfter := settling.slot_eq key
    rw [if_neg isAdded] at slotAfter
    have step := cascaded.slotStep prepared inStep (@rfl _ (engine.slot key))
      (ownConcerned_iff_of_not_added inStep.upheld isGrown prepared cascaded.reworked isAdded)
    exact step.of_same settling.definitions_eq settling.scheme_eq slotAfter

end Engine
end TemplateCascade

import Mathlib
import TemplateCascade.Proofs.Inheritance.NearestOwner
import TemplateCascade.Store.Memory

namespace TemplateCascade
namespace MemoryStore

/-!
# What a store in memory holds

Every definition, node and artifact is held under its own number, position or key, and no name has two
definitions at one position.  No operation of the store breaks this.

The definitions of a name are seen by position, as resolution reads them.  An operation on one definition
changes this view for the name of the definition only.
-/

/-- Everything is held under what it says of itself, and definitions do not clash. -/
structure WellFormed (store : MemoryStore) : Prop where
  definition_id : ∀ (id : DefinitionId) (definition : Definition),
    store.definitions[id]? = some definition → definition.id = id
  id_lt : ∀ (id : DefinitionId) (definition : Definition),
    store.definitions[id]? = some definition → id < store.nextId
  unique : ∀ (first second : DefinitionId) (one other : Definition),
    store.definitions[first]? = some one → store.definitions[second]? = some other →
    one.kind = other.kind → one.name = other.name → one.position = other.position → first = second
  node_id : ∀ (tree : TreeKind) (id : Position) (node : TreeNode),
    (store.nodes tree)[id]? = some node → node.id = id
  artifact_key : ∀ (key : ArtifactKey) (artifact : Artifact),
    store.artifacts[key]? = some artifact → artifact.key = key

/-- A store that is made from the empty one by the operations of stores in memory. -/
inductive Constructed : MemoryStore → Prop where
  | empty : Constructed empty
  | define {store : MemoryStore} (kind : DefinitionKind) (position : Position)
      (name content : String) (before : Constructed store) :
      Constructed (store.define kind position name content).1
  | delete {store left : MemoryStore} {kind : DefinitionKind} {id : DefinitionId}
      {definition : Definition} (before : Constructed store)
      (deleted : store.delete kind id = .ok (left, definition)) : Constructed left
  | putTreeNode {store : MemoryStore} (tree : TreeKind) (node : TreeNode)
      (before : Constructed store) :
      Constructed (store.withNodes tree ((store.nodes tree).insert node.id node))
  | deleteTreeNode {store left : MemoryStore} {tree : TreeKind} {id : Position}
      (before : Constructed store) (deleted : store.deleteTreeNode tree id = .ok left) :
      Constructed left
  | replaceArtifact {store : MemoryStore} (artifact : Artifact) (before : Constructed store) :
      Constructed { store with artifacts := store.artifacts.insert artifact.key artifact }
  | removeArtifact {store : MemoryStore} (key : ArtifactKey) (before : Constructed store) :
      Constructed { store with artifacts := store.artifacts.erase key }

variable {store : MemoryStore} {kind : DefinitionKind} {name content : String} {position : Position}
  {id : DefinitionId} {definition : Definition} {tree : TreeKind}

/-! ## The nodes of the trees -/

theorem nodes_withNodes (store : MemoryStore) (tree other : TreeKind)
    (nodes : Std.ExtTreeMap Position TreeNode) :
    (store.withNodes tree nodes).nodes other = if other = tree then nodes else store.nodes other := by
  cases tree <;> cases other <;> rfl

theorem withNodes_withNodes (store : MemoryStore) (tree : TreeKind)
    (first second : Std.ExtTreeMap Position TreeNode) :
    (store.withNodes tree first).withNodes tree second = store.withNodes tree second := by
  cases tree <;> rfl

theorem nodes_withArtifacts (store : MemoryStore) (tree : TreeKind)
    (artifacts : Std.ExtTreeMap ArtifactKey Artifact) :
    ({ store with artifacts := artifacts } : MemoryStore).nodes tree = store.nodes tree := by
  cases tree <;> rfl

theorem definitions_withNodes (store : MemoryStore) (tree : TreeKind)
    (nodes : Std.ExtTreeMap Position TreeNode) :
    (store.withNodes tree nodes).definitions = store.definitions := by
  cases tree <;> rfl

theorem artifacts_withNodes (store : MemoryStore) (tree : TreeKind)
    (nodes : Std.ExtTreeMap Position TreeNode) :
    (store.withNodes tree nodes).artifacts = store.artifacts := by
  cases tree <;> rfl

theorem nextId_withNodes (store : MemoryStore) (tree : TreeKind)
    (nodes : Std.ExtTreeMap Position TreeNode) :
    (store.withNodes tree nodes).nextId = store.nextId := by
  cases tree <;> rfl

/-! ## Looking definitions up -/

theorem mem_definitionsOf :
    definition ∈ store.definitionsOf kind ↔
      ∃ id : DefinitionId, store.definitions[id]? = some definition ∧ definition.kind = kind := by
  rw [definitionsOf, List.mem_filterMap]
  constructor
  · rintro ⟨⟨id, other⟩, member, selected⟩
    dsimp only at selected
    split at selected
    · next sameKind =>
        rw [Option.some.injEq] at selected
        subst selected
        exact ⟨id, Std.ExtTreeMap.mem_toList_iff_getElem?_eq_some.mp member, sameKind⟩
    · cases selected
  · rintro ⟨id, found, sameKind⟩
    exact ⟨(id, definition), Std.ExtTreeMap.mem_toList_iff_getElem?_eq_some.mpr found, if_pos sameKind⟩

theorem WellFormed.nodup_definitionsOf (wellFormed : store.WellFormed) (kind : DefinitionKind) :
    ((store.definitionsOf kind).map Definition.id).Nodup := by
  have keyed : ∀ pair ∈ store.definitions.toList, ∀ definition,
      (if pair.2.kind = kind then some pair.2 else none) = some definition →
      definition.id = pair.1 := by
    intro pair member definition selected
    have stored := Std.ExtTreeMap.mem_toList_iff_getElem?_eq_some.mp member
    split at selected
    · rw [Option.some.injEq] at selected
      exact selected ▸ wellFormed.definition_id pair.1 pair.2 stored
    · cases selected
  rw [List.Nodup, List.pairwise_map, definitionsOf, List.pairwise_filterMap]
  apply store.definitions.distinct_keys_toList.imp_of_mem
  intro first second firstMember secondMember different one isOne other isOther same
  apply different
  rw [Std.compare_eq_iff_eq, ← keyed first firstMember one isOne,
    ← keyed second secondMember other isOther, same]

theorem definition?_eq_some_iff :
    store.definition? kind id = some definition ↔
      store.definitions[id]? = some definition ∧ definition.kind = kind := by
  rw [definition?, Option.filter_eq_some_iff, beq_iff_eq]

/-- The definition of a name at a position is the only one. -/
theorem WellFormed.owned?_eq_some_iff (wellFormed : store.WellFormed) :
    store.owned? kind position name = some definition ↔
      store.definitions[definition.id]? = some definition ∧ definition.kind = kind ∧
        definition.name = name ∧ definition.position = position := by
  rw [owned?]
  constructor
  · intro found
    have member := List.mem_of_find?_eq_some found
    have selected := List.find?_some found
    rcases mem_definitionsOf.mp member with ⟨id, stored, sameKind⟩
    rw [Bool.and_eq_true, beq_iff_eq, beq_iff_eq] at selected
    rw [wellFormed.definition_id id definition stored]
    exact ⟨stored, sameKind, selected.2, selected.1⟩
  · rintro ⟨stored, rfl, rfl, rfl⟩
    cases found : (store.definitionsOf definition.kind).find? fun other =>
        other.position == definition.position && other.name == definition.name with
    | none =>
        rw [List.find?_eq_none] at found
        have missed := found definition (mem_definitionsOf.mpr ⟨definition.id, stored, rfl⟩)
        simp at missed
    | some other =>
        have member := List.mem_of_find?_eq_some found
        have selected := List.find?_some found
        rcases mem_definitionsOf.mp member with ⟨id, otherStored, sameKind⟩
        rw [Bool.and_eq_true, beq_iff_eq, beq_iff_eq] at selected
        have same := wellFormed.unique id definition.id other definition otherStored stored sameKind
          selected.2 selected.1
        subst same
        rw [stored] at otherStored
        exact otherStored.symm

/-! ## The definitions of a name by position -/

/-- The definitions of a name by position. -/
def direct (store : MemoryStore) (kind : DefinitionKind) (name : String) : DirectDefinitions :=
  DirectDefinitions.ofList (ownersOf ((store.definitionsOf kind).map Definition.ownership) name)

theorem WellFormed.mem_ownersOf_iff (wellFormed : store.WellFormed) :
    (position, id) ∈ ownersOf ((store.definitionsOf kind).map Definition.ownership) name ↔
      ∃ definition, store.definitions[id]? = some definition ∧ definition.kind = kind ∧
        definition.name = name ∧ definition.position = position := by
  have members : (position, id) ∈
      ownersOf ((store.definitionsOf kind).map Definition.ownership) name ↔
      ∃ definition ∈ store.definitionsOf kind,
        definition.name = name ∧ definition.position = position ∧ definition.id = id := by
    simp [ownersOf, Definition.ownership, and_assoc]
  rw [members]
  constructor
  · rintro ⟨definition, member, sameName, samePosition, rfl⟩
    rcases mem_definitionsOf.mp member with ⟨key, stored, sameKind⟩
    rw [wellFormed.definition_id key definition stored]
    exact ⟨definition, stored, sameKind, sameName, samePosition⟩
  · rintro ⟨definition, stored, sameKind, sameName, samePosition⟩
    exact ⟨definition, mem_definitionsOf.mpr ⟨id, stored, sameKind⟩, sameName, samePosition,
      wellFormed.definition_id id definition stored⟩

theorem WellFormed.eq_of_mem_ownersOf (wellFormed : store.WellFormed) {first second : DefinitionId}
    (one : (position, first) ∈ ownersOf ((store.definitionsOf kind).map Definition.ownership) name)
    (other : (position, second) ∈
      ownersOf ((store.definitionsOf kind).map Definition.ownership) name) : first = second := by
  rcases wellFormed.mem_ownersOf_iff.mp one with ⟨left, leftStored, leftKind, leftName, leftAt⟩
  rcases wellFormed.mem_ownersOf_iff.mp other with
    ⟨right, rightStored, rightKind, rightName, rightAt⟩
  exact wellFormed.unique first second left right leftStored rightStored
    (leftKind.trans rightKind.symm) (leftName.trans rightName.symm) (leftAt.trans rightAt.symm)

theorem WellFormed.direct_eq_some_iff (wellFormed : store.WellFormed) :
    (store.direct kind name)[position]? = some id ↔
      ∃ definition, store.definitions[id]? = some definition ∧ definition.kind = kind ∧
        definition.name = name ∧ definition.position = position := by
  have functional : ∀ first ∈ ownersOf ((store.definitionsOf kind).map Definition.ownership) name,
      ∀ second ∈ ownersOf ((store.definitionsOf kind).map Definition.ownership) name,
        first.1 = second.1 → first.2 = second.2 := by
    rintro ⟨owner, first⟩ one ⟨_, second⟩ other rfl
    exact wellFormed.eq_of_mem_ownersOf one other
  have entered := @foldl_insert_eq_some_iff Position DefinitionId _ _ _ _ _ _ Prod.fst Prod.snd ∅
    position id functional
  rw [← wellFormed.mem_ownersOf_iff, direct]
  refine entered.trans ?_
  simp

theorem definitionsNamed_eq (store : MemoryStore) (kind : DefinitionKind) (name : String) :
    Store.definitionsNamed store kind name =
      .ok (ownersOf ((store.definitionsOf kind).map Definition.ownership) name) := by
  simp [Store.definitionsNamed, ownersOf, List.filter_map, Definition.ownership, Function.comp_def]

/-- The store finds the definition of a name at a position. -/
theorem WellFormed.definitionAt_eq (wellFormed : store.WellFormed) (kind : DefinitionKind)
    (name : String) (position : Position) :
    Store.definitionAt store kind name position = .ok (store.direct kind name)[position]? := by
  rw [Store.definitionAt, definitionsNamed_eq, Except.map]
  refine congrArg Except.ok (Option.ext fun id => ?_)
  rw [wellFormed.direct_eq_some_iff, ← wellFormed.mem_ownersOf_iff, Option.map_eq_some_iff]
  constructor
  · rintro ⟨⟨owner, owned⟩, found, rfl⟩
    have member := List.mem_of_find?_eq_some found
    have selected := List.find?_some found
    rw [beq_iff_eq] at selected
    exact selected ▸ member
  · intro member
    cases found : List.find? (fun owned => owned.1 == position)
        (ownersOf ((store.definitionsOf kind).map Definition.ownership) name) with
    | none =>
        have missed := List.find?_eq_none.mp found (position, id) member
        simp at missed
    | some owned =>
        rcases owned with ⟨owner, owned⟩
        have selected := List.find?_some found
        rw [beq_iff_eq] at selected
        have foundMember := List.mem_of_find?_eq_some found
        exact ⟨(owner, owned), rfl, wellFormed.eq_of_mem_ownersOf (selected ▸ foundMember) member⟩

/-- Two stores have the same definitions of a name. -/
def SameNamed (before after : MemoryStore) (kind : DefinitionKind) (name : String) : Prop :=
  ∀ (id : DefinitionId) (definition : Definition), definition.kind = kind →
    definition.name = name →
    (after.definitions[id]? = some definition ↔ before.definitions[id]? = some definition)

theorem SameNamed.direct_eq {after : MemoryStore} (same : store.SameNamed after kind name)
    (wellFormed : store.WellFormed) (afterWellFormed : after.WellFormed) :
    after.direct kind name = store.direct kind name := by
  refine Std.ExtTreeMap.ext_getElem? fun {position} => Option.ext fun id => ?_
  rw [wellFormed.direct_eq_some_iff, afterWellFormed.direct_eq_some_iff]
  refine exists_congr fun definition => ?_
  constructor
  · rintro ⟨stored, sameKind, sameName, samePosition⟩
    exact ⟨(same id definition sameKind sameName).mp stored, sameKind, sameName, samePosition⟩
  · rintro ⟨stored, sameKind, sameName, samePosition⟩
    exact ⟨(same id definition sameKind sameName).mpr stored, sameKind, sameName, samePosition⟩

/-! ## Defining -/

/-- One definition is new, or has another content than before. -/
structure Redefined (before after : MemoryStore) (definition : Definition) : Prop where
  definitions_eq : after.definitions = before.definitions.insert definition.id definition
  nodes_eq : ∀ tree, after.nodes tree = before.nodes tree
  artifacts_eq : after.artifacts = before.artifacts
  nextId_le : before.nextId ≤ after.nextId
  id_lt : definition.id < after.nextId
  same : ∀ old : Definition, before.definitions[definition.id]? = some old →
    old.kind = definition.kind ∧ old.name = definition.name ∧ old.position = definition.position
  alone : ∀ (id : DefinitionId) (other : Definition), before.definitions[id]? = some other →
    other.kind = definition.kind → other.name = definition.name →
    other.position = definition.position → id = definition.id

theorem define_redefined (wellFormed : store.WellFormed) (kind : DefinitionKind)
    (position : Position) (name content : String) :
    store.Redefined (store.define kind position name content).1
      ⟨(store.define kind position name content).2, kind, name, position, content⟩ := by
  unfold define
  cases owned : store.owned? kind position name with
  | some definition =>
      rcases wellFormed.owned?_eq_some_iff.mp owned with ⟨stored, rfl, rfl, rfl⟩
      have below := wellFormed.id_lt definition.id definition stored
      refine ⟨rfl, fun tree => by cases tree <;> rfl, rfl, le_refl _, below, ?_, ?_⟩
      · intro old oldStored
        dsimp only at oldStored
        rw [stored, Option.some.injEq] at oldStored
        subst oldStored
        exact ⟨rfl, rfl, rfl⟩
      · intro id other otherStored sameKind sameName samePosition
        exact wellFormed.unique id definition.id other definition otherStored stored sameKind
          sameName samePosition
  | none =>
      have unused : ∀ old : Definition, store.definitions[store.nextId]? ≠ some old := by
        intro old stored
        exact Nat.lt_irrefl _ (wellFormed.id_lt store.nextId old stored)
      refine ⟨rfl, fun tree => by cases tree <;> rfl, rfl, Nat.le_succ _, Nat.lt_succ_self _,
        fun old stored => absurd stored (unused old), ?_⟩
      rintro id other stored rfl rfl rfl
      have isId := wellFormed.definition_id id other stored
      have found := wellFormed.owned?_eq_some_iff.mpr ⟨isId.symm ▸ stored, rfl, rfl, rfl⟩
      rw [owned] at found
      cases found

namespace Redefined

variable {after : MemoryStore}

theorem wellFormed (redefined : store.Redefined after definition) (before : store.WellFormed) :
    after.WellFormed := by
  refine ⟨?_, ?_, ?_, ?_, ?_⟩
  · rw [redefined.definitions_eq]
    exact keyed_insert before.definition_id rfl
  · intro id other stored
    rw [redefined.definitions_eq, getElem?_insert_eq] at stored
    split at stored
    · next same => exact same ▸ redefined.id_lt
    · exact (before.id_lt id other stored).trans_le redefined.nextId_le
  · intro first second one other oneStored otherStored sameKind sameName samePosition
    rw [redefined.definitions_eq, getElem?_insert_eq] at oneStored otherStored
    split at oneStored <;> split at otherStored
    · next left right => rw [left, right]
    · next left right =>
        rw [Option.some.injEq] at oneStored
        subst oneStored
        exact left.trans (redefined.alone second other otherStored sameKind.symm sameName.symm
          samePosition.symm).symm
    · next left right =>
        rw [Option.some.injEq] at otherStored
        subst otherStored
        exact (redefined.alone first one oneStored sameKind sameName samePosition).trans right.symm
    · exact before.unique first second one other oneStored otherStored sameKind sameName samePosition
  · intro tree id node found
    rw [redefined.nodes_eq] at found
    exact before.node_id tree id node found
  · intro key artifact found
    rw [redefined.artifacts_eq] at found
    exact before.artifact_key key artifact found

theorem sameNamed (redefined : store.Redefined after definition)
    (different : ¬ (kind = definition.kind ∧ name = definition.name)) :
    store.SameNamed after kind name := by
  rintro id other rfl rfl
  rw [redefined.definitions_eq, getElem?_insert_eq]
  split
  · next same =>
      subst same
      constructor
      · intro isOther
        rw [Option.some.injEq] at isOther
        exact absurd ⟨congrArg _ isOther.symm, congrArg _ isOther.symm⟩ different
      · intro stored
        have fields := redefined.same other stored
        exact absurd ⟨fields.1, fields.2.1⟩ different
  · rfl

/-- The definition itself is there, with its content. -/
theorem definition?_self (redefined : store.Redefined after definition) :
    after.definition? definition.kind definition.id = some definition := by
  rw [definition?_eq_some_iff, redefined.definitions_eq, getElem?_insert_eq, if_pos rfl]
  exact ⟨rfl, rfl⟩

theorem definition?_of_ne (redefined : store.Redefined after definition)
    (different : id ≠ definition.id) : after.definition? kind id = store.definition? kind id := by
  rw [definition?, definition?, redefined.definitions_eq, getElem?_insert_eq, if_neg different]

theorem definition?_of_kind (redefined : store.Redefined after definition)
    (different : kind ≠ definition.kind) : after.definition? kind id = store.definition? kind id := by
  by_cases same : id = definition.id
  · subst same
    rw [definition?, definition?, redefined.definitions_eq, getElem?_insert_eq, if_pos rfl]
    have notKind : (definition.kind == kind) = false := by simpa using different.symm
    rw [Option.filter_some, notKind]
    cases old : store.definitions[definition.id]? with
    | none => rfl
    | some other =>
        have otherKind : (other.kind == kind) = false := by
          rw [(redefined.same other old).1, notKind]
        rw [Option.filter_some, otherKind]
        rfl
  · exact redefined.definition?_of_ne same

/-- The name has the definition at its position afterwards. -/
theorem direct_self (redefined : store.Redefined after definition) (before : store.WellFormed) :
    (after.direct definition.kind definition.name)[definition.position]? = some definition.id := by
  rw [(redefined.wellFormed before).direct_eq_some_iff]
  refine ⟨definition, ?_, rfl, rfl, rfl⟩
  exact (definition?_eq_some_iff.mp redefined.definition?_self).1

/-- At the other positions the name has what it had before. -/
theorem direct_eq (redefined : store.Redefined after definition) (before : store.WellFormed)
    (position : Position) : (after.direct definition.kind definition.name)[position]? =
      if position = definition.position then some definition.id
      else (store.direct definition.kind definition.name)[position]? := by
  split
  · next same => exact same ▸ redefined.direct_self before
  · next different =>
      refine Option.ext fun id => ?_
      rw [(redefined.wellFormed before).direct_eq_some_iff, before.direct_eq_some_iff,
        redefined.definitions_eq, getElem?_insert_eq]
      refine exists_congr fun other => and_congr_left fun fields => ?_
      split
      · next same =>
          subst same
          refine iff_of_false (fun isOther => ?_) fun stored => ?_
          · rw [Option.some.injEq] at isOther
            exact different (isOther ▸ fields.2.2.symm)
          · exact different (fields.2.2.symm.trans (redefined.same other stored).2.2)
      · rfl

end Redefined

/-! ## Deleting -/

/-- Of the definitions, some are gone and no others have changed. -/
structure Fewer (before after : MemoryStore) (gone : Definition → Prop) : Prop where
  definitions_iff : ∀ (id : DefinitionId) (definition : Definition),
    after.definitions[id]? = some definition ↔
      before.definitions[id]? = some definition ∧ ¬ gone definition

/-- Some definitions are gone, and nothing else has changed. -/
structure Reduced (before after : MemoryStore) (gone : Definition → Prop) : Prop
    extends Fewer before after gone where
  nodes_eq : ∀ tree, after.nodes tree = before.nodes tree
  artifacts_eq : after.artifacts = before.artifacts
  nextId_eq : after.nextId = before.nextId

theorem delete_reduced {left : MemoryStore} (wellFormed : store.WellFormed)
    (deleted : store.delete kind id = .ok (left, definition)) :
    store.definition? kind id = some definition ∧
      store.Reduced left fun other => other.id = id := by
  unfold delete at deleted
  cases found : store.definition? kind id with
  | none => rw [found] at deleted; cases deleted
  | some stored =>
      rw [found] at deleted
      simp only [Except.ok.injEq, Prod.mk.injEq] at deleted
      rcases deleted with ⟨rfl, rfl⟩
      refine ⟨rfl, ⟨?_⟩, fun tree => by cases tree <;> rfl, rfl, rfl⟩
      intro other one
      rw [getElem?_erase_eq]
      split
      · next same =>
          subst same
          constructor
          · exact nofun
          · rintro ⟨oneStored, different⟩
            exact absurd (wellFormed.definition_id other one oneStored) different
      · next different =>
          constructor
          · intro oneStored
            exact ⟨oneStored, fun same => different
              ((wellFormed.definition_id other one oneStored).symm.trans same)⟩
          · exact fun one => one.1

namespace Fewer

variable {after : MemoryStore} {gone : Definition → Prop}

theorem sameNamed (fewer : store.Fewer after gone)
    (kept : ∀ (id : DefinitionId) (definition : Definition),
      store.definitions[id]? = some definition → definition.kind = kind → definition.name = name →
      ¬ gone definition) : store.SameNamed after kind name := by
  intro id definition sameKind sameName
  rw [fewer.definitions_iff]
  exact ⟨fun stored => stored.1, fun stored => ⟨stored, kept id definition stored sameKind sameName⟩⟩

/-- What is still there is what it was. -/
theorem definition?_eq_some (fewer : store.Fewer after gone)
    (left : after.definition? kind id = some definition) :
    store.definition? kind id = some definition := by
  rw [definition?_eq_some_iff] at left ⊢
  exact ⟨((fewer.definitions_iff id definition).mp left.1).1, left.2⟩

theorem definition?_of_kind (fewer : store.Fewer after gone)
    (kept : ∀ definition : Definition, definition.kind = kind → ¬ gone definition) :
    after.definition? kind id = store.definition? kind id := by
  refine Option.ext fun definition => ?_
  rw [definition?_eq_some_iff, definition?_eq_some_iff, fewer.definitions_iff]
  constructor
  · exact fun ⟨stored, sameKind⟩ => ⟨stored.1, sameKind⟩
  · exact fun ⟨stored, sameKind⟩ => ⟨⟨stored, kept definition sameKind⟩, sameKind⟩

end Fewer

namespace Reduced

variable {after : MemoryStore} {gone : Definition → Prop}

theorem refl (store : MemoryStore) : store.Reduced store fun _ => False :=
  ⟨⟨by simp⟩, fun _ => rfl, rfl, rfl⟩

theorem trans {last : MemoryStore} {later : Definition → Prop} (first : store.Reduced after gone)
    (second : after.Reduced last later) :
    store.Reduced last fun definition => gone definition ∨ later definition := by
  refine ⟨⟨fun id definition => ?_⟩, fun tree => (second.nodes_eq tree).trans (first.nodes_eq tree),
    second.artifacts_eq.trans first.artifacts_eq, second.nextId_eq.trans first.nextId_eq⟩
  rw [second.definitions_iff, first.definitions_iff, not_or, and_assoc]

/-- Only stored definitions can be gone. -/
theorem congr {later : Definition → Prop} (reduced : store.Reduced after gone)
    (same : ∀ (id : DefinitionId) (definition : Definition),
      store.definitions[id]? = some definition → (gone definition ↔ later definition)) :
    store.Reduced after later := by
  refine ⟨⟨fun id definition => ?_⟩, reduced.nodes_eq, reduced.artifacts_eq, reduced.nextId_eq⟩
  rw [reduced.definitions_iff]
  exact and_congr_right fun stored => not_congr (same id definition stored)

/-- What is left is determined by what is gone. -/
theorem unique {other : MemoryStore} (first : store.Reduced after gone)
    (second : store.Reduced other gone) : after = other := by
  have definitions : after.definitions = other.definitions :=
    Std.ExtTreeMap.ext_getElem? fun {id} => Option.ext fun definition => by
      rw [first.definitions_iff, second.definitions_iff]
  have styles : after.styles = other.styles :=
    (first.nodes_eq .style).trans (second.nodes_eq .style).symm
  have languages : after.languages = other.languages :=
    (first.nodes_eq .language).trans (second.nodes_eq .language).symm
  have artifacts := first.artifacts_eq.trans second.artifacts_eq.symm
  have nextId := first.nextId_eq.trans second.nextId_eq.symm
  cases after
  cases other
  simp_all

theorem wellFormed (reduced : store.Reduced after gone) (before : store.WellFormed) :
    after.WellFormed := by
  refine ⟨?_, ?_, ?_, ?_, ?_⟩
  · intro id definition stored
    exact before.definition_id id definition ((reduced.definitions_iff id definition).mp stored).1
  · intro id definition stored
    rw [reduced.nextId_eq]
    exact before.id_lt id definition ((reduced.definitions_iff id definition).mp stored).1
  · intro first second one other oneStored otherStored
    exact before.unique first second one other ((reduced.definitions_iff first one).mp oneStored).1
      ((reduced.definitions_iff second other).mp otherStored).1
  · intro tree id node found
    rw [reduced.nodes_eq] at found
    exact before.node_id tree id node found
  · intro key artifact found
    rw [reduced.artifacts_eq] at found
    exact before.artifact_key key artifact found

end Reduced

/-- The store without the definitions that are to go. -/
def discard (store : MemoryStore) (goes : Definition → Bool) : MemoryStore :=
  { store with definitions := store.definitions.filter fun _ definition => !goes definition }

theorem discard_reduced (store : MemoryStore) (goes : Definition → Bool) :
    store.Reduced (store.discard goes) fun definition => goes definition = true := by
  refine ⟨⟨fun id definition => ?_⟩, fun tree => by cases tree <;> rfl, rfl, rfl⟩
  rw [discard, Std.ExtTreeMap.getElem?_filter', Option.filter_eq_some_iff, Bool.not_eq_true',
    Bool.not_eq_true]

/-! ## Numbers -/

/-- The numbers that have been given stay with their names. -/
structure Onward (before after : MemoryStore) : Prop where
  nextId_le : before.nextId ≤ after.nextId
  named : ∀ kind id definition, id < before.nextId → after.definition? kind id = some definition →
    ∃ old, before.definition? kind id = some old ∧ old.name = definition.name

theorem define_onward (wellFormed : store.WellFormed) (kind : DefinitionKind) (position : Position)
    (name content : String) : store.Onward (store.define kind position name content).1 := by
  unfold define
  cases owned : store.owned? kind position name with
  | some old =>
      rcases wellFormed.owned?_eq_some_iff.mp owned with ⟨stored, _⟩
      refine ⟨le_refl _, fun other id definition _ found => ?_⟩
      rw [definition?_eq_some_iff, getElem?_insert_eq] at found
      rcases found with ⟨entry, sameKind⟩
      split at entry
      · next same =>
          rw [Option.some.injEq] at entry
          subst same entry
          exact ⟨old, definition?_eq_some_iff.mpr ⟨stored, sameKind⟩, rfl⟩
      · exact ⟨definition, definition?_eq_some_iff.mpr ⟨entry, sameKind⟩, rfl⟩
  | none =>
      refine ⟨Nat.le_succ _, fun other id definition given found => ⟨definition, ?_, rfl⟩⟩
      rw [definition?_eq_some_iff, getElem?_insert_eq, if_neg given.ne] at found
      exact definition?_eq_some_iff.mpr found

theorem Reduced.onward {after : MemoryStore} {gone : Definition → Prop}
    (reduced : store.Reduced after gone) : store.Onward after :=
  ⟨reduced.nextId_eq.ge, fun _ _ definition _ found => ⟨definition, reduced.definition?_eq_some found, rfl⟩⟩

theorem onward_of_definitions {after : MemoryStore} (sameDefinitions : after.definitions = store.definitions)
    (sameNext : after.nextId = store.nextId) : store.Onward after := by
  refine ⟨sameNext.ge, fun kind id definition _ found => ⟨definition, ?_, rfl⟩⟩
  rwa [definition?, sameDefinitions] at found

theorem Onward.trans {after last : MemoryStore} (first : store.Onward after) (second : after.Onward last) :
    store.Onward last := by
  refine ⟨first.nextId_le.trans second.nextId_le, fun kind id definition given found => ?_⟩
  rcases second.named kind id definition (given.trans_le first.nextId_le) found with
    ⟨between, stored, sameName⟩
  rcases first.named kind id between given stored with ⟨old, oldStored, oldName⟩
  exact ⟨old, oldStored, oldName.trans sameName⟩

/-! ## Nodes and artifacts -/

theorem WellFormed.withNodes (before : store.WellFormed) (tree : TreeKind)
    {nodes : Std.ExtTreeMap Position TreeNode}
    (keyed : ∀ (id : Position) (node : TreeNode), nodes[id]? = some node → node.id = id) :
    (store.withNodes tree nodes).WellFormed := by
  refine ⟨?_, ?_, ?_, ?_, ?_⟩
  · rw [definitions_withNodes]
    exact before.definition_id
  · rw [definitions_withNodes, nextId_withNodes]
    exact before.id_lt
  · rw [definitions_withNodes]
    exact before.unique
  · intro other id node found
    rw [nodes_withNodes] at found
    split at found
    · exact keyed id node found
    · exact before.node_id other id node found
  · rw [artifacts_withNodes]
    exact before.artifact_key

theorem WellFormed.insertNode (before : store.WellFormed) (tree : TreeKind) (node : TreeNode) :
    (store.withNodes tree ((store.nodes tree).insert node.id node)).WellFormed :=
  before.withNodes tree (keyed_insert (before.node_id tree) rfl)

theorem WellFormed.eraseNode (before : store.WellFormed) (tree : TreeKind) (id : Position) :
    (store.withNodes tree ((store.nodes tree).erase id)).WellFormed :=
  before.withNodes tree (keyed_erase (before.node_id tree) id)

theorem WellFormed.withArtifacts (before : store.WellFormed)
    {artifacts : Std.ExtTreeMap ArtifactKey Artifact}
    (keyed : ∀ (key : ArtifactKey) (artifact : Artifact), artifacts[key]? = some artifact →
      artifact.key = key) : ({ store with artifacts := artifacts } : MemoryStore).WellFormed :=
  ⟨before.definition_id, before.id_lt, before.unique,
    fun tree => nodes_withArtifacts store tree artifacts ▸ before.node_id tree, keyed⟩

theorem WellFormed.insertArtifact (before : store.WellFormed) (artifact : Artifact) :
    ({ store with artifacts := store.artifacts.insert artifact.key artifact } :
      MemoryStore).WellFormed :=
  before.withArtifacts (keyed_insert before.artifact_key rfl)

theorem WellFormed.eraseArtifact (before : store.WellFormed) (key : ArtifactKey) :
    ({ store with artifacts := store.artifacts.erase key } : MemoryStore).WellFormed :=
  before.withArtifacts (keyed_erase before.artifact_key key)

theorem wellFormed_empty : empty.WellFormed := by
  refine ⟨?_, ?_, ?_, ?_, ?_⟩
  · intro id definition found
    simp [empty] at found
  · intro id definition found
    simp [empty] at found
  · intro first second one other found
    simp [empty] at found
  · intro tree id node found
    have inRoot : rootNodes[id]? = some node := by cases tree <;> exact found
    rw [rootNodes, getElem?_insert_eq] at inRoot
    split at inRoot
    · next isRoot =>
        rw [Option.some.injEq] at inRoot
        rw [← inRoot, isRoot]
    · simp at inRoot
  · intro key artifact found
    simp [empty] at found

/-- Whatever is done to a store, what it holds stays in order. -/
theorem Constructed.wellFormed (constructed : Constructed store) : store.WellFormed := by
  induction constructed with
  | empty => exact wellFormed_empty
  | define kind position name content before inductionHypothesis =>
      exact (define_redefined inductionHypothesis kind position name content).wellFormed
        inductionHypothesis
  | delete before deleted inductionHypothesis =>
      exact (delete_reduced inductionHypothesis deleted).2.wellFormed inductionHypothesis
  | putTreeNode tree node before inductionHypothesis => exact inductionHypothesis.insertNode tree node
  | @deleteTreeNode store left tree id before deleted inductionHypothesis =>
      unfold MemoryStore.deleteTreeNode at deleted
      split at deleted
      · rw [Except.ok.injEq] at deleted
        exact deleted ▸ inductionHypothesis.eraseNode tree id
      · cases deleted
  | replaceArtifact artifact before inductionHypothesis =>
      exact inductionHypothesis.insertArtifact artifact
  | removeArtifact key before inductionHypothesis => exact inductionHypothesis.eraseArtifact key

end MemoryStore
end TemplateCascade

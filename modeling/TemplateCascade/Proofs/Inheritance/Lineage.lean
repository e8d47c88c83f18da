import Mathlib
import TemplateCascade.Proofs.Inheritance.Loading
import TemplateCascade.Proofs.Outcomes

namespace TemplateCascade

/-!
# Trees and tables of parents

A tree comes from stored nodes, or from nothing, and then positions are inserted, moved and removed.  Beside
it a table of parents can be kept, to which a call that succeeds does no more than its name says: it enters
one parent, or it hands the children of a position over to the parent of that position.

The table tells everything about the tree.  The ancestors of a position are the way that the table leads from
the root to it, and a call that fails has left the tree alone.
-/

/-! ## Tables of parents -/

namespace ParentTable

/-- The parents that stored nodes give. -/
def ofNodes (nodes : List TreeNode) : ParentTable :=
  fun id => (nodes.find? fun node => node.id == id).bind TreeNode.parent

/-- The table with one parent entered. -/
def enter (parents : ParentTable) (id parent : Position) : ParentTable :=
  fun other => if other = id then some parent else parents other

/-- The table without a position, whose children are now under its parent. -/
def leaveOut (parents : ParentTable) (id : Position) : ParentTable :=
  fun other =>
    if other = id then none
    else if parents other = some id then parents id
    else parents other

end ParentTable

/-! ## Calls -/

/-- A call that changes a tree. -/
inductive TreeCall where
  | insert (id parent : Position)
  | setParent (id parent : Position)
  | remove (id : Position)
deriving DecidableEq, Repr

namespace TreeCall

/-- The tree that a call makes of a tree, unless it fails. -/
def apply (tree : PositionTree) : TreeCall → Except TreeError PositionTree
  | insert id parent => tree.insert id parent
  | setParent id parent => (tree.setParent id parent).map Prod.fst
  | remove id => (tree.remove id).map Prod.fst

/-- What a call that succeeds does to a table of parents. -/
def rewire (parents : ParentTable) : TreeCall → ParentTable
  | insert id parent | setParent id parent => parents.enter id parent
  | remove id => parents.leaveOut id

/-- What a call asks of a tree.  A position is not moved below itself, and the root stays where it is. -/
def Fits (tree : PositionTree) : TreeCall → Prop
  | insert id parent => tree.contains id = false ∧ tree.contains parent = true
  | setParent id parent => id ≠ rootPosition ∧ tree.contains id = true ∧ tree.contains parent = true ∧
      tree.isAncestorOrSelf id parent = false
  | remove id => id ≠ rootPosition ∧ tree.contains id = true

instance (call : TreeCall) (tree : PositionTree) : Decidable (call.Fits tree) :=
  match call with
  | insert id parent =>
      inferInstanceAs (Decidable (tree.contains id = false ∧ tree.contains parent = true))
  | setParent id parent =>
      inferInstanceAs (Decidable (id ≠ rootPosition ∧ tree.contains id = true ∧
        tree.contains parent = true ∧ tree.isAncestorOrSelf id parent = false))
  | remove id => inferInstanceAs (Decidable (id ≠ rootPosition ∧ tree.contains id = true))

end TreeCall

namespace PositionTree

/-- What comes of a call, and the tree afterwards. -/
def perform (tree : PositionTree) (call : TreeCall) : Except TreeError Unit × PositionTree :=
  match call.apply tree with
  | .ok changed => (.ok (), changed)
  | .error error => (.error error, tree)

/-- The trees that calls lead to, also where some of them fail, each with the table kept beside it. -/
inductive Traced : PositionTree → ParentTable → Prop where
  | rootOnly (kind : TreeKind) : Traced (rootOnly kind) fun _ => none
  | loaded {kind : TreeKind} {nodes : List TreeNode} {tree : PositionTree}
      (isLoaded : ofNodes kind nodes = .ok tree) : Traced tree (ParentTable.ofNodes nodes)
  | succeeded {tree after : PositionTree} {parents : ParentTable} {call : TreeCall}
      (traced : Traced tree parents) (performed : tree.perform call = (.ok (), after)) :
      Traced after (call.rewire parents)
  | failed {tree after : PositionTree} {parents : ParentTable} {call : TreeCall} {error : TreeError}
      (traced : Traced tree parents) (performed : tree.perform call = (.error error, after)) :
      Traced after parents

variable {tree after : PositionTree} {parents : ParentTable} {call : TreeCall} {id parent : Position}

theorem perform_eq_ok_iff : tree.perform call = (.ok (), after) ↔ call.apply tree = .ok after := by
  unfold perform
  cases call.apply tree <;> simp

theorem eq_of_perform_error {error : TreeError} (performed : tree.perform call = (.error error, after)) :
    after = tree := by
  unfold perform at performed
  split at performed
  · cases performed
  · rw [Prod.mk.injEq] at performed
    exact performed.2.symm

/-! ## The table agrees with the tree -/

theorem parent?_rootOnly (kind : TreeKind) (id : Position) : (rootOnly kind).parent? id = none := by
  rw [← Option.not_isSome_iff_eq_none, Option.isSome_iff_exists]
  rintro ⟨parent, isParent⟩
  rcases contains_iff.mp (contains_of_parent? isParent) with ⟨up, found⟩
  have member : id ∈ (∅ : Std.ExtTreeMap Position (List Position)).insert rootPosition [] :=
    mem_of_getElem? found
  rw [Std.ExtTreeMap.mem_insert, Std.compare_eq_iff_eq] at member
  have isRoot := member.resolve_right Std.ExtTreeMap.not_mem_empty
  exact ne_root_of_parent? isParent isRoot.symm

/-- The parents in a loaded tree are those of the nodes. -/
theorem parent?_of_ofNodes {kind : TreeKind} {nodes : List TreeNode} (loaded : ofNodes kind nodes = .ok tree)
    (id : Position) : tree.parent? id = ParentTable.ofNodes nodes id := by
  have listed := (ofNodes_eq_ok_iff.mp loaded).2
  rw [ParentTable.ofNodes]
  cases first : nodes.find? fun node => node.id == id with
  | none =>
      refine Option.eq_none_iff_forall_ne_some.mpr fun parent isParent => ?_
      rcases (listed.parent?_iff id parent).mp isParent with ⟨node, member, isId, _⟩
      exact absurd isId (by simpa using List.find?_eq_none.mp first node member)
  | some node =>
      have isId : node.id = id := by simpa using List.find?_some first
      rw [← isId, listed.parent?_eq (List.mem_of_find?_eq_some first), Option.bind_some]

/-- A call that succeeds changes the parents as it says. -/
theorem parent?_of_apply (applied : call.apply tree = .ok after) (id : Position) :
    after.parent? id = call.rewire tree.parent? id := by
  cases call with
  | insert id parent => exact (insert_grown applied).parent?_eq _
  | setParent id parent =>
      rcases exists_of_map_eq_ok applied with ⟨⟨moved, move⟩, set, rfl⟩
      exact (setParent_moved set).parent?_eq _
  | remove removed =>
      rcases exists_of_map_eq_ok applied with ⟨⟨left, removal⟩, isRemoved, rfl⟩
      rcases remove_without isRemoved with ⟨_, parent, isWithout⟩
      rw [TreeCall.rewire, ParentTable.leaveOut]
      split
      · next same =>
          have gone : left.contains id ≠ true := fun present =>
            ((isWithout.contains_iff id).mp present).1 same
          rw [← Option.not_isSome_iff_eq_none, Option.isSome_iff_exists]
          exact fun ⟨_, isParent⟩ => gone (contains_of_parent? isParent)
      · next different => rw [isWithout.parent?_eq id different, isWithout.isParent]

theorem Traced.parent?_eq (traced : Traced tree parents) (id : Position) :
    tree.parent? id = parents id := by
  induction traced generalizing id with
  | rootOnly kind => exact parent?_rootOnly kind id
  | loaded isLoaded => exact parent?_of_ofNodes isLoaded id
  | succeeded traced performed inductionHypothesis =>
      have sameTable := funext inductionHypothesis
      rw [parent?_of_apply (perform_eq_ok_iff.mp performed) id, sameTable]
  | failed traced performed inductionHypothesis =>
      rw [eq_of_perform_error performed]
      exact inductionHypothesis id

/-! ## Which calls succeed -/

theorem exists_setParent (notRoot : id ≠ rootPosition) (present : tree.contains id = true)
    (parentPresent : tree.contains parent = true) (notAbove : tree.isAncestorOrSelf id parent = false) :
    ∃ moved move, tree.setParent id parent = .ok (moved, move) := by
  rcases contains_iff.mp present with ⟨up, found⟩
  rcases contains_iff.mp parentPresent with ⟨upParent, parentFound⟩
  have notBelow : ¬ (parent = id ∨ id ∈ upParent) := by
    rintro (same | member)
    · simp [isAncestorOrSelf, same] at notAbove
    · simp [isAncestorOrSelf, ancestors?, parentFound, member] at notAbove
  unfold setParent
  rw [dif_neg notRoot]
  split
  · next missing =>
      rw [found] at missing
      cases missing
  · split
    · next missing =>
        rw [parentFound] at missing
        cases missing
    · next again againFound =>
        rw [parentFound, Option.some.injEq] at againFound
        subst againFound
        rw [dif_neg notBelow]
        exact ⟨_, _, rfl⟩

theorem fits_of_setParent {moved : PositionTree} {move : Move}
    (set : tree.setParent id parent = .ok (moved, move)) : (TreeCall.setParent id parent).Fits tree := by
  rcases setParent_eq_ok set with ⟨up, upParent, notRoot, found, parentFound, different, notAbove, _⟩
  refine ⟨notRoot, contains_iff.mpr ⟨up, found⟩, contains_iff.mpr ⟨upParent, parentFound⟩, ?_⟩
  simp [isAncestorOrSelf, ancestors?, parentFound, notAbove, Ne.symm different]

/-- A call succeeds just when it fits. -/
theorem exists_apply_iff : (∃ after, call.apply tree = .ok after) ↔ call.Fits tree := by
  cases call with
  | insert id parent =>
      refine ⟨fun ⟨grown, added⟩ => ?_, fun ⟨absent, present⟩ => exists_insert absent present⟩
      have change := insert_grown added
      exact ⟨change.absent, change.present⟩
  | setParent id parent =>
      constructor
      · rintro ⟨after, applied⟩
        rcases exists_of_map_eq_ok applied with ⟨⟨moved, move⟩, set, _⟩
        exact fits_of_setParent set
      · rintro ⟨notRoot, present, parentPresent, notAbove⟩
        rcases exists_setParent notRoot present parentPresent notAbove with ⟨moved, move, set⟩
        exact ⟨moved, by rw [TreeCall.apply, set, Except.map]⟩
  | remove id =>
      constructor
      · rintro ⟨after, applied⟩
        rcases exists_of_map_eq_ok applied with ⟨⟨left, removal⟩, removed, _⟩
        rcases remove_without removed with ⟨notRoot, parent, change⟩
        exact ⟨notRoot, contains_of_parent? change.isParent⟩
      · rintro ⟨notRoot, present⟩
        rcases exists_remove present notRoot with ⟨left, removal, removed⟩
        exact ⟨left, by rw [TreeCall.apply, removed, Except.map]⟩

theorem exists_perform_error (unfit : ¬ call.Fits tree) :
    ∃ error, tree.perform call = (.error error, tree) := by
  unfold perform
  cases applied : call.apply tree with
  | ok changed => exact absurd (exists_apply_iff.mp ⟨changed, applied⟩) unfit
  | error error => exact ⟨error, rfl⟩

/-! ## What the table tells of the tree -/

variable {known : Position → Prop} {list : List Position}

theorem ParentsFirst.not_known (parentsFirst : tree.ParentsFirst known list) :
    ∀ id ∈ list, ¬ known id := by
  induction list generalizing known with
  | nil => simp
  | cons first rest inductionHypothesis =>
      rcases parentsFirst with ⟨isNew, _, restFirst⟩
      rintro id (_ | ⟨_, member⟩)
      · exact isNew
      · exact fun isKnown => inductionHypothesis restFirst id member (Or.inl isKnown)

theorem ParentsFirst.nodup (parentsFirst : tree.ParentsFirst known list) : list.Nodup := by
  induction list generalizing known with
  | nil => exact List.nodup_nil
  | cons first rest inductionHypothesis =>
      rcases parentsFirst with ⟨_, _, restFirst⟩
      rw [List.nodup_cons]
      exact ⟨fun member => restFirst.not_known first member (Or.inr rfl), inductionHypothesis restFirst⟩

/-- A tree in which everything is as a table of parents says. -/
structure InOrder (tree : PositionTree) (parents : ParentTable) : Prop where
  contains_root : tree.contains rootPosition = true
  parent?_root : tree.parent? rootPosition = none
  exists_parent : ∀ id, tree.contains id = true → id ≠ rootPosition →
    ∃ parent, tree.parent? id = some parent ∧ tree.contains parent = true
  parent?_eq : ∀ id, tree.parent? id = parents id
  contains_iff : ∀ id, tree.contains id = true ↔ id = rootPosition ∨ ∃ parent, parents id = some parent
  /-- Every position has ancestors, they are the way down to it, and no position comes twice on it. -/
  exists_ancestors : ∀ id, tree.contains id = true →
    ∃ up, tree.ancestors id = .ok up ∧ up.Nodup ∧ id ∉ up
  ancestors_iff : ∀ id up, tree.ancestors id = .ok up ↔ parents.Path id up
  children_ascend : ∀ parent, (tree.children parent).Pairwise (· < ·)
  mem_children : ∀ parent id, id ∈ tree.children parent ↔ parents id = some parent
  isAncestorOrSelf_iff : ∀ ancestor id chain, tree.chain id = .ok chain →
    (tree.isAncestorOrSelf ancestor id = true ↔ ancestor ∈ chain)
  isAncestorOrSelf_absent : ∀ ancestor id, tree.contains id = false →
    (tree.isAncestorOrSelf ancestor id = true ↔ ancestor = id)
  breadthFirst_nodup : tree.breadthFirst.Nodup
  mem_breadthFirst : ∀ id, id ∈ tree.breadthFirst ↔ tree.contains id = true
  parent_before : ∀ front id back, tree.breadthFirst = front ++ id :: back →
    ∀ parent, parents id = some parent → parent ∈ front

end PositionTree
end TemplateCascade

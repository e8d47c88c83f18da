import Mathlib
import TemplateCascade.Proofs.Entries
import TemplateCascade.Proofs.Inheritance.Reshaping

namespace TemplateCascade

/-!
# Paths from the root

A table of parents leads from the root down to a position, if it leads there at all.  As long as the root has
no parent there is one path only, and no position comes twice on it.  So a path is not longer than there are
parents, and whoever climbs up has reached the root after as many steps.

In a tree the path to a position is made of its ancestors.
-/

/-- The parents of positions. -/
abbrev ParentTable := Position → Option Position

namespace ParentTable

/-- The positions on the way from the root down to a position, which is not one of them. -/
inductive Path (parents : ParentTable) : Position → List Position → Prop where
  | root : Path parents rootPosition []
  | child {id parent : Position} {up : List Position} (isParent : parents id = some parent)
      (path : Path parents parent up) : Path parents id (up ++ [parent])

variable {parents : ParentTable} {id above : Position} {up others : List Position}

/-- There is one path to a position at most when the root has no parent. -/
theorem Path.unique (rootless : parents rootPosition = none) (path : parents.Path id up)
    (other : parents.Path id others) : up = others := by
  induction path generalizing others with
  | root =>
      cases other with
      | root => rfl
      | child isParent _ => exact nomatch rootless.symm.trans isParent
  | child isParent _ inductionHypothesis =>
      cases other with
      | root => exact nomatch rootless.symm.trans isParent
      | child isOther higher =>
          cases isParent.symm.trans isOther
          rw [inductionHypothesis higher]

theorem Path.exists_shorter (path : parents.Path id up) (member : above ∈ up) :
    ∃ higher, parents.Path above higher ∧ higher.length < up.length := by
  induction path with
  | root => cases member
  | @child id parent up isParent path inductionHypothesis =>
      rw [List.length_append, List.length_singleton]
      rcases List.mem_append.mp member with further | last
      · rcases inductionHypothesis further with ⟨higher, shorterPath, shorter⟩
        exact ⟨higher, shorterPath, by omega⟩
      · rw [List.mem_singleton] at last
        exact ⟨up, last ▸ path, by omega⟩

theorem Path.not_mem (rootless : parents rootPosition = none) (path : parents.Path id up) : id ∉ up := by
  intro member
  rcases path.exists_shorter member with ⟨higher, again, shorter⟩
  rw [path.unique rootless again] at shorter
  exact Nat.lt_irrefl _ shorter

theorem Path.nodup (rootless : parents rootPosition = none) (path : parents.Path id up) : up.Nodup := by
  induction path with
  | root => exact List.nodup_nil
  | child isParent path inductionHypothesis =>
      rw [List.nodup_append_comm, List.singleton_append, List.nodup_cons]
      exact ⟨path.not_mem rootless, inductionHypothesis⟩

theorem Path.exists_parent (path : parents.Path id up) (notRoot : id ≠ rootPosition) :
    ∃ parent, parents id = some parent := by
  cases path with
  | root => exact absurd rfl notRoot
  | child isParent _ => exact ⟨_, isParent⟩

end ParentTable

namespace PositionTree

/-! ## Paths in a tree -/

section

variable {tree : PositionTree} {id : Position} {up : List Position}

/-- The ancestors of a position are the way down to it. -/
theorem chain_eq_some_iff_path : tree.chains[id]? = some up ↔ ParentTable.Path tree.parent? id up := by
  constructor
  · intro found
    have present := contains_iff.mpr ⟨up, found⟩
    refine tree.ancestry_induction ?_ ?_ id present (motive := fun id =>
      ∀ up, tree.chains[id]? = some up → ParentTable.Path tree.parent? id up) up found
    · intro up found
      rw [tree.root_chain, Option.some.injEq] at found
      exact found ▸ .root
    · intro id parent isParent inductionHypothesis up found
      rcases parent?_eq_some_iff.mp isParent with ⟨higher, parentFound, chainFound⟩
      rw [chainFound, Option.some.injEq] at found
      exact found ▸ .child isParent (inductionHypothesis higher parentFound)
  · intro path
    induction path with
    | root => exact tree.root_chain
    | child isParent path inductionHypothesis =>
        rcases parent?_eq_some_iff.mp isParent with ⟨higher, parentFound, chainFound⟩
        rw [inductionHypothesis, Option.some.injEq] at parentFound
        rw [chainFound, parentFound]

end

/-! ## Climbing along a path -/

section

variable {parents : Std.ExtTreeMap Position Position} {id : Position} {up : List Position}

/-- A path is not longer than there are parents. -/
theorem length_path_le_size (rootless : parents[rootPosition]? = none)
    (path : ParentTable.Path (fun id => parents[id]?) id up) : up.length ≤ parents.size := by
  have known : ∀ position ∈ up ++ [id], position ∈ parents.insert rootPosition rootPosition := by
    intro position member
    have reached : ∃ higher, ParentTable.Path (fun id => parents[id]?) position higher := by
      rcases List.mem_append.mp member with further | last
      · rcases path.exists_shorter further with ⟨higher, shorter, _⟩
        exact ⟨higher, shorter⟩
      · exact ⟨up, List.mem_singleton.mp last ▸ path⟩
    rcases reached with ⟨higher, toPosition⟩
    rw [Std.ExtTreeMap.mem_insert, Std.compare_eq_iff_eq]
    by_cases isRoot : rootPosition = position
    · exact Or.inl isRoot
    · rcases toPosition.exists_parent (Ne.symm isRoot) with ⟨parent, isParent⟩
      exact Or.inr (mem_of_getElem? isParent)
  have different : (up ++ [id]).Nodup := by
    rw [List.nodup_append_comm, List.singleton_append, List.nodup_cons]
    exact ⟨path.not_mem rootless, path.nodup rootless⟩
  have bound := length_le_size different known
  rw [List.length_append, List.length_singleton] at bound
  exact Nat.le_of_succ_le_succ (bound.trans Std.ExtTreeMap.size_insert_le)

theorem climb?_of_path (rootless : parents[rootPosition]? = none)
    (path : ParentTable.Path (fun id => parents[id]?) id up) {steps : Nat} (near : up.length ≤ steps) :
    climb? parents steps id = some up := by
  induction path generalizing steps with
  | root => rw [climb?.eq_def, if_pos rfl]
  | @child id parent up isParent path inductionHypothesis =>
      have notRoot : id ≠ rootPosition := by
        rintro rfl
        exact nomatch rootless.symm.trans isParent
      rw [List.length_append, List.length_singleton] at near
      cases steps with
      | zero => exact absurd near (Nat.not_succ_le_zero _)
      | succ steps =>
          rw [climb?, if_neg notRoot, isParent, Option.bind_some,
            inductionHypothesis (Nat.le_of_succ_le_succ near), Option.map_some]

end

end PositionTree
end TemplateCascade

import Mathlib
import TemplateCascade.Proofs.Inheritance.Ancestry

namespace TemplateCascade
namespace PositionTree

/-!
# What a change does to a tree

Adding, moving and removing a position are described by the positions and the parents of the new tree.
The ancestors of what is below the changed position follow from these and need not be looked at again.
-/

variable {tree : PositionTree} {id parent : Position}

theorem contains_eq_false_iff : tree.contains id = false ↔ tree.chains[id]? = none := by
  rw [contains, Std.ExtTreeMap.contains_eq_isSome_getElem?, Option.isSome_eq_false_iff,
    Option.isNone_iff_eq_none]

theorem contains_iff_mem : tree.contains id = true ↔ id ∈ tree.chains := by
  rw [contains, Std.ExtTreeMap.mem_iff_contains]

theorem ancestors_eq_ok_iff {up : List Position} :
    tree.ancestors id = .ok up ↔ tree.chains[id]? = some up := by
  unfold ancestors ancestors?
  cases tree.chains[id]? <;> simp

theorem chain_eq_ok_iff {down : List Position} :
    tree.chain id = .ok down ↔ ∃ up, tree.chains[id]? = some up ∧ down = up ++ [id] := by
  unfold chain ancestors ancestors?
  cases tree.chains[id]? <;> simp [Except.map, eq_comm]

/-- Two trees with the same ancestors of a position agree on whether it is there, and on its parent. -/
theorem contains_congr {other : PositionTree} {position : Position}
    (same : (other.chains[position]?).isSome = (tree.chains[position]?).isSome) :
    other.contains position = tree.contains position := by
  rw [contains, contains, Std.ExtTreeMap.contains_eq_isSome_getElem?,
    Std.ExtTreeMap.contains_eq_isSome_getElem?, same]

/-! ## Adding a position -/

/-- The tree with one more position. -/
structure Grown (tree grown : PositionTree) (id parent : Position) : Prop where
  kind : grown.kind = tree.kind
  absent : tree.contains id = false
  present : tree.contains parent = true
  contains_iff : ∀ other, grown.contains other = true ↔ other = id ∨ tree.contains other = true
  parent?_eq : ∀ other, grown.parent? other = if other = id then some parent else tree.parent? other

theorem insert_grown {grown : PositionTree} (added : tree.insert id parent = .ok grown) :
    tree.Grown grown id parent := by
  unfold insert at added
  split at added
  · cases added
  · next absent =>
      split at added
      · cases added
      · next up found =>
          rw [Except.ok.injEq] at added
          subst added
          refine ⟨rfl, ?_, PositionTree.contains_iff.mpr ⟨up, found⟩, ?_, ?_⟩
          · rw [← Bool.not_eq_true, contains_iff_mem]
            exact absent
          · intro other
            simp only [contains_iff_mem, Std.ExtTreeMap.mem_insert, Std.compare_eq_iff_eq]
            rw [eq_comm]
          · intro other
            simp only [parent?, ancestors?, Std.ExtTreeMap.getElem?_insert, Std.compare_eq_iff_eq]
            by_cases same : other = id
            · subst same
              simp
            · rw [if_neg (Ne.symm same), if_neg same]

/-- A new position can be added under any position of the tree. -/
theorem exists_insert (absent : tree.contains id = false) (present : tree.contains parent = true) :
    ∃ grown, tree.insert id parent = .ok grown := by
  unfold insert
  rw [← Bool.not_eq_true, contains_iff_mem] at absent
  rcases contains_iff.mp present with ⟨up, found⟩
  rw [dif_neg absent]
  split
  · next missing =>
      rw [found] at missing
      cases missing
  · exact ⟨_, rfl⟩

/-! ## Moving a position -/

/-- The tree with a position under another parent. -/
structure Moved (tree moved : PositionTree) (id parent : Position) : Prop where
  kind : moved.kind = tree.kind
  notRoot : id ≠ rootPosition
  present : tree.contains id = true
  parentPresent : tree.contains parent = true
  contains_eq : ∀ other, moved.contains other = tree.contains other
  parent?_eq : ∀ other, moved.parent? other = if other = id then some parent else tree.parent? other

/-- A list ends like its part from an element on. -/
theorem getLast?_dropWhile {up : List Position} (member : id ∈ up) :
    (up.dropWhile (· != id)).getLast? = up.getLast? := by
  induction up with
  | nil => cases member
  | cons head tail inductionHypothesis =>
      by_cases same : head = id
      · simp [same]
      · have below : id ∈ tail := (List.mem_cons.mp member).resolve_left (Ne.symm same)
        have shorter : (head :: tail).dropWhile (· != id) = tail.dropWhile (· != id) := by
          simp [same]
        rw [shorter, inductionHypothesis below]
        cases tail with
        | nil => cases below
        | cons next rest => rw [List.getLast?_cons_cons]

/-- A move that succeeds has found both positions, neither the new parent nor one above it the moved one. -/
theorem setParent_eq_ok {moved : PositionTree} {move : Move}
    (set : tree.setParent id parent = .ok (moved, move)) :
    ∃ up upParent, id ≠ rootPosition ∧ tree.chains[id]? = some up ∧ tree.chains[parent]? = some upParent ∧
      parent ≠ id ∧ id ∉ upParent ∧ moved.kind = tree.kind ∧
      moved.chains = tree.chains.map (movedChain id (upParent ++ [parent])) ∧
      move = ⟨id, up, upParent ++ [parent], moved.subtree id⟩ := by
  unfold setParent at set
  split at set
  · cases set
  · next notRoot =>
      split at set
      · cases set
      · next up found =>
          split at set
          · cases set
          · next upParent parentFound =>
              split at set
              · cases set
              · next notBelow =>
                  rw [not_or] at notBelow
                  simp only [Except.ok.injEq, Prod.mk.injEq] at set
                  rcases set with ⟨rfl, rfl⟩
                  exact ⟨up, upParent, notRoot, found, parentFound, notBelow.1, notBelow.2, rfl, rfl, rfl⟩

/-- Every position but the moved one keeps the last of its ancestors. -/
theorem getLast?_movedChain {other : Position} (different : other ≠ id) (target up : List Position) :
    (movedChain id target other up).getLast? = up.getLast? := by
  rw [movedChain, if_neg different]
  split
  · next member =>
      rw [List.getLast?_append, getLast?_dropWhile member]
      cases ended : up.getLast? with
      | none =>
          rw [List.getLast?_eq_none_iff] at ended
          simp [ended] at member
      | some _ => rfl
  · rfl

theorem setParent_moved {moved : PositionTree} {move : Move}
    (set : tree.setParent id parent = .ok (moved, move)) : tree.Moved moved id parent := by
  rcases setParent_eq_ok set with
    ⟨up, upParent, notRoot, found, parentFound, _, _, sameKind, isMoved, _⟩
  refine ⟨sameKind, notRoot, contains_iff.mpr ⟨up, found⟩, contains_iff.mpr ⟨upParent, parentFound⟩,
    fun other => contains_congr ?_, fun other => ?_⟩
  · rw [isMoved, Std.ExtTreeMap.getElem?_map, Option.isSome_map]
  · simp only [parent?, ancestors?, isMoved, Std.ExtTreeMap.getElem?_map]
    by_cases same : other = id
    · subst same
      simp [found, movedChain]
    · rw [if_neg same]
      cases tree.chains[other]? with
      | none => rfl
      | some higher => exact getLast?_movedChain same _ higher

/-! ## Removing a position -/

/-- The tree without a position, its children under its parent. -/
structure Without (tree left : PositionTree) (id parent : Position) : Prop where
  kind : left.kind = tree.kind
  isParent : tree.parent? id = some parent
  contains_iff : ∀ other, left.contains other = true ↔ other ≠ id ∧ tree.contains other = true
  parent?_eq : ∀ other, other ≠ id →
    left.parent? other = if tree.parent? other = some id then some parent else tree.parent? other

theorem filter_eq_self_of_notMem {list : List Position} (absent : id ∉ list) :
    list.filter (· != id) = list := by
  rw [List.filter_eq_self]
  intro position member
  rw [bne_iff_ne]
  rintro rfl
  exact absent member

/-- The last of the ancestors when one of them is left out. -/
theorem getLast?_filter_chain {other : Position} {up : List Position}
    (isParent : tree.parent? id = some parent) (found : tree.chains[other]? = some up) :
    (up.filter (· != id)).getLast? =
      if up.getLast? = some id then some parent else up.getLast? := by
  by_cases isRoot : other = rootPosition
  · rw [isRoot, tree.root_chain, Option.some.injEq] at found
    simp [← found]
  · rcases tree.chain_eq other up found isRoot with ⟨next, higher, nextFound, rfl⟩
    by_cases same : next = id
    · subst same
      rcases parent?_eq_some_iff.mp isParent with ⟨top, _, idFound⟩
      rw [nextFound, Option.some.injEq] at idFound
      rw [List.filter_append, filter_eq_self_of_notMem (tree.not_mem_of_chain nextFound)]
      simp [idFound]
    · simp [same]

/-- A removal that succeeds has found the parent of a position, and leaves the position out of all chains. -/
theorem remove_eq_ok {left : PositionTree} {removal : Removal}
    (removed : tree.remove id = .ok (left, removal)) :
    ∃ parent, id ≠ rootPosition ∧ tree.parent? id = some parent ∧ left.kind = tree.kind ∧
      left.chains = (tree.chains.erase id).map (fun _ up => up.filter (· != id)) ∧
      removal = ⟨id, parent, tree.children id, (tree.children id).flatMap left.subtree⟩ := by
  unfold remove at removed
  split at removed
  · cases removed
  · next notRoot =>
      split at removed
      · cases removed
      · next parent isParent =>
          simp only [Except.ok.injEq, Prod.mk.injEq] at removed
          rcases removed with ⟨rfl, rfl⟩
          exact ⟨parent, notRoot, isParent, rfl, rfl, rfl⟩

/-- What the other positions have of their ancestors when one position is left out of all chains. -/
theorem chains_leftOut {left : PositionTree} {other : Position}
    (leftOut : left.chains = (tree.chains.erase id).map fun _ up => up.filter (· != id))
    (different : other ≠ id) :
    left.chains[other]? = tree.chains[other]?.map fun up => up.filter (· != id) := by
  have otherKey : compare id other ≠ .eq := by
    intro same
    exact different (Std.compare_eq_iff_eq.mp same).symm
  rw [leftOut, Std.ExtTreeMap.getElem?_map, Std.ExtTreeMap.getElem?_erase, if_neg otherKey]

theorem remove_without {left : PositionTree} {removal : Removal}
    (removed : tree.remove id = .ok (left, removal)) :
    id ≠ rootPosition ∧ ∃ parent, tree.Without left id parent := by
  rcases remove_eq_ok removed with ⟨parent, notRoot, isParent, sameKind, leftOut, _⟩
  refine ⟨notRoot, parent, sameKind, isParent, fun other => ?_, fun other different => ?_⟩
  · simp only [contains_iff_mem, leftOut, Std.ExtTreeMap.mem_map, Std.ExtTreeMap.mem_erase, ne_eq,
      Std.compare_eq_iff_eq]
    rw [eq_comm]
  · rw [parent?, ancestors?, chains_leftOut leftOut different, parent?, ancestors?]
    rcases Option.eq_none_or_eq_some tree.chains[other]? with missing | ⟨up, found⟩
    · rw [missing]
      rfl
    · rw [found]
      exact getLast?_filter_chain isParent found

theorem remove_root (tree : PositionTree) :
    tree.remove rootPosition = .error (.rootImmutable tree.kind) := by
  rw [remove, dif_pos rfl]

/-- Every position but the root can be removed. -/
theorem exists_remove (present : tree.contains id = true) (notRoot : id ≠ rootPosition) :
    ∃ left removal, tree.remove id = .ok (left, removal) := by
  rcases exists_parent? present notRoot with ⟨parent, isParent⟩
  unfold remove
  rw [dif_neg notRoot]
  split
  · next missing =>
      rw [isParent] at missing
      cases missing
  · exact ⟨_, _, rfl⟩

end PositionTree
end TemplateCascade

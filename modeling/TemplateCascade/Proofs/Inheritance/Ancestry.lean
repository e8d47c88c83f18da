import Mathlib
import TemplateCascade.Inheritance.Tree

namespace TemplateCascade
namespace PositionTree

/-!
# Parents and ancestors

A tree keeps the ancestors of every position, and everything else is read off them.  The parent is what
the arguments about trees use instead: a tree is determined by the parents of its positions, and what
holds of the root and passes from parents to children holds of all positions.

The breadth-first order is cut into levels by the number of ancestors.  A position comes exactly once
in it, behind its parent.
-/

variable {tree : PositionTree} {id parent : Position}

/-! ## Parents -/

theorem contains_iff : tree.contains id = true ↔ ∃ up, tree.chains[id]? = some up := by
  rw [contains, Std.ExtTreeMap.contains_eq_isSome_getElem?, Option.isSome_iff_exists]

theorem contains_root (tree : PositionTree) : tree.contains rootPosition = true :=
  contains_iff.mpr ⟨[], tree.root_chain⟩

theorem parent?_root (tree : PositionTree) : tree.parent? rootPosition = none := by
  simp [parent?, ancestors?, tree.root_chain]

/-- The ancestors of a position are those of its parent, and then the parent. -/
theorem parent?_eq_some_iff : tree.parent? id = some parent ↔
    ∃ up, tree.chains[parent]? = some up ∧ tree.chains[id]? = some (up ++ [parent]) := by
  constructor
  · intro isParent
    rw [parent?, ancestors?, Option.bind_eq_some_iff] at isParent
    rcases isParent with ⟨chain, found, last⟩
    have notRoot : id ≠ rootPosition := by
      rintro rfl
      rw [tree.root_chain, Option.some.injEq] at found
      simp [← found] at last
    rcases tree.chain_eq id chain found notRoot with ⟨other, up, otherFound, rfl⟩
    rw [List.getLast?_append, List.getLast?_singleton, Option.some_or, Option.some.injEq] at last
    subst last
    exact ⟨up, otherFound, found⟩
  · rintro ⟨up, _, found⟩
    simp [parent?, ancestors?, found]

theorem exists_parent? (present : tree.contains id = true) (notRoot : id ≠ rootPosition) :
    ∃ parent, tree.parent? id = some parent := by
  rcases contains_iff.mp present with ⟨chain, found⟩
  rcases tree.chain_eq id chain found notRoot with ⟨parent, up, parentFound, rfl⟩
  exact ⟨parent, parent?_eq_some_iff.mpr ⟨up, parentFound, found⟩⟩

theorem contains_of_parent? (isParent : tree.parent? id = some parent) :
    tree.contains id = true := by
  rcases parent?_eq_some_iff.mp isParent with ⟨up, _, found⟩
  exact contains_iff.mpr ⟨_, found⟩

theorem contains_parent (isParent : tree.parent? id = some parent) :
    tree.contains parent = true := by
  rcases parent?_eq_some_iff.mp isParent with ⟨up, found, _⟩
  exact contains_iff.mpr ⟨up, found⟩

theorem ne_root_of_parent? (isParent : tree.parent? id = some parent) : id ≠ rootPosition := by
  rintro rfl
  rw [tree.parent?_root] at isParent
  cases isParent

/-- What holds of the root and passes from parents to children holds of every position. -/
theorem ancestry_induction (tree : PositionTree) {motive : Position → Prop}
    (root : motive rootPosition)
    (child : ∀ id parent, tree.parent? id = some parent → motive parent → motive id) :
    ∀ id, tree.contains id = true → motive id := by
  suffices climb : ∀ count id up, tree.chains[id]? = some up → up.length = count → motive id by
    intro id present
    rcases contains_iff.mp present with ⟨up, found⟩
    exact climb up.length id up found rfl
  intro count
  induction count with
  | zero =>
      intro id up found length
      by_cases isRoot : id = rootPosition
      · exact isRoot ▸ root
      · rcases tree.chain_eq id up found isRoot with ⟨parent, higher, _, rfl⟩
        simp at length
  | succ count inductionHypothesis =>
      intro id up found length
      by_cases isRoot : id = rootPosition
      · exact isRoot ▸ root
      · rcases tree.chain_eq id up found isRoot with ⟨parent, higher, parentFound, rfl⟩
        refine child id parent (parent?_eq_some_iff.mpr ⟨higher, parentFound, found⟩) ?_
        exact inductionHypothesis parent higher parentFound (by simpa using length)

/-- A tree is determined by its positions and their parents. -/
theorem ext_of_parent? {left right : PositionTree} (sameKind : left.kind = right.kind)
    (sameContains : ∀ id, left.contains id = right.contains id)
    (sameParent : ∀ id, left.parent? id = right.parent? id) : left = right := by
  have sameChain : ∀ id, left.contains id = true → left.chains[id]? = right.chains[id]? := by
    refine left.ancestry_induction ?_ ?_
    · rw [left.root_chain, right.root_chain]
    · intro id parent isParent inductionHypothesis
      rcases parent?_eq_some_iff.mp isParent with ⟨up, parentFound, found⟩
      rw [sameParent] at isParent
      rcases parent?_eq_some_iff.mp isParent with ⟨other, otherParentFound, otherFound⟩
      rw [parentFound, otherParentFound, Option.some.injEq] at inductionHypothesis
      rw [found, otherFound, inductionHypothesis]
  refine PositionTree.ext sameKind (Std.ExtTreeMap.ext_getElem? fun {id} => ?_)
  by_cases present : left.contains id = true
  · exact sameChain id present
  · have absent : right.contains id ≠ true := by rwa [← sameContains]
    simp only [contains, Std.ExtTreeMap.contains_eq_isSome_getElem?, Bool.not_eq_true,
      Option.isSome_eq_false_iff, Option.isNone_iff_eq_none] at present absent
    rw [present, absent]

/-! ## Levels -/

/-- The ancestors of a position are different from each other. -/
theorem nodup_chain : ∀ {up : List Position}, tree.chains[id]? = some up → up.Nodup := by
  suffices every : ∀ id, tree.contains id = true → ∀ up, tree.chains[id]? = some up → up.Nodup by
    intro up found
    exact every id (contains_iff.mpr ⟨up, found⟩) up found
  refine tree.ancestry_induction ?_ ?_
  · intro up found
    rw [tree.root_chain, Option.some.injEq] at found
    exact found ▸ List.nodup_nil
  · intro id parent isParent inductionHypothesis up found
    rcases parent?_eq_some_iff.mp isParent with ⟨higher, parentFound, chainFound⟩
    rw [chainFound, Option.some.injEq] at found
    subst found
    refine List.Nodup.append (inductionHypothesis higher parentFound) (List.nodup_singleton _) ?_
    rw [List.disjoint_singleton]
    exact tree.not_mem_of_chain parentFound

/-- Different positions that all have entries in a map are no more than the map's entries. -/
theorem length_le_size {Entry : Type} {entries : Std.ExtTreeMap Position Entry}
    {positions : List Position} (distinct : positions.Nodup)
    (known : ∀ position ∈ positions, position ∈ entries) : positions.length ≤ entries.size := by
  rw [← Std.ExtTreeMap.length_keys]
  refine (List.subperm_of_subset distinct fun position member => ?_).length_le
  exact Std.ExtTreeMap.mem_keys.mpr (known position member)

theorem length_chain_lt_size {up : List Position} (found : tree.chains[id]? = some up) :
    up.length < tree.size := by
  have distinct : (up ++ [id]).Nodup := by
    refine List.Nodup.append (nodup_chain found) (List.nodup_singleton _) ?_
    rw [List.disjoint_singleton]
    exact tree.not_mem_of_chain found
  have known : ∀ position ∈ up ++ [id], position ∈ tree.chains := by
    intro position member
    rcases List.mem_append.mp member with above | last
    · rcases tree.chain_of_mem found above with ⟨_, positionFound, _⟩
      exact mem_of_getElem? positionFound
    · rw [List.mem_singleton] at last
      exact last ▸ mem_of_getElem? found
  have bound := length_le_size distinct known
  rw [List.length_append, List.length_singleton] at bound
  exact bound

theorem mem_children : id ∈ tree.children parent ↔ tree.parent? id = some parent := by
  rw [children, Std.ExtTreeMap.mem_keys, Std.ExtTreeMap.mem_iff_isSome_getElem?,
    Std.ExtTreeMap.getElem?_filter', parent?, ancestors?]
  cases tree.chains[id]? <;> simp [Option.filter]

theorem nodup_children (tree : PositionTree) (parent : Position) :
    (tree.children parent).Nodup := by
  have distinct := (tree.chains.filter fun _ up => up.getLast? == some parent).distinct_keys
  exact distinct.imp fun different same => different (Std.compare_eq_iff_eq.mpr same)

/-- The positions that are so many steps below a position, in breadth-first order. -/
def generation (tree : PositionTree) (id : Position) : Nat → List Position
  | 0 => [id]
  | depth + 1 => (tree.generation id depth).flatMap tree.children

/-- The positions with so many ancestors, in breadth-first order. -/
def level (tree : PositionTree) : Nat → List Position
  | 0 => [rootPosition]
  | depth + 1 => (tree.level depth).flatMap tree.children

theorem mem_level {depth : Nat} :
    id ∈ tree.level depth ↔ ∃ up, tree.chains[id]? = some up ∧ up.length = depth := by
  induction depth generalizing id with
  | zero =>
      rw [level, List.mem_singleton]
      constructor
      · rintro rfl
        exact ⟨[], tree.root_chain, rfl⟩
      · rintro ⟨up, found, length⟩
        by_contra notRoot
        rcases tree.chain_eq id up found notRoot with ⟨parent, higher, _, rfl⟩
        simp at length
  | succ depth inductionHypothesis =>
      simp only [level, List.mem_flatMap, inductionHypothesis, mem_children, parent?_eq_some_iff]
      constructor
      · rintro ⟨parent, ⟨up, found, length⟩, higher, parentFound, childFound⟩
        rw [found, Option.some.injEq] at parentFound
        subst parentFound
        exact ⟨up ++ [parent], childFound, by simpa using length⟩
      · rintro ⟨up, found, length⟩
        have notRoot : id ≠ rootPosition := by
          rintro rfl
          rw [tree.root_chain, Option.some.injEq] at found
          simp [← found] at length
        rcases tree.chain_eq id up found notRoot with ⟨parent, higher, parentFound, rfl⟩
        exact ⟨parent, ⟨higher, parentFound, by simpa using length⟩, higher, parentFound, found⟩

theorem nodup_level (tree : PositionTree) (depth : Nat) : (tree.level depth).Nodup := by
  induction depth with
  | zero => exact List.nodup_singleton _
  | succ depth inductionHypothesis =>
      rw [level, List.nodup_flatMap]
      refine ⟨fun parent _ => tree.nodup_children parent, ?_⟩
      refine inductionHypothesis.imp fun different => ?_
      intro child first second
      rw [mem_children] at first second
      rw [first, Option.some.injEq] at second
      exact different second

/-- Behind an empty generation there are only empty ones. -/
theorem flatMap_generation_of_nil {start : Nat} (ended : tree.generation id start = []) (count : Nat) :
    (List.range' start count).flatMap (tree.generation id) = [] := by
  induction count generalizing start with
  | zero => rfl
  | succ count inductionHypothesis =>
      rw [List.range'_succ, List.flatMap_cons, ended, List.nil_append]
      exact inductionHypothesis (by rw [generation, ended, List.flatMap_nil])

theorem generations_generation (tree : PositionTree) (id : Position) (start count : Nat) :
    tree.generations count (tree.generation id start) =
      (List.range' start count).flatMap (tree.generation id) := by
  induction count generalizing start with
  | zero => simp [generations]
  | succ count inductionHypothesis =>
      cases here : tree.generation id start with
      | nil => rw [flatMap_generation_of_nil here, generations]; exact nofun
      | cons first rest =>
          rw [generations, ← here, List.range'_succ, List.flatMap_cons]
          · exact congrArg _ (inductionHypothesis (start + 1))
          · exact nofun

theorem subtree_eq (present : tree.contains id = true) :
    tree.subtree id = (List.range' 0 tree.size).flatMap (tree.generation id) := by
  rw [subtree, if_pos present]
  exact tree.generations_generation id 0 tree.size

theorem level_eq_generation (tree : PositionTree) : tree.level = tree.generation rootPosition := by
  funext depth
  induction depth with
  | zero => rfl
  | succ depth inductionHypothesis => rw [level, inductionHypothesis, generation]

theorem breadthFirst_eq (tree : PositionTree) :
    tree.breadthFirst = (List.range' 0 tree.size).flatMap tree.level := by
  rw [level_eq_generation]
  exact subtree_eq tree.contains_root

theorem mem_breadthFirst : id ∈ tree.breadthFirst ↔ tree.contains id = true := by
  simp only [breadthFirst_eq, List.mem_flatMap, mem_level, List.mem_range'_1, contains_iff]
  constructor
  · rintro ⟨_, _, up, found, _⟩
    exact ⟨up, found⟩
  · rintro ⟨up, found⟩
    exact ⟨up.length, by simpa using length_chain_lt_size found, up, found, rfl⟩

theorem mem_subtree_self (present : tree.contains id = true) : id ∈ tree.subtree id := by
  rcases contains_iff.mp present with ⟨up, found⟩
  have positive : tree.size ≠ 0 := by
    have := length_chain_lt_size found
    omega
  rcases Nat.exists_eq_succ_of_ne_zero positive with ⟨count, size⟩
  rw [subtree, if_pos present, size, generations]
  · exact List.mem_append_left _ (List.mem_singleton_self id)
  · exact nofun

/-! ## Parents first -/

/-- The positions of a list are new, and every one comes behind its parent. -/
def ParentsFirst (tree : PositionTree) (known : Position → Prop) : List Position → Prop
  | [] => True
  | id :: rest =>
      ¬ known id ∧ (∀ parent, tree.parent? id = some parent → known parent) ∧
        tree.ParentsFirst (fun other => known other ∨ other = id) rest

theorem ParentsFirst.append {known : Position → Prop} {front back : List Position}
    (first : tree.ParentsFirst known front)
    (second : tree.ParentsFirst (fun other => known other ∨ other ∈ front) back) :
    tree.ParentsFirst known (front ++ back) := by
  induction front generalizing known with
  | nil => simpa using second
  | cons id rest inductionHypothesis =>
      rcases first with ⟨isNew, behindParent, restFirst⟩
      refine ⟨isNew, behindParent, inductionHypothesis restFirst ?_⟩
      simpa only [List.mem_cons, or_assoc] using second

/-- New positions whose parents are known may come in any order. -/
theorem ParentsFirst.of_known {known : Position → Prop} {list : List Position}
    (distinct : list.Nodup) (allNew : ∀ id ∈ list, ¬ known id)
    (behindParents : ∀ id ∈ list, ∀ parent, tree.parent? id = some parent → known parent) :
    tree.ParentsFirst known list := by
  induction list generalizing known with
  | nil => trivial
  | cons id rest inductionHypothesis =>
      rw [List.nodup_cons] at distinct
      refine ⟨allNew id List.mem_cons_self, behindParents id List.mem_cons_self,
        inductionHypothesis distinct.2 ?_ ?_⟩
      · rintro other member (isKnown | rfl)
        · exact allNew other (List.mem_cons_of_mem _ member) isKnown
        · exact distinct.1 member
      · intro other member parent isParent
        exact Or.inl (behindParents other (List.mem_cons_of_mem _ member) parent isParent)

/-- Whether a position has fewer than so many ancestors. -/
def IsAbove (tree : PositionTree) (depth : Nat) (id : Position) : Prop :=
  ∃ up, tree.chains[id]? = some up ∧ up.length < depth

theorem isAbove_succ {depth : Nat} :
    tree.IsAbove (depth + 1) id ↔ tree.IsAbove depth id ∨ id ∈ tree.level depth := by
  simp only [IsAbove, mem_level, ← exists_or, ← and_or_left, Nat.lt_succ_iff_lt_or_eq]

theorem parentsFirst_levels (tree : PositionTree) (start count : Nat) :
    tree.ParentsFirst (tree.IsAbove start) ((List.range' start count).flatMap tree.level) := by
  induction count generalizing start with
  | zero => trivial
  | succ count inductionHypothesis =>
      rw [List.range'_succ, List.flatMap_cons]
      refine ParentsFirst.append (ParentsFirst.of_known (tree.nodup_level start) ?_ ?_) ?_
      · rintro id member ⟨up, found, length⟩
        rcases mem_level.mp member with ⟨same, sameFound, sameLength⟩
        rw [found, Option.some.injEq] at sameFound
        exact absurd (sameFound ▸ sameLength) (Nat.ne_of_lt length)
      · intro id member parent isParent
        rcases mem_level.mp member with ⟨up, found, length⟩
        rcases parent?_eq_some_iff.mp isParent with ⟨higher, parentFound, childFound⟩
        rw [found, Option.some.injEq] at childFound
        refine ⟨higher, parentFound, ?_⟩
        simp [← length, childFound]
      · have levels : (fun other => tree.IsAbove start other ∨ other ∈ tree.level start) =
            tree.IsAbove (start + 1) := by
          funext other
          exact propext isAbove_succ.symm
        rw [levels]
        exact inductionHypothesis (start + 1)

/-- The breadth-first order names every position once, behind its parent. -/
theorem parentsFirst_breadthFirst (tree : PositionTree) :
    tree.ParentsFirst (fun _ => False) tree.breadthFirst := by
  have nothingAbove : tree.IsAbove 0 = fun _ => False := by
    funext id
    simp [IsAbove]
  rw [breadthFirst_eq, ← nothingAbove]
  exact tree.parentsFirst_levels 0 tree.size

end PositionTree
end TemplateCascade

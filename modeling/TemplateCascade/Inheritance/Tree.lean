import Std.Data.ExtTreeMap
import TemplateCascade.Inheritance.Kind

namespace TemplateCascade

/-!
# Position trees

A tree of positions is kept as the ancestors of every position, from the root down to its parent.
The root has none.  The ancestors of any other position are those of its parent with the parent behind
them, and the parent is a position of the tree too; this is part of the type.  It follows that ancestors
never contain the position itself (`PositionTree.not_mem_of_chain`), so every path upwards ends at the
root.
-/

/-- A node as it is stored: the ancestors are for readers of the store and are worked out anew. -/
structure TreeNode where
  id : Position
  parent : Option Position
  ancestors : List Position
deriving DecidableEq, Repr

/-- Why a tree cannot be loaded or changed. -/
inductive TreeError where
  | unknownPosition (tree : TreeKind) (id : Position)
  | duplicatePosition (tree : TreeKind) (id : Position)
  /-- The parent is in the subtree of the position that is to move there. -/
  | cycle (tree : TreeKind) (id parent : Position)
  | rootImmutable (tree : TreeKind)
  | orphan (tree : TreeKind) (id : Position)
deriving DecidableEq, Repr

def TreeError.message : TreeError → String
  | .unknownPosition tree id => tree.text ++ " position " ++ toString id ++ " does not exist"
  | .duplicatePosition tree id => tree.text ++ " position " ++ toString id ++ " already exists"
  | .cycle tree id parent =>
      tree.text ++ " position " ++ toString parent ++ " cannot become the parent of " ++
        toString id ++ ": it is in " ++ toString id ++ "'s subtree"
  | .rootImmutable tree => "the root " ++ tree.text ++ " position cannot be moved or removed"
  | .orphan tree id =>
      tree.text ++ " position " ++ toString id ++ " is not connected to the root"

/-- A tree of positions. -/
structure PositionTree where
  kind : TreeKind
  /-- The ancestors of every position, the root first. -/
  chains : Std.ExtTreeMap Position (List Position)
  root_chain : chains[rootPosition]? = some []
  chain_eq : ∀ id chain, chains[id]? = some chain → id ≠ rootPosition →
    ∃ parent up, chains[parent]? = some up ∧ chain = up ++ [parent]

namespace PositionTree

/-- What has a value in a map is in it. -/
theorem mem_of_getElem? {Entry : Type} {entries : Std.ExtTreeMap Position Entry} {id : Position}
    {entry : Entry} (found : entries[id]? = some entry) : id ∈ entries := by
  rw [Std.ExtTreeMap.mem_iff_isSome_getElem?, found]
  rfl

theorem ext {left right : PositionTree} (sameKind : left.kind = right.kind)
    (sameChains : left.chains = right.chains) : left = right := by
  cases left
  cases right
  simp_all

/-- The tree with nothing but its root. -/
def rootOnly (kind : TreeKind) : PositionTree where
  kind := kind
  chains := (∅ : Std.ExtTreeMap Position (List Position)).insert rootPosition []
  root_chain := by simp
  chain_eq := by
    intro id chain found other
    rw [Std.ExtTreeMap.getElem?_insert] at found
    split at found
    · next same => exact absurd (Std.compare_eq_iff_eq.mp same).symm other
    · simp at found

def contains (tree : PositionTree) (id : Position) : Bool :=
  tree.chains.contains id

def size (tree : PositionTree) : Nat :=
  tree.chains.size

/-- The ancestors of a position from the root down to its parent. -/
def ancestors? (tree : PositionTree) (id : Position) : Option (List Position) :=
  tree.chains[id]?

/-- The ancestors of a position, or the error of asking for a position that is not there. -/
def ancestors (tree : PositionTree) (id : Position) : Except TreeError (List Position) :=
  match tree.ancestors? id with
  | some chain => .ok chain
  | none => .error (.unknownPosition tree.kind id)

/-- The ancestors of a position and then the position itself. -/
def chain (tree : PositionTree) (id : Position) : Except TreeError (List Position) :=
  (tree.ancestors id).map fun up => up ++ [id]

/-- The parent of a position; the root has none. -/
def parent? (tree : PositionTree) (id : Position) : Option Position :=
  (tree.ancestors? id).bind List.getLast?

/-- Whether a position is another one or above it. -/
def isAncestorOrSelf (tree : PositionTree) (ancestor id : Position) : Bool :=
  ancestor == id || (tree.ancestors? id).any fun up => up.contains ancestor

/-- The children of a position in ascending order. -/
def children (tree : PositionTree) (id : Position) : List Position :=
  (tree.chains.filter fun _ up => up.getLast? == some id).keys

/-- Some positions, their children, the children of those and so on, for so many generations. -/
def generations (tree : PositionTree) : Nat → List Position → List Position
  | 0, _ => []
  | _, [] => []
  | count + 1, level => level ++ tree.generations count (level.flatMap tree.children)

/-- A position and everything below it, generation by generation. -/
def subtree (tree : PositionTree) (id : Position) : List Position :=
  if tree.contains id then tree.generations tree.size [id] else []

/-- Everything below a position, generation by generation. -/
def descendants (tree : PositionTree) (id : Position) : List Position :=
  (tree.subtree id).drop 1

/-- All positions, every parent before its children. -/
def breadthFirst (tree : PositionTree) : List Position :=
  tree.subtree rootPosition

/-- All nodes as they are stored, every parent before its children. -/
def nodes (tree : PositionTree) : List TreeNode :=
  tree.breadthFirst.map fun id =>
    ⟨id, tree.parent? id, (tree.ancestors? id).getD []⟩

/-! ## What the ancestors tell -/

/-- The ancestors of a position are in the tree, and have fewer ancestors than it has. -/
theorem chain_of_mem (tree : PositionTree) {id : Position} {up : List Position}
    (found : tree.chains[id]? = some up) {ancestor : Position} (member : ancestor ∈ up) :
    ∃ higher, tree.chains[ancestor]? = some higher ∧ higher.length < up.length := by
  generalize bound : up.length = count
  induction count generalizing id up with
  | zero =>
      rw [List.length_eq_zero_iff.mp bound] at member
      exact absurd member List.not_mem_nil
  | succ count ih =>
      have notRoot : id ≠ rootPosition := by
        intro same
        rw [same, tree.root_chain, Option.some.injEq] at found
        rw [← found] at member
        exact absurd member List.not_mem_nil
      obtain ⟨parent, higher, parentFound, rfl⟩ := tree.chain_eq id up found notRoot
      have length : higher.length = count := by simpa using bound
      rcases List.mem_append.mp member with above | last
      · obtain ⟨top, topFound, shorter⟩ := ih parentFound above length
        exact ⟨top, topFound, by omega⟩
      · rw [List.mem_singleton] at last
        exact ⟨higher, last ▸ parentFound, by omega⟩

/-- No position is its own ancestor. -/
theorem not_mem_of_chain (tree : PositionTree) {id : Position} {up : List Position}
    (found : tree.chains[id]? = some up) : id ∉ up := by
  intro member
  obtain ⟨again, againFound, shorter⟩ := tree.chain_of_mem found member
  rw [found, Option.some.injEq] at againFound
  rw [againFound] at shorter
  exact Nat.lt_irrefl _ shorter

/-! ## Changing a tree -/

/-- Add a position under a parent. -/
def insert (tree : PositionTree) (id parent : Position) : Except TreeError PositionTree :=
  if present : id ∈ tree.chains then .error (.duplicatePosition tree.kind id)
  else
    match found : tree.chains[parent]? with
    | none => .error (.unknownPosition tree.kind parent)
    | some up =>
        .ok
          { kind := tree.kind
            chains := tree.chains.insert id (up ++ [parent])
            root_chain := by
              have rootPresent : rootPosition ∈ tree.chains :=
                mem_of_getElem? tree.root_chain
              have different : compare id rootPosition ≠ .eq := by
                intro same
                exact present (Std.compare_eq_iff_eq.mp same ▸ rootPresent)
              rw [Std.ExtTreeMap.getElem?_insert, if_neg different]
              exact tree.root_chain
            chain_eq := by
              intro other chain otherFound notRoot
              have keeps : ∀ {position : Position} {higher : List Position}, tree.chains[position]? = some higher →
                  (tree.chains.insert id (up ++ [parent]))[position]? = some higher := by
                intro position higher positionFound
                have different : compare id position ≠ .eq := by
                  intro same
                  exact present (Std.compare_eq_iff_eq.mp same ▸ mem_of_getElem? positionFound)
                rw [Std.ExtTreeMap.getElem?_insert, if_neg different]
                exact positionFound
              rw [Std.ExtTreeMap.getElem?_insert] at otherFound
              split at otherFound
              · rw [Option.some.injEq] at otherFound
                exact ⟨parent, up, keeps found, otherFound.symm⟩
              · obtain ⟨next, higher, nextFound, same⟩ := tree.chain_eq other chain otherFound notRoot
                exact ⟨next, higher, keeps nextFound, same⟩ }

/-- A move of a position under a new parent. -/
structure Move where
  id : Position
  oldAncestors : List Position
  newAncestors : List Position
  /-- The position and everything below it, generation by generation. -/
  subtree : List Position
deriving DecidableEq, Repr

/-- The ancestors of a position after another one has got new ancestors. -/
def movedChain (id : Position) (target : List Position) (position : Position)
    (up : List Position) : List Position :=
  if position = id then target
  else if id ∈ up then target ++ up.dropWhile (· != id)
  else up

/-- The part of a list from an element on, when the element is new behind the list. -/
theorem dropWhile_append_self {id : Position} {up : List Position} (absent : id ∉ up) :
    (up ++ [id]).dropWhile (· != id) = [id] := by
  induction up with
  | nil => simp
  | cons head tail ih =>
      rw [List.mem_cons, not_or] at absent
      simp [Ne.symm absent.1, ih absent.2]

/-- The part of a list from an element on, when the element is in it already. -/
theorem dropWhile_append_of_mem {id : Position} {up : List Position} (member : id ∈ up)
    (last : Position) :
    (up ++ [last]).dropWhile (· != id) = up.dropWhile (· != id) ++ [last] := by
  induction up with
  | nil => simp at member
  | cons head tail ih =>
      by_cases same : head = id
      · simp [same]
      · have below : id ∈ tail := by
          rcases List.mem_cons.mp member with here | below
          · exact absurd here.symm same
          · exact below
        simp [same, ih below]

/-- Moving a subtree keeps every position's ancestors those of its parent and the parent. -/
theorem movedChain_eq (tree : PositionTree) {id parent : Position} {upParent : List Position}
    (parentFound : tree.chains[parent]? = some upParent) (notParent : parent ≠ id)
    (notAbove : id ∉ upParent) {position : Position} {up : List Position}
    (found : tree.chains[position]? = some up) (notRoot : position ≠ rootPosition) :
    ∃ next higher, tree.chains[next]? = some higher ∧
      movedChain id (upParent ++ [parent]) position up =
        movedChain id (upParent ++ [parent]) next higher ++ [next] := by
  by_cases same : position = id
  · refine ⟨parent, upParent, parentFound, ?_⟩
    simp [movedChain, same, notParent, notAbove]
  · obtain ⟨next, higher, nextFound, rfl⟩ := tree.chain_eq position up found notRoot
    refine ⟨next, higher, nextFound, ?_⟩
    by_cases isNext : next = id
    · have absent : id ∉ higher := isNext ▸ tree.not_mem_of_chain nextFound
      have dropped := dropWhile_append_self absent
      simp [movedChain, same, isNext, dropped]
    · by_cases member : id ∈ higher
      · have dropped := dropWhile_append_of_mem member next
        simp [movedChain, same, isNext, member, dropped]
      · have absent : id ∉ higher ++ [next] := by
          simp [member, Ne.symm isNext]
        simp [movedChain, same, isNext, member, absent]

/-- Move a position with everything below it under a parent that is not below it. -/
def setParent (tree : PositionTree) (id parent : Position) :
    Except TreeError (PositionTree × Move) :=
  if isRoot : id = rootPosition then .error (.rootImmutable tree.kind)
  else
    match tree.chains[id]? with
    | none => .error (.unknownPosition tree.kind id)
    | some up =>
        match parentFound : tree.chains[parent]? with
        | none => .error (.unknownPosition tree.kind parent)
        | some upParent =>
            if below : parent = id ∨ id ∈ upParent then .error (.cycle tree.kind id parent)
            else
              let target := upParent ++ [parent]
              let moved : PositionTree :=
                { kind := tree.kind
                  chains := tree.chains.map (movedChain id target)
                  root_chain := by
                    rw [Std.ExtTreeMap.getElem?_map, tree.root_chain]
                    simp [movedChain, Ne.symm isRoot]
                  chain_eq := by
                    intro position chain chainFound notRoot
                    rw [Std.ExtTreeMap.getElem?_map, Option.map_eq_some_iff] at chainFound
                    obtain ⟨old, oldFound, rfl⟩ := chainFound
                    rw [not_or] at below
                    obtain ⟨next, higher, nextFound, same⟩ :=
                      tree.movedChain_eq parentFound below.1 below.2 oldFound notRoot
                    exact ⟨next, _, by rw [Std.ExtTreeMap.getElem?_map, nextFound]; rfl, same⟩ }
              .ok (moved, ⟨id, up, target, moved.subtree id⟩)

/-- The removal of a position. -/
structure Removal where
  id : Position
  parent : Position
  /-- The former children, which are now children of the parent. -/
  children : List Position
  /-- Every position whose ancestors have changed. -/
  moved : List Position
deriving DecidableEq, Repr

/-- Leaving a position out keeps every position's ancestors those of its parent and the parent. -/
theorem removedChain_eq (tree : PositionTree) {id : Position} (idNotRoot : id ≠ rootPosition)
    {position : Position} {up : List Position} (found : tree.chains[position]? = some up)
    (notRoot : position ≠ rootPosition) :
    ∃ next higher, next ≠ id ∧ tree.chains[next]? = some higher ∧
      up.filter (· != id) = higher.filter (· != id) ++ [next] := by
  obtain ⟨next, higher, nextFound, rfl⟩ := tree.chain_eq position up found notRoot
  by_cases isNext : next = id
  · subst isNext
    obtain ⟨above, top, aboveFound, rfl⟩ := tree.chain_eq next higher nextFound idNotRoot
    have different : above ≠ next := by
      intro same
      exact tree.not_mem_of_chain nextFound (by simp [same])
    exact ⟨above, top, different, aboveFound, by simp [different]⟩
  · exact ⟨next, higher, isNext, nextFound, by simp [isNext]⟩

/-- Remove a position; its children move to its parent. -/
def remove (tree : PositionTree) (id : Position) : Except TreeError (PositionTree × Removal) :=
  if isRoot : id = rootPosition then .error (.rootImmutable tree.kind)
  else
    match tree.parent? id with
    | none => .error (.unknownPosition tree.kind id)
    | some parent =>
        let children := tree.children id
        let left : PositionTree :=
          { kind := tree.kind
            chains := (tree.chains.erase id).map fun _ up => up.filter (· != id)
            root_chain := by
              have different : compare id rootPosition ≠ .eq := by
                intro same
                exact isRoot (Std.compare_eq_iff_eq.mp same)
              rw [Std.ExtTreeMap.getElem?_map, Std.ExtTreeMap.getElem?_erase, if_neg different,
                tree.root_chain]
              rfl
            chain_eq := by
              intro position chain chainFound notRoot
              rw [Std.ExtTreeMap.getElem?_map, Option.map_eq_some_iff] at chainFound
              obtain ⟨old, oldFound, rfl⟩ := chainFound
              rw [Std.ExtTreeMap.getElem?_erase] at oldFound
              split at oldFound
              · simp at oldFound
              · obtain ⟨next, higher, different, nextFound, same⟩ :=
                  tree.removedChain_eq isRoot oldFound notRoot
                have other : compare id next ≠ .eq := by
                  intro equal
                  exact different (Std.compare_eq_iff_eq.mp equal).symm
                refine ⟨next, _, ?_, same⟩
                rw [Std.ExtTreeMap.getElem?_map, Std.ExtTreeMap.getElem?_erase, if_neg other,
                  nextFound]
                rfl }
        .ok (left, ⟨id, parent, children, children.flatMap left.subtree⟩)

/-! ## Loading a tree -/

/-- The parents that some nodes give, unless a node is in itself impossible or comes twice. -/
def parentsOf (kind : TreeKind) (nodes : List TreeNode) :
    Except TreeError (Std.ExtTreeMap Position Position) :=
  nodes.foldlM (fun parents node =>
    match node.parent with
    | none =>
        if node.id = rootPosition then .ok parents else .error (.orphan kind node.id)
    | some parent =>
        if node.id = rootPosition then .error (.rootImmutable kind)
        else if parents.contains node.id then .error (.duplicatePosition kind node.id)
        else .ok (parents.insert node.id parent)) ∅

/-- The ancestors of a position by its parents, if the root is at most so many steps away. -/
def climb? (parents : Std.ExtTreeMap Position Position) (steps : Nat) (id : Position) :
    Option (List Position) :=
  if id = rootPosition then some []
  else
    match steps with
    | 0 => none
    | steps + 1 =>
        parents[id]?.bind fun parent => (climb? parents steps parent).map fun up => up ++ [parent]

/-- More steps reach the root as well. -/
theorem climb?_succ {parents : Std.ExtTreeMap Position Position} {steps : Nat} {id : Position}
    {up : List Position} (found : climb? parents steps id = some up) :
    climb? parents (steps + 1) id = some up := by
  induction steps generalizing id up with
  | zero =>
      unfold climb? at found ⊢
      split
      · next isRoot => simpa [isRoot] using found
      · next notRoot => simp [notRoot] at found
  | succ steps ih =>
      unfold climb? at found ⊢
      split
      · next isRoot => simpa [isRoot] using found
      · next notRoot =>
          simp only [notRoot, if_false, Option.bind_eq_some_iff, Option.map_eq_some_iff] at found ⊢
          obtain ⟨parent, parentFound, higher, climbed, same⟩ := found
          exact ⟨parent, parentFound, higher, ih climbed, same⟩

/-- The ancestors of every position that can reach the root by the given parents. -/
def chainsOf (parents : Std.ExtTreeMap Position Position) :
    Std.ExtTreeMap Position (List Position) :=
  (parents.filterMap fun id _ => climb? parents parents.size id).insert rootPosition []

/-- The positions that can reach the root by the given parents. -/
def ofParents (kind : TreeKind) (parents : Std.ExtTreeMap Position Position) : PositionTree where
  kind := kind
  chains := chainsOf parents
  root_chain := by simp [chainsOf]
  chain_eq := by
    intro id chain found notRoot
    have other : compare rootPosition id ≠ .eq := by
      intro same
      exact notRoot (Std.compare_eq_iff_eq.mp same).symm
    rw [chainsOf, Std.ExtTreeMap.getElem?_insert, if_neg other,
      Std.ExtTreeMap.getElem?_filterMap', Option.bind_eq_some_iff] at found
    obtain ⟨_, _, climbed⟩ := found
    cases steps : parents.size with
    | zero =>
        rw [steps] at climbed
        simp [climb?, notRoot] at climbed
    | succ count =>
        rw [steps] at climbed
        rw [climb?, if_neg notRoot] at climbed
        simp only [Option.bind_eq_some_iff, Option.map_eq_some_iff] at climbed
        obtain ⟨parent, _, up, higher, rfl⟩ := climbed
        refine ⟨parent, up, ?_, rfl⟩
        rw [chainsOf, Std.ExtTreeMap.getElem?_insert]
        split
        · next same =>
            rw [climb?.eq_def, if_pos (Std.compare_eq_iff_eq.mp same).symm] at higher
            exact higher
        · next different =>
            have parentNotRoot : parent ≠ rootPosition := by
              intro same
              exact different (Std.compare_eq_iff_eq.mpr same.symm)
            have climbedAll : climb? parents parents.size parent = some up := by
              rw [steps]
              exact climb?_succ higher
            rw [Std.ExtTreeMap.getElem?_filterMap', climbedAll]
            cases present : parents[parent]? with
            | some _ => rfl
            | none =>
                cases count with
                | zero => simp [climb?, parentNotRoot] at higher
                | succ _ => simp [climb?, parentNotRoot, present] at higher

/--
The tree of some stored nodes in any order.  The root may be left out.  Of several positions at fault
the one with the smallest number is reported.
-/
def ofNodes (kind : TreeKind) (nodes : List TreeNode) : Except TreeError PositionTree := do
  let parents ← parentsOf kind nodes
  let tree := ofParents kind parents
  let unknown := fun parent => parent != rootPosition && !parents.contains parent
  match parents.toList.find? fun entry => unknown entry.2 with
  | some (id, _) => .error (.orphan kind id)
  | none =>
      match parents.toList.find? fun entry => !tree.contains entry.1 with
      | some (id, parent) => .error (.cycle kind id parent)
      | none => .ok tree

end PositionTree

end TemplateCascade

import Mathlib
import TemplateCascade.Proofs.Entries
import TemplateCascade.Proofs.Inheritance.Paths
import TemplateCascade.Proofs.Inheritance.Reshaping
import TemplateCascade.Proofs.Outcomes

namespace TemplateCascade
namespace PositionTree

/-!
# Loading what has been stored

A tree is loaded from stored nodes exactly if it has the positions of the nodes, and the root, and every
node names the parent that its position has in the tree.  The ancestors that are stored with a node are
not read.

The parents are collected first, and then every position climbs by them to the root.
-/

/-- The nodes of a tree, each under its own position. -/
structure StoredAs (nodes : Std.ExtTreeMap Position TreeNode) (tree : PositionTree) : Prop where
  parent_eq : ∀ (id : Position) (node : TreeNode), nodes[id]? = some node →
    node.parent = tree.parent? id
  contains_iff : ∀ id, tree.contains id = true ↔ id = rootPosition ∨ id ∈ nodes

/-! ## Collecting the parents -/

/-- What one node adds to the parents. -/
def collect (kind : TreeKind) (parents : Std.ExtTreeMap Position Position) (node : TreeNode) :
    Except TreeError (Std.ExtTreeMap Position Position) :=
  match node.parent with
  | none =>
      if node.id = rootPosition then .ok parents else .error (.orphan kind node.id)
  | some parent =>
      if node.id = rootPosition then .error (.rootImmutable kind)
      else if parents.contains node.id then .error (.duplicatePosition kind node.id)
      else .ok (parents.insert node.id parent)

theorem parentsOf_eq (kind : TreeKind) (nodes : List TreeNode) :
    parentsOf kind nodes = nodes.foldlM (collect kind) ∅ := rfl

theorem collect_ok {kind : TreeKind} {parents collected : Std.ExtTreeMap Position Position}
    {node : TreeNode} (added : collect kind parents node = .ok collected) :
    (node.parent = none ↔ node.id = rootPosition) ∧ ∀ (id parent : Position),
      collected[id]? = some parent ↔
        parents[id]? = some parent ∨ (node.id = id ∧ node.parent = some parent) := by
  unfold collect at added
  cases isParent : node.parent with
  | none =>
      simp only [isParent] at added
      split at added
      · next isRoot =>
          rw [Except.ok.injEq] at added
          subst added
          simp [isRoot]
      · cases added
  | some above =>
      simp only [isParent] at added
      split at added
      · cases added
      · next notRoot =>
          split at added
          · cases added
          · next absent =>
              rw [Except.ok.injEq] at added
              subst added
              refine ⟨by simp [notRoot], fun id parent => ?_⟩
              rw [Bool.not_eq_true, Std.ExtTreeMap.contains_eq_isSome_getElem?,
                Option.isSome_eq_false_iff, Option.isNone_iff_eq_none] at absent
              rw [getElem?_insert_eq]
              by_cases same : id = node.id
              · subst same
                simp [absent]
              · simp [same, Ne.symm same]

theorem foldlM_collect_ok {kind : TreeKind} {nodes : List TreeNode}
    {parents collected : Std.ExtTreeMap Position Position}
    (added : nodes.foldlM (collect kind) parents = .ok collected) :
    (∀ node ∈ nodes, node.parent = none ↔ node.id = rootPosition) ∧ ∀ (id parent : Position),
      collected[id]? = some parent ↔
        parents[id]? = some parent ∨ ∃ node ∈ nodes, node.id = id ∧ node.parent = some parent := by
  induction nodes generalizing parents with
  | nil =>
      cases added
      simp
  | cons node rest inductionHypothesis =>
      rw [List.foldlM_cons] at added
      rcases exists_of_bind_eq_ok added with ⟨next, first, added⟩
      rcases collect_ok first with ⟨fits, nextIff⟩
      rcases inductionHypothesis added with ⟨restFits, collectedIff⟩
      refine ⟨?_, fun id parent => ?_⟩
      · rw [List.forall_mem_cons]
        exact ⟨fits, restFits⟩
      · simp only [collectedIff, nextIff, or_assoc, List.mem_cons, exists_eq_or_imp]

/-- Nodes that are possible by themselves, and whose positions are different apart from the root, have parents
to collect. -/
theorem exists_foldlM_collect (kind : TreeKind) {nodes : List TreeNode}
    (parents : Std.ExtTreeMap Position Position)
    (fits : ∀ node ∈ nodes, node.parent = none ↔ node.id = rootPosition)
    (distinct : ((nodes.map TreeNode.id).filter (· != rootPosition)).Nodup)
    (areNew : ∀ node ∈ nodes, node.id ≠ rootPosition → parents[node.id]? = none) :
    ∃ collected, nodes.foldlM (collect kind) parents = .ok collected := by
  induction nodes generalizing parents with
  | nil => exact ⟨parents, rfl⟩
  | cons node rest inductionHypothesis =>
      rw [List.forall_mem_cons] at fits areNew
      rw [List.map_cons] at distinct
      have restDistinct : ((rest.map TreeNode.id).filter (· != rootPosition)).Nodup :=
        distinct.sublist ((List.sublist_cons_self node.id _).filter _)
      cases isParent : node.parent with
      | none =>
          have first : collect kind parents node = .ok parents := by
            rw [collect, isParent]
            exact if_pos (fits.1.mp isParent)
          rcases inductionHypothesis parents fits.2 restDistinct areNew.2 with ⟨collected, added⟩
          exact ⟨collected, by rw [List.foldlM_cons, first]; exact added⟩
      | some parent =>
          have notRoot : node.id ≠ rootPosition := by
            intro isRoot
            rw [fits.1.mpr isRoot] at isParent
            cases isParent
          have absent : parents.contains node.id = false := by
            rw [Std.ExtTreeMap.contains_eq_isSome_getElem?, areNew.1 notRoot]
            rfl
          have first : collect kind parents node = .ok (parents.insert node.id parent) := by
            simp only [collect, isParent, if_neg notRoot, absent, Bool.false_eq_true, if_false]
          rw [List.filter_cons_of_pos (by simpa using notRoot), List.nodup_cons] at distinct
          have restNew : ∀ other ∈ rest, other.id ≠ rootPosition →
              (parents.insert node.id parent)[other.id]? = none := by
            intro other member otherNotRoot
            rw [getElem?_insert_eq, if_neg, areNew.2 other member otherNotRoot]
            intro same
            refine distinct.1 (List.mem_filter.mpr ⟨same ▸ List.mem_map_of_mem member, ?_⟩)
            simpa using notRoot
          rcases inductionHypothesis _ fits.2 restDistinct restNew with ⟨collected, added⟩
          exact ⟨collected, by rw [List.foldlM_cons, first]; exact added⟩

/-- Nodes have parents to collect only if no position but the root comes twice. -/
theorem distinct_of_foldlM_collect {kind : TreeKind} {nodes : List TreeNode}
    {parents collected : Std.ExtTreeMap Position Position}
    (added : nodes.foldlM (collect kind) parents = .ok collected) :
    ((nodes.map TreeNode.id).filter (· != rootPosition)).Nodup ∧
      ∀ node ∈ nodes, node.id ≠ rootPosition → parents[node.id]? = none := by
  induction nodes generalizing parents with
  | nil => simp
  | cons node rest inductionHypothesis =>
      rw [List.foldlM_cons] at added
      rcases exists_of_bind_eq_ok added with ⟨next, first, added⟩
      rcases inductionHypothesis added with ⟨distinct, areNew⟩
      rcases collect_ok first with ⟨fits, nextIff⟩
      have restNew : ∀ other ∈ rest, other.id ≠ rootPosition → parents[other.id]? = none := by
        intro other member notRoot
        have isNew := areNew other member notRoot
        rw [Option.eq_none_iff_forall_ne_some] at isNew ⊢
        exact fun parent known => isNew parent ((nextIff other.id parent).mpr (Or.inl known))
      rw [List.map_cons, List.forall_mem_cons]
      by_cases isRoot : node.id = rootPosition
      · rw [List.filter_cons_of_neg (by simpa using isRoot)]
        exact ⟨distinct, fun notRoot => absurd isRoot notRoot, restNew⟩
      · rcases Option.ne_none_iff_exists'.mp (mt fits.mp isRoot) with ⟨parent, isParent⟩
        have entered := (nextIff node.id parent).mpr (Or.inr ⟨rfl, isParent⟩)
        rw [List.filter_cons_of_pos (by simpa using isRoot), List.nodup_cons]
        refine ⟨⟨fun again => ?_, distinct⟩, fun _ => ?_, restNew⟩
        · rcases List.mem_map.mp (List.mem_filter.mp again).1 with ⟨other, member, same⟩
          have isNew := areNew other member (same.trans_ne isRoot)
          rw [same, entered] at isNew
          cases isNew
        · rw [collect, isParent] at first
          simp only [if_neg isRoot] at first
          split at first
          · cases first
          · next absent =>
              rwa [Bool.not_eq_true, Std.ExtTreeMap.contains_eq_isSome_getElem?,
                Option.isSome_eq_false_iff, Option.isNone_iff_eq_none] at absent

/-! ## Climbing to the root -/

/-- The parents of a tree by position. -/
def AreParents (parents : Std.ExtTreeMap Position Position) (tree : PositionTree) : Prop :=
  ∀ id : Position, parents[id]? = tree.parent? id

theorem chainsOf_getElem? (parents : Std.ExtTreeMap Position Position) (id : Position) :
    (chainsOf parents)[id]? =
      if id = rootPosition then some []
      else parents[id]?.bind fun _ => climb? parents parents.size id := by
  rw [chainsOf, getElem?_insert_eq, Std.ExtTreeMap.getElem?_filterMap']

/-- The parents of a tree lead back to the tree. -/
theorem ofParents_eq {parents : Std.ExtTreeMap Position Position} {tree : PositionTree}
    (areParents : AreParents parents tree) : ofParents tree.kind parents = tree := by
  refine PositionTree.ext rfl (Std.ExtTreeMap.ext_getElem? fun {id} => ?_)
  change (chainsOf parents)[id]? = _
  rw [chainsOf_getElem?]
  split
  · next isRoot => rw [isRoot, tree.root_chain]
  · next notRoot =>
      rw [areParents]
      rcases Option.eq_none_or_eq_some tree.chains[id]? with missing | ⟨up, found⟩
      · have noParent : tree.parent? id = none := by
          rw [parent?, ancestors?, missing, Option.bind_none]
        rw [noParent, missing, Option.bind_none]
      · rcases exists_parent? (contains_iff.mpr ⟨up, found⟩) notRoot with ⟨parent, isParent⟩
        have path : ParentTable.Path (fun id => parents[id]?) id up := by
          rw [funext areParents]
          exact chain_eq_some_iff_path.mp found
        have rootless := (areParents rootPosition).trans tree.parent?_root
        rw [isParent, Option.bind_some, climb?_of_path rootless path (length_path_le_size rootless path),
          found]

/-- A position that reaches the root by the given parents has its parent in the tree. -/
theorem parent?_ofParents {kind : TreeKind} {parents : Std.ExtTreeMap Position Position}
    {id parent : Position} (present : (ofParents kind parents).contains id = true)
    (notRoot : id ≠ rootPosition) (isParent : parents[id]? = some parent) :
    (ofParents kind parents).parent? id = some parent := by
  rcases contains_iff.mp present with ⟨up, found⟩
  rw [parent?, ancestors?, found, Option.bind_some]
  change (chainsOf parents)[id]? = some up at found
  rw [chainsOf_getElem?, if_neg notRoot, isParent, Option.bind_some, climb?.eq_def,
    if_neg notRoot] at found
  cases steps : parents.size with
  | zero => rw [steps] at found; cases found
  | succ count =>
      simp only [steps, isParent, Option.bind_some, Option.map_eq_some_iff] at found
      rcases found with ⟨higher, _, rfl⟩
      simp

/-- When every position with a parent reaches the root, the parents are those of the tree that comes of them. -/
theorem areParents_ofParents {kind : TreeKind} {parents : Std.ExtTreeMap Position Position}
    (notRoot : ∀ id parent : Position, parents[id]? = some parent → id ≠ rootPosition)
    (reached : ∀ id parent : Position, parents[id]? = some parent →
      (ofParents kind parents).contains id = true) : AreParents parents (ofParents kind parents) := by
  refine fun id => Option.ext fun parent => ⟨fun isGiven => ?_, fun isParent => ?_⟩
  · exact parent?_ofParents (reached id parent isGiven) (notRoot id parent isGiven) isGiven
  · rcases contains_iff.mp (contains_of_parent? isParent) with ⟨up, found⟩
    have climbed : (chainsOf parents)[id]? = some up := found
    rw [chainsOf_getElem?, if_neg (ne_root_of_parent? isParent), Option.bind_eq_some_iff] at climbed
    rcases climbed with ⟨given, isGiven, _⟩
    have same := parent?_ofParents (reached id given isGiven) (notRoot id given isGiven) isGiven
    rwa [isParent.symm.trans same]

/-! ## Loading -/

section

variable {kind : TreeKind} {tree : PositionTree}

/-- Nodes for a tree: one for each position but the root, with the parent that it has.  The root has no parent.
Whether it is listed, and how often, does not matter. -/
structure Listed (nodes : List TreeNode) (tree : PositionTree) : Prop where
  parentless_iff : ∀ node ∈ nodes, node.parent = none ↔ node.id = rootPosition
  distinct : ((nodes.map TreeNode.id).filter (· != rootPosition)).Nodup
  parent?_iff : ∀ id parent, tree.parent? id = some parent ↔
    ∃ node ∈ nodes, node.id = id ∧ node.parent = some parent

/-- Nothing is wrong with the parents of a tree. -/
theorem ofNodes_of_areParents {list : List TreeNode} {parents : Std.ExtTreeMap Position Position}
    (collected : list.foldlM (collect tree.kind) ∅ = .ok parents)
    (areParents : AreParents parents tree) : ofNodes tree.kind list = .ok tree := by
  have noOrphan : parents.toList.find? (fun entry =>
      entry.2 != rootPosition && !parents.contains entry.2) = none := by
    rw [List.find?_eq_none]
    rintro ⟨id, parent⟩ member
    have isParent := Std.ExtTreeMap.mem_toList_iff_getElem?_eq_some.mp member
    rw [areParents] at isParent
    by_cases isRoot : parent = rootPosition
    · simp [isRoot]
    · rcases exists_parent? (contains_parent isParent) isRoot with ⟨above, isAbove⟩
      rw [← areParents] at isAbove
      simp [Std.ExtTreeMap.contains_eq_isSome_getElem?, isAbove]
  have noCycle : parents.toList.find? (fun entry => !tree.contains entry.1) = none := by
    rw [List.find?_eq_none]
    rintro ⟨id, parent⟩ member
    have isParent := Std.ExtTreeMap.mem_toList_iff_getElem?_eq_some.mp member
    rw [areParents] at isParent
    simp [contains_of_parent? isParent]
  unfold ofNodes
  rw [parentsOf_eq, collected]
  simp only [bind, Except.bind, noOrphan, ofParents_eq areParents, noCycle]

/-- Loading collects the parents, and every position with a parent reaches the root. -/
theorem exists_parents_of_ofNodes {list : List TreeNode} (loaded : ofNodes kind list = .ok tree) :
    ∃ parents, list.foldlM (collect kind) ∅ = .ok parents ∧ tree = ofParents kind parents ∧
      ∀ id parent : Position, parents[id]? = some parent → tree.contains id = true := by
  unfold ofNodes at loaded
  rw [parentsOf_eq] at loaded
  cases collected : list.foldlM (collect kind) ∅ with
  | error error =>
      rw [collected] at loaded
      cases loaded
  | ok parents =>
      rw [collected] at loaded
      simp only [bind, Except.bind] at loaded
      split at loaded
      · cases loaded
      · split at loaded
        · cases loaded
        · next noCycle =>
            rw [Except.ok.injEq] at loaded
            subst loaded
            refine ⟨parents, rfl, rfl, fun id parent found => ?_⟩
            have member := Std.ExtTreeMap.mem_toList_iff_getElem?_eq_some.mpr found
            simpa using List.find?_eq_none.mp noCycle _ member

/-- The parents that are collected from nodes, starting from none. -/
theorem collected_iff {nodes : List TreeNode} {parents : Std.ExtTreeMap Position Position}
    (collected : nodes.foldlM (collect kind) ∅ = .ok parents) (id parent : Position) :
    parents[id]? = some parent ↔ ∃ node ∈ nodes, node.id = id ∧ node.parent = some parent := by
  rw [(foldlM_collect_ok collected).2 id parent, or_iff_right]
  simp

theorem ne_root_of_collected {nodes : List TreeNode} {parents : Std.ExtTreeMap Position Position}
    (collected : nodes.foldlM (collect kind) ∅ = .ok parents) {id parent : Position}
    (isParent : parents[id]? = some parent) : id ≠ rootPosition := by
  rcases (collected_iff collected id parent).mp isParent with ⟨node, member, rfl, isGiven⟩
  intro isRoot
  rw [((foldlM_collect_ok collected).1 node member).mpr isRoot] at isGiven
  cases isGiven

/-- Nodes are loaded as a tree exactly if they are nodes for it. -/
theorem ofNodes_eq_ok_iff {nodes : List TreeNode} :
    ofNodes kind nodes = .ok tree ↔ tree.kind = kind ∧ Listed nodes tree := by
  constructor
  · intro loaded
    rcases exists_parents_of_ofNodes loaded with ⟨parents, collected, rfl, reached⟩
    have areParents := areParents_ofParents (fun _ _ => ne_root_of_collected collected) reached
    refine ⟨rfl, (foldlM_collect_ok collected).1, (distinct_of_foldlM_collect collected).1, ?_⟩
    intro id parent
    rw [← areParents, collected_iff collected]
  · rintro ⟨rfl, listed⟩
    rcases exists_foldlM_collect tree.kind ∅ listed.parentless_iff listed.distinct (by simp) with
      ⟨parents, collected⟩
    refine ofNodes_of_areParents collected fun id => Option.ext fun parent => ?_
    rw [collected_iff collected, listed.parent?_iff]

/-- The positions of a tree are those of its nodes, and the root. -/
theorem Listed.contains_iff {nodes : List TreeNode} (listed : Listed nodes tree) (id : Position) :
    tree.contains id = true ↔ id = rootPosition ∨ ∃ node ∈ nodes, node.id = id := by
  constructor
  · refine fun present => or_iff_not_imp_left.mpr fun notRoot => ?_
    rcases exists_parent? present notRoot with ⟨parent, isParent⟩
    rcases (listed.parent?_iff id parent).mp isParent with ⟨node, member, isId, _⟩
    exact ⟨node, member, isId⟩
  · rintro (rfl | ⟨node, member, rfl⟩)
    · exact tree.contains_root
    · cases isParent : node.parent with
      | none =>
          rw [(listed.parentless_iff node member).mp isParent]
          exact tree.contains_root
      | some parent =>
          exact contains_of_parent? ((listed.parent?_iff node.id parent).mpr ⟨node, member, rfl, isParent⟩)

/-- Every node has the parent that its position has in the tree. -/
theorem Listed.parent?_eq {nodes : List TreeNode} (listed : Listed nodes tree) {node : TreeNode}
    (member : node ∈ nodes) : tree.parent? node.id = node.parent := by
  cases isParent : node.parent with
  | none => rw [(listed.parentless_iff node member).mp isParent, tree.parent?_root]
  | some parent => exact (listed.parent?_iff node.id parent).mpr ⟨node, member, rfl, isParent⟩

variable {nodes : Std.ExtTreeMap Position TreeNode}

/-- Nodes that are kept by position are nodes for a tree just when the tree is stored as them. -/
theorem listed_values_iff (keyed : ∀ (id : Position) (node : TreeNode), nodes[id]? = some node → node.id = id) :
    Listed nodes.values tree ↔ StoredAs nodes tree := by
  have at_iff : ∀ (id : Position) (node : TreeNode),
      node ∈ nodes.values ∧ node.id = id ↔ nodes[id]? = some node := by
    intro id node
    rw [mem_values]
    constructor
    · rintro ⟨⟨key, found⟩, rfl⟩
      rwa [← keyed key node found] at found
    · exact fun found => ⟨⟨id, found⟩, keyed id node found⟩
  constructor
  · intro listed
    refine ⟨fun id node found => ?_, fun id => ?_⟩
    · rcases (at_iff id node).mpr found with ⟨member, rfl⟩
      exact (listed.parent?_eq member).symm
    · simp only [listed.contains_iff, at_iff, mem_iff_getElem?]
  · intro stored
    refine ⟨fun node member => ?_, ?_, fun id parent => ?_⟩
    · have found := (at_iff node.id node).mp ⟨member, rfl⟩
      rw [stored.parent_eq node.id node found]
      refine ⟨fun noParent => ?_, fun isRoot => isRoot ▸ tree.parent?_root⟩
      by_contra notRoot
      have present := (stored.contains_iff node.id).mpr (Or.inr (mem_of_getElem? found))
      rcases exists_parent? present notRoot with ⟨parent, isParent⟩
      exact nomatch noParent.symm.trans isParent
    · rw [map_values keyed]
      exact (nodup_keys nodes).filter _
    · constructor
      · intro isParent
        have present := (stored.contains_iff id).mp (contains_of_parent? isParent)
        rcases mem_iff_getElem?.mp (present.resolve_left (ne_root_of_parent? isParent)) with ⟨node, found⟩
        rcases (at_iff id node).mpr found with ⟨member, isId⟩
        exact ⟨node, member, isId, (stored.parent_eq id node found).trans isParent⟩
      · rintro ⟨node, member, isId, isParent⟩
        rw [← stored.parent_eq id node ((at_iff id node).mp ⟨member, isId⟩), isParent]

/-- What is stored of a tree is loaded as the tree. -/
theorem ofNodes_of_storedAs (keyed : ∀ (id : Position) (node : TreeNode), nodes[id]? = some node → node.id = id)
    (stored : StoredAs nodes tree) : ofNodes tree.kind nodes.values = .ok tree :=
  ofNodes_eq_ok_iff.mpr ⟨rfl, (listed_values_iff keyed).mpr stored⟩

/-- What is loaded from nodes is stored as these nodes. -/
theorem storedAs_of_ofNodes (keyed : ∀ (id : Position) (node : TreeNode), nodes[id]? = some node → node.id = id)
    (loaded : ofNodes kind nodes.values = .ok tree) : tree.kind = kind ∧ StoredAs nodes tree :=
  (ofNodes_eq_ok_iff.mp loaded).imp_right (listed_values_iff keyed).mp

end

/-! ## Storing nodes again -/

/-- Nodes with some in place of any others for their positions. -/
def overwrite (nodes : Std.ExtTreeMap Position TreeNode) (changed : List TreeNode) :
    Std.ExtTreeMap Position TreeNode :=
  changed.foldl (fun known node => known.insert node.id node) nodes

/-- The nodes of some positions and of everything below them. -/
def nodesBelow (tree : PositionTree) (tops : List Position) : List TreeNode :=
  tree.nodes.filter fun node => (tops.flatMap tree.subtree).contains node.id

section

variable {nodes : Std.ExtTreeMap Position TreeNode} {tree : PositionTree} {id parent : Position}
  {node : TreeNode}

theorem overwrite_eq_some {changed : List TreeNode} (found : (overwrite nodes changed)[id]? = some node) :
    (node ∈ changed ∧ node.id = id) ∨
      ((∀ other ∈ changed, other.id ≠ id) ∧ nodes[id]? = some node) := by
  have entered := @foldl_insert_eq_some Position TreeNode _ _ _ _ _ changed TreeNode.id
    (fun node => node) nodes id node found
  refine entered.imp_left ?_
  rintro ⟨other, member, isId, rfl⟩
  exact ⟨member, isId⟩

theorem mem_overwrite {changed : List TreeNode} :
    id ∈ overwrite nodes changed ↔ (∃ other ∈ changed, other.id = id) ∨ id ∈ nodes :=
  mem_foldl_insert

theorem overwrite_keyed
    (keyed : ∀ (id : Position) (node : TreeNode), nodes[id]? = some node → node.id = id)
    (changed : List TreeNode) :
    ∀ (id : Position) (node : TreeNode), (overwrite nodes changed)[id]? = some node → node.id = id := by
  intro id node found
  rcases overwrite_eq_some found with ⟨_, isId⟩ | ⟨_, found⟩
  · exact isId
  · exact keyed id node found

theorem mem_nodes : node ∈ tree.nodes ↔ tree.contains node.id = true ∧
    node.parent = tree.parent? node.id ∧ node.ancestors = (tree.ancestors? node.id).getD [] := by
  rw [PositionTree.nodes, List.mem_map]
  constructor
  · rintro ⟨id, member, rfl⟩
    exact ⟨mem_breadthFirst.mp member, rfl, rfl⟩
  · rintro ⟨present, isParent, above⟩
    refine ⟨node.id, mem_breadthFirst.mpr present, ?_⟩
    rw [← isParent, ← above]

theorem exists_mem_nodesBelow {tops : List Position} (present : tree.contains id = true)
    (member : id ∈ tops) : ∃ other ∈ tree.nodesBelow tops, other.id = id := by
  refine ⟨⟨id, tree.parent? id, (tree.ancestors? id).getD []⟩, ?_, rfl⟩
  rw [nodesBelow, List.mem_filter, List.contains_iff_mem, List.mem_flatMap]
  exact ⟨mem_nodes.mpr ⟨present, rfl, rfl⟩, id, member, mem_subtree_self present⟩

/-- Nodes fit a tree again when those of the positions with another parent are stored. -/
theorem storedAs_overwrite {tops : List Position}
    (contains_iff : ∀ id, tree.contains id = true ↔ id = rootPosition ∨ id ∈ nodes)
    (parent_eq : ∀ (id : Position) (node : TreeNode), nodes[id]? = some node → id ∉ tops →
      node.parent = tree.parent? id) :
    StoredAs (overwrite nodes (tree.nodesBelow tops)) tree := by
  constructor
  · intro id node found
    rcases overwrite_eq_some found with ⟨member, rfl⟩ | ⟨others, found⟩
    · exact (mem_nodes.mp (List.mem_filter.mp member).1).2.1
    · refine parent_eq id node found fun isTop => ?_
      have present := (contains_iff id).mpr (Or.inr (mem_of_getElem? found))
      rcases exists_mem_nodesBelow present isTop with ⟨other, member, isId⟩
      exact others other member isId
  · intro id
    rw [contains_iff, mem_overwrite]
    refine ⟨fun present => present.imp_right Or.inr, ?_⟩
    rintro (isRoot | ⟨other, member, rfl⟩ | stored)
    · exact Or.inl isRoot
    · exact (contains_iff other.id).mp (mem_nodes.mp (List.mem_filter.mp member).1).1
    · exact Or.inr stored

theorem StoredAs.grown {grown : PositionTree} (stored : StoredAs nodes tree)
    (isGrown : tree.Grown grown id parent) :
    StoredAs (nodes.insert id ⟨id, some parent, []⟩) grown := by
  constructor
  · intro other node found
    rw [getElem?_insert_eq] at found
    rw [isGrown.parent?_eq]
    split at found
    · next same =>
        rw [Option.some.injEq] at found
        rw [← found, if_pos same]
    · next different =>
        rw [if_neg different]
        exact stored.parent_eq other node found
  · intro other
    rw [isGrown.contains_iff, stored.contains_iff, Std.ExtTreeMap.mem_insert, Std.compare_eq_iff_eq]
    tauto

theorem StoredAs.moved {moved : PositionTree} (stored : StoredAs nodes tree)
    (isMoved : tree.Moved moved id parent) :
    StoredAs (overwrite nodes (moved.nodesBelow [id])) moved := by
  refine storedAs_overwrite ?_ fun other node found notMoved => ?_
  · exact fun other => by rw [isMoved.contains_eq, stored.contains_iff]
  · rw [isMoved.parent?_eq, if_neg fun same => notMoved (List.mem_singleton.mpr same)]
    exact stored.parent_eq other node found

theorem StoredAs.without {left : PositionTree} (stored : StoredAs nodes tree)
    (isWithout : tree.Without left id parent) :
    StoredAs (overwrite (nodes.erase id) (left.nodesBelow (tree.children id))) left := by
  refine storedAs_overwrite ?_ fun other node found notChild => ?_
  · intro other
    simp only [isWithout.contains_iff, stored.contains_iff, Std.ExtTreeMap.mem_erase, ne_eq,
      Std.compare_eq_iff_eq]
    have notRoot := ne_root_of_parent? isWithout.isParent
    constructor
    · rintro ⟨different, isRoot | member⟩
      · exact Or.inl isRoot
      · exact Or.inr ⟨Ne.symm different, member⟩
    · rintro (isRoot | ⟨different, member⟩)
      · exact ⟨fun same => notRoot (same.symm.trans isRoot), Or.inl isRoot⟩
      · exact ⟨Ne.symm different, Or.inr member⟩
  · rw [getElem?_erase_eq] at found
    split at found
    · cases found
    · next different =>
        rw [isWithout.parent?_eq other different,
          if_neg fun isParent => notChild (mem_children.mpr isParent)]
        exact stored.parent_eq other node found

end

end PositionTree
end TemplateCascade

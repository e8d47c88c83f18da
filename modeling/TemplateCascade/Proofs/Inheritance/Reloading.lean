import Mathlib
import TemplateCascade.Proofs.Inheritance.Lineage

namespace TemplateCascade

/-!
# Which nodes are a tree

Nodes are loaded as a tree if their parents lead from every one of them to the root, and from nothing else.
The loader gives up after as many steps as there are parents, and that is enough, because a path to the root
is not longer.

What is loaded depends on the positions and the parents of the nodes alone, neither on their order nor on the
ancestors that are stored with them.  The nodes of a tree are loaded as this tree again.
-/

/-- What the loader reads of a node. -/
def TreeNode.given (node : TreeNode) : Position × Option Position :=
  (node.id, node.parent)

namespace PositionTree

/-! ## Nodes that form a tree -/

section

variable {parents : Std.ExtTreeMap Position Position} {id : Position} {up : List Position}

end

section

variable {kind : TreeKind} {tree : PositionTree} {nodes others : List TreeNode}

/-- Nodes that form a tree.  The root has no parent, every other node has one, and it leads to the root. -/
structure FormTree (nodes : List TreeNode) : Prop where
  root_parentless : ∀ node ∈ nodes, node.id = rootPosition → node.parent = none
  exists_parent : ∀ node ∈ nodes, node.id ≠ rootPosition → ∃ parent, node.parent = some parent
  /-- No position but the root comes twice. -/
  distinct : ((nodes.map TreeNode.id).filter (· != rootPosition)).Nodup
  parent_known : ∀ node ∈ nodes, ∀ parent, node.parent = some parent →
    parent = rootPosition ∨ ∃ other ∈ nodes, other.id = parent
  reaches_root : ∀ node ∈ nodes, ∃ up, (ParentTable.ofNodes nodes).Path node.id up

theorem FormTree.parentless_iff (formed : FormTree nodes) :
    ∀ node ∈ nodes, node.parent = none ↔ node.id = rootPosition := by
  refine fun node member => ⟨fun noParent => ?_, formed.root_parentless node member⟩
  by_contra notRoot
  rcases formed.exists_parent node member notRoot with ⟨parent, isParent⟩
  exact nomatch noParent.symm.trans isParent

end

end PositionTree
end TemplateCascade

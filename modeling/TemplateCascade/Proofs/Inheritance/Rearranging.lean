import Mathlib
import TemplateCascade.Proofs.Inheritance.Subtrees

namespace TemplateCascade
namespace PositionTree

/-!
# What moves and removals report

A move hangs a subtree under another parent.  On the chains of the subtree the ancestors that the moved position
had give way to the chain of the new parent, and what is below the moved position stays.  A removal leaves one
position out of the chains of its descendants.

Both report the positions whose chains they have changed.  All other positions keep their parent and their
chain.
-/

variable {tree moved left : PositionTree} {id parent other : Position} {up below target : List Position}
  {move : Move} {removal : Removal}

/-- What a move reports is what it has done, and nothing else has changed. -/
structure Carried (tree moved : PositionTree) (id parent : Position) (move : Move) : Prop where
  kind_eq : moved.kind = tree.kind
  contains_eq : ∀ other, moved.contains other = tree.contains other
  id_eq : move.id = id
  oldAncestors : tree.ancestors id = .ok move.oldAncestors
  newAncestors : tree.chain parent = .ok move.newAncestors
  listsSubtree : tree.ListsSubtree id move.subtree
  listsSubtree_after : moved.ListsSubtree id move.subtree
  parent?_eq : moved.parent? id = some parent
  chain_below : ∀ other ∈ move.subtree, ∃ below, tree.chain other = .ok (move.oldAncestors ++ below) ∧
    moved.chain other = .ok (move.newAncestors ++ below)
  parent?_below : ∀ other ∈ move.subtree, other ≠ id → moved.parent? other = tree.parent? other
  unchanged : ∀ other, other ∉ move.subtree →
    moved.parent? other = tree.parent? other ∧ moved.chain other = tree.chain other

end PositionTree
end TemplateCascade

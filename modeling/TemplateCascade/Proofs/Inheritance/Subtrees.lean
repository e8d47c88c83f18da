import Mathlib
import TemplateCascade.Proofs.Inheritance.Lineage

namespace TemplateCascade
namespace PositionTree

/-!
# Subtrees

A position is in the subtree of another one if the other one is on its chain.  The chain then starts with the
chain of the other one, for what is in front of a position on any chain is what its ancestors are.

A subtree is listed generation by generation.  That is the order of the chains: a shorter one comes first, and
of two that are equally long the one that is smaller where they part.  So no position comes twice.
-/

variable {tree : PositionTree} {id other : Position} {up : List Position}

/-! ## Chains -/

/-- One position comes before another in breadth-first order. -/
def Precedes (tree : PositionTree) (first second : Position) : Prop :=
  ∃ chain further, tree.chain first = .ok chain ∧ tree.chain second = .ok further ∧
    List.Shortlex (· < ·) chain further

/-- A list of a position and all of its descendants in breadth-first order. -/
structure ListsSubtree (tree : PositionTree) (id : Position) (list : List Position) : Prop where
  mem_iff : ∀ other, other ∈ list ↔ ∃ chain, tree.chain other = .ok chain ∧ id ∈ chain
  breadth_first : list.Pairwise tree.Precedes
  nodup : list.Nodup

end PositionTree
end TemplateCascade

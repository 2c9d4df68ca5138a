import Mathlib.Algebra.GroupWithZero.Nat
import Mathlib.Algebra.Order.BigOperators.Group.List
import Mathlib.Algebra.Order.Group.Nat
import Mathlib.Data.Tree.Basic
import Mathlib.Order.MinMax

/-! Binary trees by levels: what stands at each depth, and how deep the leaves are. -/
namespace LazyAS.TreeLevels

variable {α : Type}

def atDepth : BinaryTree α → Nat → List α
  | .nil, _ => []
  | .node value _ _, 0 => [value]
  | .node _ left right, depth + 1 => atDepth left depth ++ atDepth right depth

def values : BinaryTree α → List α
  | .nil => []
  | .node value left right => value :: (values left ++ values right)

/-- The depths of the leaves below a node of the given depth, from left to right. -/
def leafDepths (depth : Nat) : BinaryTree α → List Nat
  | .nil => []
  | .node _ .nil .nil => [depth]
  | .node _ left right => leafDepths (depth + 1) left ++ leafDepths (depth + 1) right

theorem atDepth_eq_nil (tree : BinaryTree α) (depth : Nat) :
    atDepth tree depth = [] ↔ tree.height ≤ depth := by
  induction tree generalizing depth with
  | nil => simp [atDepth]
  | node value left right ihLeft ihRight =>
      cases depth with
      | zero => simp [atDepth]
      | succ depth =>
          simp only [atDepth, List.append_eq_nil_iff, ihLeft, ihRight, BinaryTree.height]
          omega

theorem atDepth_sublist (tree : BinaryTree α) (depth : Nat) :
    (atDepth tree depth).Sublist (values tree) := by
  induction tree generalizing depth with
  | nil => exact List.Sublist.refl _
  | node value left right ihLeft ihRight =>
      cases depth with
      | zero => exact List.Sublist.cons_cons value (List.nil_sublist _)
      | succ depth => exact List.Sublist.cons value ((ihLeft depth).append (ihRight depth))

theorem sum_levels (tree : BinaryTree α) (depth : Nat) (deep : tree.height ≤ depth) :
    ((List.range depth).map fun i => (atDepth tree i).length).sum = tree.numNodes := by
  induction tree generalizing depth with
  | nil => simp [atDepth]
  | node value left right ihLeft ihRight =>
      cases depth with
      | zero => simp at deep
      | succ depth =>
          simp only [BinaryTree.height] at deep
          have split : ((List.range depth).map fun i =>
              (atDepth left i ++ atDepth right i).length).sum =
              left.numNodes + right.numNodes := by
            simp only [List.length_append, List.sum_map_add]
            rw [ihLeft depth (by omega), ihRight depth (by omega)]
          rw [List.range_succ_eq_map, List.map_cons, List.sum_cons, List.map_map]
          change 1 + ((List.range depth).map fun i =>
            (atDepth left i ++ atDepth right i).length).sum = _
          rw [split, BinaryTree.numNodes]
          omega

/-! Leaves. -/

theorem leafDepths_inner (depth : Nat) (value : α) (left right : BinaryTree α)
    (inner : left ≠ .nil ∨ right ≠ .nil) :
    leafDepths depth (.node value left right) = leafDepths (depth + 1) left ++
      leafDepths (depth + 1) right := by
  cases left with
  | node => rfl
  | nil =>
      cases right with
      | node => rfl
      | nil => simp at inner

theorem leafDepths_ne_nil (depth : Nat) (tree : BinaryTree α) (rooted : tree ≠ .nil) :
    leafDepths depth tree ≠ [] := by
  induction tree generalizing depth with
  | nil => exact absurd rfl rooted
  | node value left right ihLeft ihRight =>
      by_cases inner : left ≠ .nil ∨ right ≠ .nil
      · rw [leafDepths_inner depth value left right inner]
        rcases inner with first | second
        · exact List.append_ne_nil_of_left_ne_nil (ihLeft (depth + 1) first) _
        · exact List.append_ne_nil_of_right_ne_nil _ (ihRight (depth + 1) second)
      · simp only [not_or, not_not] at inner
        simp [inner.1, inner.2, leafDepths]

theorem leafDepths_ge (depth : Nat) (tree : BinaryTree α) :
    ∀ leaf ∈ leafDepths depth tree, depth ≤ leaf := by
  induction tree generalizing depth with
  | nil => simp [leafDepths]
  | node value left right ihLeft ihRight =>
      by_cases inner : left ≠ .nil ∨ right ≠ .nil
      · intro leaf member
        rw [leafDepths_inner depth value left right inner] at member
        rcases List.mem_append.mp member with first | second
        · exact Nat.le_of_succ_le (ihLeft (depth + 1) leaf first)
        · exact Nat.le_of_succ_le (ihRight (depth + 1) leaf second)
      · simp only [not_or, not_not] at inner
        simp [inner.1, inner.2, leafDepths]

theorem depth_le_sum (depth : Nat) (tree : BinaryTree α) (rooted : tree ≠ .nil) :
    depth ≤ (leafDepths depth tree).sum := by
  obtain ⟨leaf, member⟩ := List.exists_mem_of_ne_nil _ (leafDepths_ne_nil depth tree rooted)
  exact (leafDepths_ge depth tree leaf member).trans (List.le_sum_of_mem member)

theorem leaves_le_depths (value : α) (left right : BinaryTree α)
    (inner : left ≠ .nil ∨ right ≠ .nil) :
    (leafDepths 0 (.node value left right)).length ≤
      (leafDepths 0 (.node value left right)).sum := by
  rw [leafDepths_inner 0 value left right inner]
  have deep : ∀ leaf ∈ leafDepths (0 + 1) left ++ leafDepths (0 + 1) right, 1 ≤ leaf := by
    intro leaf member
    rcases List.mem_append.mp member with first | second
    · exact leafDepths_ge (0 + 1) left leaf first
    · exact leafDepths_ge (0 + 1) right leaf second
  exact List.length_le_sum_of_one_le _ deep

end LazyAS.TreeLevels

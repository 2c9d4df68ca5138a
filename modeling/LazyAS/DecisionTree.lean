import Mathlib.Data.Int.Bitwise
import Mathlib.Data.Rat.Cast.Order
import LazyAS.WireText

/-! The decision tree of `data processing/doPruning.cpp`: `doTest`'s descent,
its score over a data set and the bottom-up pruning pass. A `NULL` child is
`null`; parent links, which these three functions never follow, are left to
`TreeFile`. A `double` threshold is the rational number it denotes, so comparing it
with an `int` is exact. -/
namespace LazyAS.DecisionTree
open WireText

/-- The fields of a `TreeNode` other than its links. -/
structure NodeInfo where
  condition : Text
  relation : Text
  valueCon : ℚ
  canPruning : Bool
  leaf : Int
  deriving DecidableEq

inductive TreeNode where
  | null
  | node (left right : TreeNode) (info : NodeInfo)
  deriving DecidableEq

structure Features where
  rssi24 : Int
  au24 : Int
  rssi5 : Int
  au5 : Int
  deriving DecidableEq

/-- `uninit` is what the uninitialised local holds when no name matches. -/
def curValCon (uninit : Int) (input : Features) (condition : Text) : Int :=
  if condition = "rssi_2.4".toList then input.rssi24
  else if condition = "rssi_5".toList then input.rssi5
  else if condition = "au_2.4".toList then input.au24
  else if condition = "au_5".toList then input.au5
  else uninit

def relationHolds (relation : Text) (value : Int) (threshold : ℚ) : Bool :=
  if relation = "<".toList then (value : ℚ) < threshold
  else if relation = "<=".toList then (value : ℚ) ≤ threshold
  else if relation = ">".toList then (value : ℚ) > threshold
  else if relation = ">=".toList then (value : ℚ) ≥ threshold
  else false

def takesLeft (uninit : Int) (input : Features) (info : NodeInfo) : Bool :=
  relationHolds info.relation (curValCon uninit input info.condition) info.valueCon

/-- `doTest`'s inner loop: the label reached and the number of steps. The test
that decides at a node is stored in its left child; `none` is the dereference
of a missing child. -/
def descend (uninit : Int) (input : Features) : TreeNode → Option (Int × Nat)
  | .null => none
  | .node .null _ info => some (info.leaf, 0)
  | .node (.node a b test) right _ =>
      let next := if takesLeft uninit input test then descend uninit input (.node a b test)
        else descend uninit input right
      next.map fun reached => (reached.1, reached.2 + 1)

structure Row where
  input : Features
  flag : Int
  deriving DecidableEq

structure Score where
  right : Nat
  totalDepth : Nat
  totalSize : Nat
  deriving DecidableEq

def countRow (uninit : Int) (tree : TreeNode) (score : Score) (row : Row) : Option Score :=
  (descend uninit row.input tree).map fun reached =>
    { right := if reached.1 = row.flag ∨ row.flag = 2 then score.right + 1 else score.right
      totalDepth := score.totalDepth + reached.2
      totalSize := score.totalSize + 1 }

/-- `doTest` over the parsed rows, without its report file. -/
def doTest (uninit : Int) (tree : TreeNode) (rows : List Row) : Option Score :=
  rows.foldlM (countRow uninit tree) ⟨0, 0, 0⟩

def canPruning : TreeNode → Bool
  | .null => true
  | .node _ _ info => info.canPruning

/-- The label `doPruning` writes when both children are prunable. -/
def prunedLeaf (left right leaf : Int) : Int :=
  if left = 1 ∨ right = 1 then 1
  else if left = 0 ∨ right = 0 then 0
  else if left = 2 ∨ right = 2 then 2
  else leaf

/-- `doPruning`: the rewritten tree and the returned label. -/
def doPruning : TreeNode → TreeNode × Int
  | .null => (.null, -1)
  | .node left right info =>
      let l := doPruning left
      let r := doPruning right
      if canPruning l.1 ∧ canPruning r.1 ∧ Int.lor l.2 r.2 ≠ 1 then
        let leaf := prunedLeaf l.2 r.2 info.leaf
        (.node .null .null { info with leaf := leaf, canPruning := true }, leaf)
      else (.node l.1 r.1 info, info.leaf)

/-- Zero or two children everywhere, labels 0, 1 or 2 on leaves, -1 inside,
and no pruning mark yet. -/
def Labelled : TreeNode → Prop
  | .null => False
  | .node .null .null info =>
      (info.leaf = 0 ∨ info.leaf = 1 ∨ info.leaf = 2) ∧ info.canPruning = false
  | .node left right info =>
      info.leaf = -1 ∧ info.canPruning = false ∧ Labelled left ∧ Labelled right

/-- The same decision, or an indifferent one made definite, in no more steps. -/
def Agrees (uninit : Int) (before after : TreeNode) (input : Features) : Prop :=
  ∃ label steps label' steps',
    descend uninit input before = some (label, steps) ∧
    descend uninit input after = some (label', steps') ∧
    (label' = label ∨ label = 2) ∧ steps' ≤ steps

/-- What pruning a labelled subtree can return: a marked leaf that every descent
of the subtree agrees with, or an unmarked inner node that returns -1. -/
inductive Outcome (uninit : Int) (before : TreeNode) : TreeNode × Int → Prop where
  | merged (info : NodeInfo) (marked : info.canPruning = true)
      (label : info.leaf = 0 ∨ info.leaf = 1 ∨ info.leaf = 2)
      (agrees : ∀ input, Agrees uninit before (.node .null .null info) input) :
      Outcome uninit before (.node .null .null info, info.leaf)
  | kept (left right : TreeNode) (info : NodeInfo) (inner : left ≠ .null)
      (unmarked : info.canPruning = false)
      (agrees : ∀ input, Agrees uninit before (.node left right info) input) :
      Outcome uninit before (.node left right info, -1)

theorem labelled_inner (left right : TreeNode) (info : NodeInfo)
    (labelled : Labelled (.node left right info)) (inner : left ≠ .null ∨ right ≠ .null) :
    info.leaf = -1 ∧ info.canPruning = false ∧ Labelled left ∧ Labelled right := by
  cases left with
  | null =>
      cases right with
      | null => simp at inner
      | node => exact labelled
  | node => exact labelled

theorem descend_inner (uninit : Int) (input : Features) (a b right : TreeNode)
    (test info : NodeInfo) :
    descend uninit input (.node (.node a b test) right info) =
      (if takesLeft uninit input test then descend uninit input (.node a b test)
        else descend uninit input right).map fun reached => (reached.1, reached.2 + 1) := rfl

/-- Rewriting both children in a way that keeps the left child's test keeps the
agreement of the parent: its descent takes the same turn. -/
theorem agrees_inner (uninit : Int) (a b right a' b' right' : TreeNode)
    (test test' info : NodeInfo) (input : Features)
    (same : takesLeft uninit input test' = takesLeft uninit input test)
    (onLeft : Agrees uninit (.node a b test) (.node a' b' test') input)
    (onRight : Agrees uninit right right' input) :
    Agrees uninit (.node (.node a b test) right info) (.node (.node a' b' test') right' info)
      input := by
  unfold Agrees
  simp only [descend_inner, same]
  by_cases turn : takesLeft uninit input test = true
  · obtain ⟨label, steps, label', steps', reached, reached', agree, shorter⟩ := onLeft
    exact ⟨label, steps + 1, label', steps' + 1, by simp [turn, reached], by simp [turn, reached'],
      agree, by omega⟩
  · obtain ⟨label, steps, label', steps', reached, reached', agree, shorter⟩ := onRight
    exact ⟨label, steps + 1, label', steps' + 1, by simp [turn, reached], by simp [turn, reached'],
      agree, by omega⟩

/-- A child whose own pruned label is `own` still agrees with the merged label. -/
theorem agrees_merged (uninit : Int) (child after : TreeNode) (info merged : NodeInfo)
    (input : Features) (atLeaf : after = .node .null .null info)
    (agrees : Agrees uninit child after input)
    (compatible : merged.leaf = info.leaf ∨ info.leaf = 2) :
    ∃ label steps, descend uninit input child = some (label, steps) ∧
      (merged.leaf = label ∨ label = 2) := by
  obtain ⟨label, steps, label', steps', reached, reached', agree, _⟩ := agrees
  subst atLeaf
  obtain ⟨rfl, rfl⟩ : info.leaf = label' ∧ 0 = steps' := by simpa [descend] using reached'
  refine ⟨label, steps, reached, ?_⟩
  rcases agree with same | indifferent
  · rcases compatible with equal | two
    · exact Or.inl (equal.trans same)
    · exact Or.inr (same.symm.trans two)
  · exact Or.inr indifferent

theorem merged_labels (l r leaf : Int) (left : l = 0 ∨ l = 1 ∨ l = 2)
    (right : r = 0 ∨ r = 1 ∨ r = 2) (compatible : Int.lor l r ≠ 1) :
    (prunedLeaf l r leaf = 0 ∨ prunedLeaf l r leaf = 1 ∨ prunedLeaf l r leaf = 2) ∧
      (prunedLeaf l r leaf = l ∨ l = 2) ∧ (prunedLeaf l r leaf = r ∨ r = 2) := by
  rcases left with rfl | rfl | rfl <;> rcases right with rfl | rfl | rfl <;>
    first
    | exact absurd (by decide) compatible
    | (simp [prunedLeaf])

def SameTest : TreeNode → TreeNode → Prop
  | .node _ _ info, .node _ _ info' =>
      info'.condition = info.condition ∧ info'.relation = info.relation ∧
        info'.valueCon = info.valueCon
  | .null, .null => True
  | _, _ => False

theorem pruning_same_test (tree : TreeNode) : SameTest tree (doPruning tree).1 := by
  cases tree with
  | null => trivial
  | node left right info =>
      simp only [doPruning]
      split <;> exact ⟨rfl, rfl, rfl⟩

theorem same_test_turn (uninit : Int) (a b a' b' : TreeNode) (test test' : NodeInfo)
    (same : SameTest (.node a b test) (.node a' b' test')) (input : Features) :
    takesLeft uninit input test' = takesLeft uninit input test := by
  obtain ⟨condition, relation, valueCon⟩ := same
  simp only [takesLeft, condition, relation, valueCon]

theorem pruning_leaf (uninit : Int) (info : NodeInfo)
    (label : info.leaf = 0 ∨ info.leaf = 1 ∨ info.leaf = 2) :
    Outcome uninit (.node .null .null info) (doPruning (.node .null .null info)) := by
  have marked : doPruning (.node .null .null info) =
      (.node .null .null { info with canPruning := true }, info.leaf) := by
    simp [doPruning, canPruning, prunedLeaf, show Int.lor (-1) (-1) ≠ 1 by decide]
  rw [marked]
  exact Outcome.merged { info with canPruning := true } rfl label fun input =>
    ⟨info.leaf, 0, info.leaf, 0, rfl, rfl, Or.inl rfl, Nat.le_refl 0⟩

theorem merge_agrees (uninit : Int) (a b right : TreeNode) (test info merged : NodeInfo)
    (input : Features)
    (onLeft : ∃ label steps, descend uninit input (.node a b test) = some (label, steps) ∧
      (merged.leaf = label ∨ label = 2))
    (onRight : ∃ label steps, descend uninit input right = some (label, steps) ∧
      (merged.leaf = label ∨ label = 2)) :
    Agrees uninit (.node (.node a b test) right info) (.node .null .null merged) input := by
  unfold Agrees
  simp only [descend_inner]
  by_cases turn : takesLeft uninit input test = true
  · obtain ⟨label, steps, reached, agree⟩ := onLeft
    exact ⟨label, steps + 1, merged.leaf, 0, by simp [turn, reached], rfl, agree, Nat.zero_le _⟩
  · obtain ⟨label, steps, reached, agree⟩ := onRight
    exact ⟨label, steps + 1, merged.leaf, 0, by simp [turn, reached], rfl, agree, Nat.zero_le _⟩

theorem pruning_kept (left right : TreeNode) (info : NodeInfo)
    (blocked : ¬ (canPruning (doPruning left).1 ∧ canPruning (doPruning right).1 ∧
      Int.lor (doPruning left).2 (doPruning right).2 ≠ 1)) :
    doPruning (.node left right info) =
      (.node (doPruning left).1 (doPruning right).1 info, info.leaf) := by
  simp only [doPruning]
  rw [if_neg blocked]

theorem kept_outcome (uninit : Int) (a b right : TreeNode) (test info : NodeInfo)
    (inner : info.leaf = -1) (unmarked : info.canPruning = false)
    (onLeft : ∀ input, Agrees uninit (.node a b test) (doPruning (.node a b test)).1 input)
    (onRight : ∀ input, Agrees uninit right (doPruning right).1 input)
    (blocked : ¬ (canPruning (doPruning (.node a b test)).1 ∧ canPruning (doPruning right).1 ∧
      Int.lor (doPruning (.node a b test)).2 (doPruning right).2 ≠ 1)) :
    Outcome uninit (.node (.node a b test) right info)
      (doPruning (.node (.node a b test) right info)) := by
  rw [pruning_kept _ _ _ blocked, inner]
  have same := pruning_same_test (.node a b test)
  cases shape : (doPruning (.node a b test)).1 with
  | null => rw [shape] at same; exact False.elim same
  | node a' b' test' =>
      rw [shape] at same onLeft
      exact Outcome.kept _ _ info (by simp) unmarked fun input =>
        agrees_inner uninit a b right a' b' _ test test' info input
          (same_test_turn uninit a b a' b' test test' same input) (onLeft input) (onRight input)

theorem outcome_agrees (uninit : Int) (before : TreeNode) (result : TreeNode × Int)
    (outcome : Outcome uninit before result) (input : Features) :
    Agrees uninit before result.1 input := by
  cases outcome with
  | merged _ _ _ agrees => exact agrees input
  | kept _ _ _ _ _ agrees => exact agrees input

/-- The induction over the tree. A marked child is a single leaf, so merging
two of them is the only place where labels are combined. -/
theorem pruning_outcome (uninit : Int) (tree : TreeNode) (labelled : Labelled tree) :
    Outcome uninit tree (doPruning tree) := by
  induction tree with
  | null => exact False.elim labelled
  | node left right info leftIh rightIh =>
      by_cases inner : left ≠ .null ∨ right ≠ .null
      · obtain ⟨label, unmarked, onLeft, onRight⟩ := labelled_inner left right info labelled inner
        have leftOutcome := leftIh onLeft
        have rightOutcome := rightIh onRight
        -- the test of an inner node is the one stored in its left child
        cases left with
        | null => exact False.elim onLeft
        | node a b test =>
            by_cases mergeable : canPruning (doPruning (.node a b test)).1 ∧
                canPruning (doPruning right).1 ∧
                Int.lor (doPruning (.node a b test)).2 (doPruning right).2 ≠ 1
            · obtain ⟨leftMarked, rightMarked, compatible⟩ := mergeable
              have merged : doPruning (.node (.node a b test) right info) =
                  (.node .null .null { info with
                    leaf := prunedLeaf (doPruning (.node a b test)).2 (doPruning right).2 info.leaf,
                    canPruning := true },
                  prunedLeaf (doPruning (.node a b test)).2 (doPruning right).2 info.leaf) := by
                rw [doPruning]
                exact if_pos ⟨leftMarked, rightMarked, compatible⟩
              rw [merged]
              -- both children are marked, so each of them has become a single leaf
              generalize doPruning (.node a b test) = leftResult at *
              generalize doPruning right = rightResult at *
              cases leftOutcome with
              | kept _ _ _ _ unmarkedLeft _ => simp [canPruning, unmarkedLeft] at leftMarked
              | merged leftInfo _ leftLabel leftAgrees =>
                  cases rightOutcome with
                  | kept _ _ _ _ unmarkedRight _ => simp [canPruning, unmarkedRight] at rightMarked
                  | merged rightInfo _ rightLabel rightAgrees =>
                      have labels := merged_labels leftInfo.leaf rightInfo.leaf info.leaf
                        leftLabel rightLabel compatible
                      exact Outcome.merged _ rfl labels.1 fun input =>
                        merge_agrees uninit a b right test info _ input
                          (agrees_merged uninit _ _ leftInfo _ input rfl (leftAgrees input)
                            labels.2.1)
                          (agrees_merged uninit _ _ rightInfo _ input rfl (rightAgrees input)
                            labels.2.2)
            · exact kept_outcome uninit a b right test info label unmarked
                (outcome_agrees uninit _ _ leftOutcome) (outcome_agrees uninit _ _ rightOutcome)
                mergeable
      · simp only [ne_eq, not_or, not_not] at inner
        obtain ⟨rfl, rfl⟩ := inner
        exact pruning_leaf uninit info labelled.1

theorem right_kept (label label' flag : Int) (agree : label' = label ∨ label = 2)
    (right : label = flag ∨ flag = 2) : label' = flag ∨ flag = 2 := by
  omega

theorem scores_agree (uninit : Int) (before after : TreeNode)
    (agrees : ∀ input, Agrees uninit before after input) (rows : List Row) (score score' : Score)
    (moreRight : score.right ≤ score'.right) (shorter : score'.totalDepth ≤ score.totalDepth)
    (sameSize : score'.totalSize = score.totalSize) :
    ∃ final final', rows.foldlM (countRow uninit before) score = some final ∧
      rows.foldlM (countRow uninit after) score' = some final' ∧
      final.right ≤ final'.right ∧ final'.totalDepth ≤ final.totalDepth ∧
      final'.totalSize = final.totalSize := by
  induction rows generalizing score score' with
  | nil => exact ⟨score, score', rfl, rfl, moreRight, shorter, sameSize⟩
  | cons row rest ih =>
      obtain ⟨label, steps, label', steps', reached, reached', agree, fewer⟩ := agrees row.input
      simp only [List.foldlM_cons, countRow, reached, reached', Option.map_some,
        Option.bind_eq_bind, Option.bind_some]
      -- the two scores stay related row by row
      apply ih
      · have kept := right_kept label label' row.flag agree
        by_cases right : label = row.flag ∨ row.flag = 2
        · simpa [right, kept right] using moreRight
        · simp only [right, ↓reduceIte]
          split <;> simp <;> omega
      · simp only
        omega
      · simp [sameSize]

/-- Pruning keeps every definite decision, and on every data set the pruned tree
scores at least as many rows as right with no descent longer than before. -/
theorem pruning_preserves_decisions (uninit : Int) (tree : TreeNode) (labelled : Labelled tree) :
    (∀ input, Agrees uninit tree (doPruning tree).1 input) ∧
    ∀ rows, ∃ score score', doTest uninit tree rows = some score ∧
      doTest uninit (doPruning tree).1 rows = some score' ∧
      score.right ≤ score'.right ∧ score'.totalDepth ≤ score.totalDepth ∧
      score'.totalSize = score.totalSize := by
  have agrees := outcome_agrees uninit tree _ (pruning_outcome uninit tree labelled)
  exact ⟨agrees, fun rows => scores_agree uninit tree _ agrees rows _ _
    (Nat.le_refl _) (Nat.le_refl _) rfl⟩

/-- A split of an indifferent leaf and a 5 GHz leaf on `rssi_5 <= -70`. -/
def mixedSplit : TreeNode :=
  .node
    (.node .null .null ⟨"rssi_5".toList, "<=".toList, -70, false, 2⟩)
    (.node .null .null ⟨"rssi_5".toList, ">".toList, -70, false, 1⟩)
    ⟨"root".toList, [], 0, false, -1⟩

theorem mixed_split_pruned :
    Labelled mixedSplit ∧ doPruning mixedSplit ≠ (mixedSplit, -1) ∧
    ∀ input, Agrees 0 mixedSplit (doPruning mixedSplit).1 input := by
  have labelled : Labelled mixedSplit := by simp [Labelled, mixedSplit]
  exact ⟨labelled, by decide, (pruning_preserves_decisions 0 mixedSplit labelled).1⟩

end LazyAS.DecisionTree

import LazyAS.DecisionTree

/-! Which pairs of sibling leaves `doPruning` leaves behind. A pair with the labels 1 and 1 is taken
for one with the labels 0 and 1, since both give 1 when they are joined bit by bit, and it is kept.
-/
namespace LazyAS.PruningPairs
open DecisionTree

/-- Zero or two children everywhere, labels 0, 1 or 2 on leaves, and no pruning mark on inner nodes.
-/
inductive Grown : TreeNode → Prop where
  | leaf (info : NodeInfo) (label : info.leaf = 0 ∨ info.leaf = 1 ∨ info.leaf = 2) :
      Grown (.node .null .null info)
  | split {left right : TreeNode} (info : NodeInfo) (unmarked : info.canPruning = false)
      (onLeft : Grown left)
      (onRight : Grown right) : Grown (.node left right info)

inductive Within (sub : TreeNode) : TreeNode → Prop where
  | self : Within sub sub
  | left {left right : TreeNode} {info : NodeInfo} (inside : Within sub left) :
      Within sub (.node left right info)
  | right {left right : TreeNode} {info : NodeInfo} (inside : Within sub right) :
      Within sub (.node left right info)

def Compatible (label other : Int) : Prop := label = other ∨ label = 2 ∨ other = 2

/-- No two sibling leaves could still be merged: one has the label 0 and the other one 1. -/
def Complete (tree : TreeNode) : Prop :=
  ∀ one other info, Within (.node (.node .null .null one) (.node .null .null other) info) tree →
    ¬ Compatible one.leaf other.leaf ∧
      (one.leaf = 0 ∧ other.leaf = 1 ∨ one.leaf = 1 ∧ other.leaf = 0)

def leaves : TreeNode → List Int
  | .null => []
  | .node .null .null info => [info.leaf]
  | .node left right _ => leaves left ++ leaves right

/-- Two leaves with the label 1, and all others have the label 2. -/
def TwoOnes (tree : TreeNode) : Prop :=
  (leaves tree).count 1 = 2 ∧ ∀ label ∈ leaves tree, label = 1 ∨ label = 2

def prunedTo (labels : List Int) : Option Int :=
  if ∀ label ∈ labels, label = 2 then some 2
  else if ∀ label ∈ labels, label = 0 ∨ label = 2 then some 0
  else if (∀ label ∈ labels, label = 1 ∨ label = 2) ∧ labels.count 1 = 1 then some 1
  else none

theorem leaves_split {left right : TreeNode} (info : NodeInfo) (onLeft : Grown left) :
    leaves (.node left right info) = leaves left ++ leaves right := by
  cases onLeft <;> rfl

theorem only_two (labels : List Int) (zeros : ∀ label ∈ labels, label = 0 ∨ label = 2)
    (ones : ∀ label ∈ labels, label = 1 ∨ label = 2) : ∀ label ∈ labels, label = 2 := by
  intro label member
  rcases zeros label member with zero | two
  · rcases ones label member with one | two
    · omega
    · exact two
  · exact two

theorem without_one (labels : List Int) (ones : ∀ label ∈ labels, label = 1 ∨ label = 2) :
    labels.count 1 = 0 ↔ ∀ label ∈ labels, label = 2 := by
  rw [List.count_eq_zero]
  constructor
  · intro absent label member
    rcases ones label member with one | two
    · exact absurd (one ▸ member) absent
    · exact two
  · intro twos member
    exact absurd (twos 1 member) (by decide)

theorem pruned_two (labels : List Int) (twos : ∀ label ∈ labels, label = 2) :
    prunedTo labels = some 2 :=
  if_pos twos

theorem pruned_zero (labels : List Int) (some_other : ¬ ∀ label ∈ labels, label = 2)
    (zeros : ∀ label ∈ labels, label = 0 ∨ label = 2) : prunedTo labels = some 0 := by
  rw [prunedTo, if_neg some_other, if_pos zeros]

theorem pruned_one (labels : List Int) (ones : ∀ label ∈ labels, label = 1 ∨ label = 2)
    (single : labels.count 1 = 1) : prunedTo labels = some 1 := by
  have other : ¬ ∀ label ∈ labels, label = 2 := fun twos => by
    have none := (without_one labels ones).mpr twos
    omega
  have mixed : ¬ ∀ label ∈ labels, label = 0 ∨ label = 2 := fun zeros =>
      other (only_two labels zeros ones)
  rw [prunedTo, if_neg other, if_neg mixed, if_pos ⟨ones, single⟩]

theorem pruned_none (labels : List Int) (mixed : ¬ ∀ label ∈ labels, label = 0 ∨ label = 2)
    (several : ¬ ((∀ label ∈ labels, label = 1 ∨ label = 2) ∧ labels.count 1 = 1)) :
    prunedTo labels = none := by
  have other : ¬ ∀ label ∈ labels, label = 2 := fun twos => mixed fun label member =>
      Or.inr (twos label member)
  rw [prunedTo, if_neg other, if_neg mixed, if_neg several]

theorem prunedTo_cases (labels : List Int) :
    ((∀ label ∈ labels, label = 2) ∧ prunedTo labels = some 2) ∨
      ((¬ ∀ label ∈ labels, label = 2) ∧ (∀ label ∈ labels, label = 0 ∨ label = 2) ∧
        prunedTo labels = some 0) ∨
      ((∀ label ∈ labels, label = 1 ∨ label = 2) ∧ labels.count 1 = 1 ∧ prunedTo labels = some 1) ∨
      ((¬ ∀ label ∈ labels, label = 0 ∨ label = 2) ∧
        ¬ ((∀ label ∈ labels, label = 1 ∨ label = 2) ∧ labels.count 1 = 1) ∧
          prunedTo labels = none) := by
  by_cases twos : ∀ label ∈ labels, label = 2
  · exact Or.inl ⟨twos, pruned_two labels twos⟩
  · by_cases zeros : ∀ label ∈ labels, label = 0 ∨ label = 2
    · exact Or.inr (Or.inl ⟨twos, zeros, pruned_zero labels twos zeros⟩)
    · by_cases single : (∀ label ∈ labels, label = 1 ∨ label = 2) ∧ labels.count 1 = 1
      · exact Or.inr (Or.inr (Or.inl ⟨single.1, single.2, pruned_one labels single.1 single.2⟩))
      · exact Or.inr (Or.inr (Or.inr ⟨zeros, single, pruned_none labels zeros single⟩))

theorem zeros_of_twos (labels : List Int) (twos : ∀ label ∈ labels, label = 2) :
    ∀ label ∈ labels, label = 0 ∨ label = 2 :=
  fun label member => Or.inr (twos label member)

theorem ones_of_twos (labels : List Int) (twos : ∀ label ∈ labels, label = 2) :
    ∀ label ∈ labels, label = 1 ∨ label = 2 :=
  fun label member => Or.inr (twos label member)

theorem mixed_part (part whole : List Int) (inside : part ⊆ whole)
    (fewer : part.count 1 ≤ whole.count 1) (mixed : ¬ ∀ label ∈ part, label = 0 ∨ label = 2)
    (several : ¬ ((∀ label ∈ part, label = 1 ∨ label = 2) ∧ part.count 1 = 1)) :
    prunedTo whole = none := by
  refine pruned_none whole (fun zeros => mixed fun label member => zeros label (inside member)) ?_
  rintro ⟨ones, single⟩
  have partOnes : ∀ label ∈ part, label = 1 ∨ label = 2 := fun label member =>
      ones label (inside member)
  have absent : part.count 1 = 0 := by
    by_contra present
    exact several ⟨partOnes, by omega⟩
  exact mixed (zeros_of_twos part ((without_one part partOnes).mp absent))

theorem prunedTo_append (left right : List Int) : prunedTo (left ++ right) =
    (prunedTo left).bind fun l => (prunedTo right).bind fun r =>
      if Int.lor l r = 1 then none else some (prunedLeaf l r (-1)) := by
  -- what two children are pruned to decides what their parent is
  have both : ∀ {p : Int → Prop}, (∀ label ∈ left, p label) → (∀ label ∈ right, p label) →
      ∀ label ∈ left ++ right, p label := fun onLeft onRight =>
        List.forall_mem_append.mpr ⟨onLeft, onRight⟩
  have fromLeft : ∀ {p : Int → Prop}, (∀ label ∈ left ++ right, p label) →
      ∀ label ∈ left, p label :=
    fun all => (List.forall_mem_append.mp all).1
  have fromRight : ∀ {p : Int → Prop}, (∀ label ∈ left ++ right, p label) →
      ∀ label ∈ right, p label :=
    fun all => (List.forall_mem_append.mp all).2
  have count : (left ++ right).count 1 = left.count 1 + right.count 1 := List.count_append
  rcases prunedTo_cases left with ⟨l, was⟩ | ⟨some_zero, l, was⟩ | ⟨l, single, was⟩ |
      ⟨mixed, several, was⟩
  · have absent := (without_one left (ones_of_twos left l)).mpr l
    rcases prunedTo_cases right with ⟨r, old⟩ | ⟨some_zero, r, old⟩ | ⟨r, single, old⟩ |
        ⟨mixed, several, old⟩
    · rw [was, old, pruned_two _ (both l r)]; rfl
    · rw [was, old, pruned_zero _ (fun twos => some_zero (fromRight twos))
        (both (zeros_of_twos left l) r)]; rfl
    · rw [was, old, pruned_one _ (both (ones_of_twos left l) r) (by omega)]; rfl
    · rw [was, old, mixed_part right _ (List.subset_append_right _ _) (by omega) mixed several]; rfl
  · rcases prunedTo_cases right with ⟨r, old⟩ | ⟨_, r, old⟩ | ⟨r, single, old⟩ |
        ⟨mixed, several, old⟩
    · rw [was, old, pruned_zero _ (fun twos => some_zero (fromLeft twos))
        (both l (zeros_of_twos right r))]; rfl
    · rw [was, old, pruned_zero _ (fun twos => some_zero (fromLeft twos)) (both l r)]; rfl
    · have other : right.count 1 ≠ 0 := by omega
      rw [was, old, pruned_none]
      · rfl
      · exact fun zeros => other ((without_one right r).mpr (only_two right (fromRight zeros) r))
      · exact fun ones => some_zero (only_two left l (fromLeft ones.1))
    · rw [was, old, mixed_part right _ (List.subset_append_right _ _) (by omega) mixed several]; rfl
  · have other : left.count 1 ≠ 0 := by omega
    have not_zeros : ¬ ∀ label ∈ left, label = 0 ∨ label = 2 := fun zeros =>
      other ((without_one left l).mpr (only_two left zeros l))
    rcases prunedTo_cases right with ⟨r, old⟩ | ⟨some_zero, r, old⟩ | ⟨r, _, old⟩ |
        ⟨mixed, several, old⟩
    · have absent := (without_one right (ones_of_twos right r)).mpr r
      rw [was, old, pruned_one _ (both l (ones_of_twos right r)) (by omega)]; rfl
    · rw [was, old, pruned_none _ (fun zeros => not_zeros (fromLeft zeros))
        (fun ones => some_zero (only_two right r (fromRight ones.1)))]; rfl
    · rw [was, old, pruned_none _ (fun zeros => not_zeros (fromLeft zeros))
        (fun ones => by omega)]; rfl
    · rw [was, old, mixed_part right _ (List.subset_append_right _ _) (by omega) mixed several]; rfl
  · rw [was, mixed_part left _ (List.subset_append_left _ _) (by omega) mixed several]; rfl

theorem pruned_label (labels : List Int) (label : Int) (pruned : prunedTo labels = some label) :
    label = 0 ∨ label = 1 ∨ label = 2 := by
  rcases prunedTo_cases labels with ⟨_, was⟩ | ⟨_, _, was⟩ | ⟨_, _, was⟩ | ⟨_, _, was⟩ <;>
      rw [pruned] at was
  · exact Or.inr (Or.inr (Option.some.inj was))
  · exact Or.inl (Option.some.inj was)
  · exact Or.inr (Or.inl (Option.some.inj was))
  · nomatch was

theorem prunedLeaf_default (l r leaf : Int) (left : l = 0 ∨ l = 1 ∨ l = 2) :
    prunedLeaf l r leaf = prunedLeaf l r (-1) := by
  rcases left with rfl | rfl | rfl <;> simp [prunedLeaf]

def Joined (tree : TreeNode) (label : Int) : Prop :=
  ∃ info : NodeInfo, info.canPruning = true ∧ info.leaf = label ∧
    doPruning tree = (.node .null .null info, label)

theorem joined_leaf (info : NodeInfo) (label : info.leaf = 0 ∨ info.leaf = 1 ∨ info.leaf = 2) :
    Joined (.node .null .null info) info.leaf ∧
      prunedTo (leaves (.node .null .null info)) = some info.leaf := by
  refine ⟨⟨{ info with canPruning := true }, rfl, rfl, ?_⟩, ?_⟩
  · simp [doPruning, canPruning, prunedLeaf, show Int.lor (-1) (-1) ≠ 1 by decide]
  · rcases label with label | label | label <;> simp [leaves, prunedTo, label]

theorem kept_split {left right : TreeNode} {info : NodeInfo} (unmarked : info.canPruning = false)
    (kept : doPruning (.node left right info) =
      (.node (doPruning left).1 (doPruning right).1 info, info.leaf)) :
    canPruning (doPruning (.node left right info)).1 = false := by
  rw [kept]
  exact unmarked

theorem pruned_node (tree : TreeNode) (grown : Grown tree) : (doPruning tree).1 ≠ .null := by
  intro gone
  have same := pruning_same_test tree
  rw [gone] at same
  cases grown <;> exact same.elim

/-- The leaves of a tree decide whether it is joined to one leaf, and to which. A tree that is not
joined stays an inner node with its pruned children and without a mark. -/
theorem pruning_shape (tree : TreeNode) (grown : Grown tree) :
    (∃ label, prunedTo (leaves tree) = some label ∧ Joined tree label) ∨
      (prunedTo (leaves tree) = none ∧ canPruning (doPruning tree).1 = false ∧
        ∃ left right info, tree = .node left right info ∧ (doPruning left).1 ≠ .null ∧
          doPruning tree = (.node (doPruning left).1 (doPruning right).1 info, info.leaf)) := by
  induction grown with
  | leaf info label =>
      exact Or.inl ⟨info.leaf, (joined_leaf info label).2, (joined_leaf info label).1⟩
  | @split left right info unmarked onLeft onRight leftIh rightIh =>
      rw [leaves_split info onLeft, prunedTo_append]
      rcases leftIh with ⟨l, leftPruned, leftInfo, leftMark, leftLabel, leftRun⟩ |
          ⟨leftNone, leftMark, _⟩
      · rcases rightIh with ⟨r, rightPruned, rightInfo, rightMark, rightLabel, rightRun⟩ |
            ⟨rightNone, rightMark, _⟩
        · by_cases blocked : Int.lor l r = 1
          · have kept := pruning_kept left right info fun marks =>
                marks.2.2 (by rw [leftRun, rightRun]; exact blocked)
            refine Or.inr ⟨?_, kept_split unmarked kept, left, right, info, rfl,
              pruned_node left onLeft, kept⟩
            simp [leftPruned, rightPruned, blocked]
          · refine Or.inl ⟨prunedLeaf l r info.leaf, ?_,
              { info with leaf := prunedLeaf l r info.leaf, canPruning := true },
              rfl, rfl, ?_⟩
            · simp [leftPruned, rightPruned, blocked,
                ← prunedLeaf_default l r info.leaf (pruned_label _ _ leftPruned)]
            · simp only [doPruning, leftRun, rightRun, canPruning, leftMark, rightMark]
              simp [blocked]
        · have kept := pruning_kept left right info fun marks => by
            rw [rightMark] at marks
            exact Bool.false_ne_true marks.2.1
          refine Or.inr ⟨?_, kept_split unmarked kept, left, right, info, rfl,
            pruned_node left onLeft, kept⟩
          simp [leftPruned, rightNone]
      · have kept := pruning_kept left right info fun marks => by
          rw [leftMark] at marks
          exact Bool.false_ne_true marks.1
        refine Or.inr ⟨?_, kept_split unmarked kept, left, right, info, rfl,
          pruned_node left onLeft, kept⟩
        simp [leftNone]

theorem within_null (sub : TreeNode) (inside : Within sub .null) : sub = .null := by
  cases inside
  rfl

theorem within_leaf {sub : TreeNode} {info : NodeInfo}
    (inside : Within sub (.node .null .null info)) :
    sub = .node .null .null info ∨ sub = .null := by
  cases inside with
  | self => exact Or.inl rfl
  | left inside => exact Or.inr (within_null sub inside)
  | right inside => exact Or.inr (within_null sub inside)

theorem within_count {sub tree : TreeNode} (grown : Grown tree) (inside : Within sub tree) :
    (leaves sub).count 1 ≤ (leaves tree).count 1 := by
  induction grown with
  | leaf info _ =>
      rcases within_leaf inside with rfl | rfl
      · exact Nat.le_refl _
      · exact Nat.zero_le _
  | split info _ onLeft onRight leftIh rightIh =>
      cases inside with
      | self => exact Nat.le_refl _
      | left inside =>
          rw [leaves_split info onLeft, List.count_append]
          exact Nat.le_trans (leftIh inside) (Nat.le_add_right _ _)
      | right inside =>
          rw [leaves_split info onLeft, List.count_append]
          exact Nat.le_trans (rightIh inside) (Nat.le_add_left _ _)

theorem pruned_few (labels : List Int) (label : Int) (pruned : prunedTo labels = some label) :
    labels.count 1 ≤ 1 := by
  have zeros_few : (∀ label ∈ labels, label = 0 ∨ label = 2) → labels.count 1 = 0 := fun zeros =>
    List.count_eq_zero.mpr fun member => by
      rcases zeros 1 member with wrong | wrong <;> exact absurd wrong (by decide)
  rcases prunedTo_cases labels with ⟨twos, _⟩ | ⟨_, zeros, _⟩ | ⟨_, single, _⟩ | ⟨_, _, none⟩
  · exact Nat.le_trans (Nat.le_of_eq (zeros_few (zeros_of_twos labels twos))) (Nat.zero_le 1)
  · exact Nat.le_trans (Nat.le_of_eq (zeros_few zeros)) (Nat.zero_le 1)
  · exact Nat.le_of_eq single
  · rw [none] at pruned
    nomatch pruned

theorem joined_few (tree : TreeNode) (label : Int) (grown : Grown tree)
    (pruned : prunedTo (leaves tree) = some label) (sub : TreeNode) (inside : Within sub tree) :
    ¬ TwoOnes sub := by
  rintro ⟨two, _⟩
  have fewer := within_count grown inside
  have few := pruned_few (leaves tree) label pruned
  omega

theorem complete_leaf (info : NodeInfo) : Complete (.node .null .null info) := by
  intro one other info' inside
  rcases within_leaf inside with same | same
  · injection same with wrong
    nomatch wrong
  · nomatch same

theorem complete_split (left right : TreeNode) (info : NodeInfo) :
    Complete (.node left right info) ↔
    Complete left ∧ Complete right ∧ ∀ one other, left = .node .null .null one →
      right = .node .null .null other →
      ¬ Compatible one.leaf other.leaf ∧
        (one.leaf = 0 ∧ other.leaf = 1 ∨ one.leaf = 1 ∧ other.leaf = 0) := by
  constructor
  · intro complete
    refine ⟨fun one other info' inside => complete one other info' (.left inside),
      fun one other info' inside => complete one other info' (.right inside), ?_⟩
    rintro one other rfl rfl
    exact complete one other info .self
  · rintro ⟨onLeft, onRight, pair⟩ one other info' inside
    cases inside with
    | self => exact pair one other rfl rfl
    | left inside => exact onLeft one other info' inside
    | right inside => exact onRight one other info' inside

theorem kept_pair (l r : Int) (left : l = 0 ∨ l = 1 ∨ l = 2) (right : r = 0 ∨ r = 1 ∨ r = 2)
    (kept : Int.lor l r = 1) :
    ¬ (l = 1 ∧ r = 1) ↔ ¬ Compatible l r ∧ (l = 0 ∧ r = 1 ∨ l = 1 ∧ r = 0) := by
  rcases left with rfl | rfl | rfl <;> rcases right with rfl | rfl | rfl <;>
    first
    | exact absurd kept (by decide)
    | simp [Compatible]

theorem twoOnes_parts {left right : TreeNode} (info : NodeInfo) (onLeft : Grown left) :
    TwoOnes (.node left right info) ↔ (leaves left).count 1 + (leaves right).count 1 = 2 ∧
      (∀ label ∈ leaves left, label = 1 ∨ label = 2) ∧ ∀ label ∈ leaves right, label = 1 ∨
        label = 2 := by
  rw [TwoOnes, leaves_split info onLeft, List.count_append, List.forall_mem_append]

theorem joined_ones (labels : List Int) (label : Int) (pruned : prunedTo labels = some label) :
    label = 1 ↔ (∀ label ∈ labels, label = 1 ∨ label = 2) ∧ labels.count 1 = 1 := by
  constructor
  · rintro rfl
    rcases prunedTo_cases labels with ⟨_, was⟩ | ⟨_, _, was⟩ | ⟨ones, single, _⟩ | ⟨_, _, was⟩
    · exact absurd (pruned.symm.trans was) (by decide)
    · exact absurd (pruned.symm.trans was) (by decide)
    · exact ⟨ones, single⟩
    · exact absurd (pruned.symm.trans was) (by decide)
  · rintro ⟨ones, single⟩
    exact Option.some.inj (pruned.symm.trans (pruned_one labels ones single))

theorem kept_ones (labels : List Int) (kept : prunedTo labels = none)
    (ones : ∀ label ∈ labels, label = 1 ∨ label = 2) :
    2 ≤ labels.count 1 := by
  have some_one : labels.count 1 ≠ 0 := fun absent => by
    rw [pruned_two labels ((without_one labels ones).mp absent)] at kept
    nomatch kept
  have not_single : labels.count 1 ≠ 1 := fun single => by
    rw [pruned_one labels ones single] at kept
    nomatch kept
  omega

theorem joined_pair (left right : TreeNode) (info : NodeInfo) (onLeft : Grown left) (l r : Int)
    (leftPruned : prunedTo (leaves left) = some l)
    (rightPruned : prunedTo (leaves right) = some r) :
    TwoOnes (.node left right info) ↔ l = 1 ∧ r = 1 := by
  rw [twoOnes_parts info onLeft, joined_ones _ l leftPruned, joined_ones _ r rightPruned]
  have leftFew := pruned_few _ l leftPruned
  have rightFew := pruned_few _ r rightPruned
  constructor
  · rintro ⟨two, leftOnes, rightOnes⟩
    exact ⟨⟨leftOnes, by omega⟩, rightOnes, by omega⟩
  · rintro ⟨⟨leftOnes, leftSingle⟩, rightOnes, rightSingle⟩
    exact ⟨by omega, leftOnes, rightOnes⟩

theorem kept_left (left right : TreeNode) (info : NodeInfo) (onLeft : Grown left)
    (kept : prunedTo (leaves left) = none) (two : TwoOnes (.node left right info)) :
    TwoOnes left := by
  obtain ⟨two, leftOnes, _⟩ := (twoOnes_parts info onLeft).mp two
  have many := kept_ones (leaves left) kept leftOnes
  exact ⟨by omega, leftOnes⟩

theorem kept_right (left right : TreeNode) (info : NodeInfo) (onLeft : Grown left)
    (kept : prunedTo (leaves right) = none) (two : TwoOnes (.node left right info)) :
    TwoOnes right := by
  obtain ⟨two, _, rightOnes⟩ := (twoOnes_parts info onLeft).mp two
  have many := kept_ones (leaves right) kept rightOnes
  exact ⟨by omega, rightOnes⟩

theorem kept_inner (tree : TreeNode) (grown : Grown tree) (kept : prunedTo (leaves tree) = none)
    (one : NodeInfo) :
    (doPruning tree).1 ≠ .node .null .null one := by
  intro atLeaf
  rcases pruning_shape tree grown with ⟨label, pruned, _⟩ | ⟨_, _, left, right, info, _, inner, run⟩
  · rw [kept] at pruned
    nomatch pruned
  · rw [run] at atLeaf
    injection atLeaf with gone
    exact inner gone

/-- The step of the induction: when nothing in the children has two ones, the kept node is no pair
that could be merged exactly when it has not two ones itself. -/
theorem pair_step (left right : TreeNode) (info : NodeInfo) (onLeft : Grown left)
    (onRight : Grown right) (kept : prunedTo (leaves (.node left right info)) = none)
    (leftFew : ¬ TwoOnes left) (rightFew : ¬ TwoOnes right) :
    (∀ one other, (doPruning left).1 = .node .null .null one →
      (doPruning right).1 = .node .null .null other →
      ¬ Compatible one.leaf other.leaf ∧
        (one.leaf = 0 ∧ other.leaf = 1 ∨ one.leaf = 1 ∧ other.leaf = 0)) ↔
      ¬ TwoOnes (.node left right info) := by
  rcases pruning_shape left onLeft with ⟨l, leftPruned, leftInfo, _, leftLabel, leftRun⟩ |
      ⟨leftKept, _⟩
  · rcases pruning_shape right onRight with ⟨r, rightPruned, rightInfo, _, rightLabel, rightRun⟩ |
        ⟨rightKept, _⟩
    · have blocked : Int.lor l r = 1 := by
        by_contra merged
        rw [leaves_split info onLeft, prunedTo_append] at kept
        simp [leftPruned, rightPruned, merged] at kept
      have pair := kept_pair l r (pruned_label _ l leftPruned) (pruned_label _ r rightPruned)
          blocked
      rw [joined_pair left right info onLeft l r leftPruned rightPruned, pair, leftRun, rightRun,
        ← leftLabel, ← rightLabel]
      constructor
      · intro pairs
        exact pairs leftInfo rightInfo rfl rfl
      · rintro good one other same same'
        injection same with _ _ same
        injection same' with _ _ same'
        rw [← same, ← same']
        exact good
    · exact iff_of_true (fun one other _ atLeaf => absurd atLeaf
        (kept_inner right onRight rightKept other))
        fun two => rightFew (kept_right left right info onLeft rightKept two)
  · exact iff_of_true (fun one other atLeaf => absurd atLeaf (kept_inner left onLeft leftKept one))
      fun two => leftFew (kept_left left right info onLeft leftKept two)

/-- The pass leaves only pairs of 0 and 1 exactly when no subtree has two leaves with the label 1
and otherwise only leaves with the label 2. -/
theorem pruning_complete (tree : TreeNode) (grown : Grown tree) :
    Complete (doPruning tree).1 ↔ ∀ sub, Within sub tree → ¬ TwoOnes sub := by
  induction grown with
  | leaf info label =>
      obtain ⟨⟨merged, _, _, run⟩, pruned⟩ := joined_leaf info label
      rw [run]
      exact iff_of_true (complete_leaf merged) (joined_few _ _ (.leaf info label) pruned)
  | @split left right info unmarked onLeft onRight leftIh rightIh =>
      have grown := Grown.split info unmarked onLeft onRight
      rcases pruning_shape _ grown with ⟨label, pruned, merged, _, _, run⟩ |
          ⟨kept, _, _, _, _, shape, _, run⟩
      · rw [run]
        exact iff_of_true (complete_leaf merged) (joined_few _ label grown pruned)
      · injection shape with leftSame rightSame infoSame
        subst leftSame rightSame infoSame
        rw [run, complete_split, leftIh, rightIh]
        constructor
        · rintro ⟨leftFew, rightFew, pairs⟩ sub inside
          cases inside with
          | self =>
              exact (pair_step left right info onLeft onRight kept (leftFew left .self)
                (rightFew right .self)).mp pairs
          | left inside => exact leftFew sub inside
          | right inside => exact rightFew sub inside
        · intro few
          exact ⟨fun sub inside => few sub (.left inside), fun sub inside => few sub
            (.right inside),
            (pair_step left right info onLeft onRight kept (few left (.left .self))
              (few right (.right .self))).mpr
              (few _ .self)⟩

def twoOnes : TreeNode :=
  .node (.node .null .null ⟨[], [], 0, false, 1⟩) (.node .null .null ⟨[], [], 0, false, 1⟩)
    ⟨[], [], 0, false, -1⟩

theorem grown_twoOnes : Grown twoOnes :=
  .split _ rfl (.leaf _ (Or.inr (Or.inl rfl))) (.leaf _ (Or.inr (Or.inl rfl)))

theorem pruning_complete_pair :
    Grown twoOnes ∧ (Complete (doPruning twoOnes).1 ↔ ∀ sub, Within sub twoOnes → ¬ TwoOnes sub) :=
  ⟨grown_twoOnes, pruning_complete twoOnes grown_twoOnes⟩

theorem two_ones_stay : ¬ ∀ tree, Grown tree → Complete (doPruning tree).1 := by
  intro complete
  have stays : (doPruning twoOnes).1 = .node (.node .null .null ⟨[], [], 0, true, 1⟩)
      (.node .null .null ⟨[], [], 0, true, 1⟩) ⟨[], [], 0, false, -1⟩ := by decide +kernel
  have pairs := complete twoOnes grown_twoOnes
  rw [stays] at pairs
  exact (pairs _ _ _ .self).1 (Or.inl rfl)

end LazyAS.PruningPairs

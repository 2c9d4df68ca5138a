import LazyAS.TreeFile
import LazyAS.TreeLevels

/-! The statistics doPruning.cpp prints for a tree: `levelOrder` and `getLeafDepth`.
Nodes are the heap nodes of the reader; `garbage` is what `back` gives on an empty queue,
and `fuel` bounds the nodes visited and the calls on the stack. -/
namespace LazyAS.TreeStatistics
open TreeFile WireText TreeLevels

def Laid (heap : Nat → HeapNode) : Option Nat → BinaryTree Nat → Prop
  | root, .nil => root = none
  | root, .node i left right =>
      root = some i ∧ Laid heap (heap i).left left ∧ Laid heap (heap i).right right

/-- A pointer to a binary tree: no node hangs in two places. -/
def Stored (heap : Nat → HeapNode) (root : Option Nat) (tree : BinaryTree Nat) : Prop :=
  Laid heap root tree ∧ (values tree).Nodup

/-! `levelOrder`. -/

structure Levels where
  q : List Nat
  endLevel : Option Nat
  curLevel : List Text
  result : List (List Text)

def back (garbage : Option Nat) (q : List Nat) : Option Nat :=
  match q.getLast? with
  | some last => some last
  | none => garbage

def children (heap : Nat → HeapNode) (i : Nat) : List Nat :=
  (heap i).left.toList ++ (heap i).right.toList

/-- The body of the loop, for the node `tmp` that was popped off the queue `q`. -/
def visit (heap : Nat → HeapNode) (garbage : Option Nat) (tmp : Nat) (q : List Nat) (s : Levels) :
    Levels :=
  let curLevel := s.curLevel ++ [(heap tmp).condition]
  let q := q ++ children heap tmp
  if some tmp = s.endLevel then ⟨q, back garbage q, [], s.result ++ [curLevel]⟩
  else ⟨q, s.endLevel, curLevel, s.result⟩

def levelLoop (heap : Nat → HeapNode) (garbage : Option Nat) :
    Nat → Levels → Option (List (List Text))
  | fuel, s =>
      match s.q, fuel with
      | [], _ => some s.result
      | _ :: _, 0 => none
      | tmp :: q, fuel + 1 => levelLoop heap garbage fuel (visit heap garbage tmp q s)

def levelOrder (heap : Nat → HeapNode) (garbage : Option Nat) (fuel : Nat) :
    Option Nat → Option (List (List Text))
  | none => some []
  | some root => levelLoop heap garbage fuel ⟨[root], some root, [], []⟩

/-! `getLeafDepth`. -/

structure Counters where
  curDepth : Int
  totalDepth : Int
  totalLeafSize : Int
  deriving DecidableEq, Repr

/-- `a + b` in `int`; `none` is the undefined overflow. -/
def addInt (a b : Int) : Option Int :=
  if -2 ^ 31 ≤ a + b ∧ a + b < 2 ^ 31 then some (a + b) else none

/-- `if (child != NULL) { curDepth++; getLeafDepth(child, ...); curDepth--; }`, which the
function holds twice. -/
def descend (call : Option Nat → Counters → Option Counters) (child : Option Nat) (c : Counters) :
    Option Counters :=
  if child = none then some c
  else do
    let down ← addInt c.curDepth 1
    let c ← call child { c with curDepth := down }
    let up ← addInt c.curDepth (-1)
    return { c with curDepth := up }

/-- `none` is undefined behaviour: an `int` overflow or a null `root`. -/
def getLeafDepth (heap : Nat → HeapNode) : Nat → Option Nat → Counters → Option Counters
  | 0, _, _ => none
  | _ + 1, none, _ => none
  | fuel + 1, some root, c =>
      if (heap root).left = none ∧ (heap root).right = none then do
        let totalDepth ← addInt c.totalDepth c.curDepth
        let totalLeafSize ← addInt c.totalLeafSize 1
        return { c with totalDepth := totalDepth, totalLeafSize := totalLeafSize }
      else do
        let c ← descend (getLeafDepth heap fuel) (heap root).left c
        descend (getLeafDepth heap fuel) (heap root).right c

/-! The queue from level to level. -/

theorem visit_inner (heap : Nat → HeapNode) (garbage : Option Nat) (tmp last : Nat) (q : List Nat)
    (curLevel : List Text) (result : List (List Text)) (inner : tmp ≠ last) :
    visit heap garbage tmp q ⟨tmp :: q, some last, curLevel, result⟩ =
      ⟨q ++ children heap tmp, some last, curLevel ++ [(heap tmp).condition], result⟩ := by
  simp [visit, inner]

theorem visit_last (heap : Nat → HeapNode) (garbage : Option Nat) (last : Nat) (q : List Nat)
    (curLevel : List Text) (result : List (List Text)) :
    visit heap garbage last q ⟨last :: q, some last, curLevel, result⟩ =
      ⟨q ++ children heap last, back garbage (q ++ children heap last), [],
        result ++ [curLevel ++ [(heap last).condition]]⟩ := by
  simp [visit]

/-- One level: the passes up to the remembered end of it put its conditions into one
element of the result and leave the queue with the children of the whole level. -/
theorem level_pass (heap : Nat → HeapNode) (garbage : Option Nat) (fuel : Nat) (before : List Nat)
    (last : Nat) (next : List Nat) (curLevel : List Text) (result : List (List Text))
    (inner : last ∉ before) :
    levelLoop heap garbage (fuel + (before ++ [last]).length)
        ⟨(before ++ [last]) ++ next, some last, curLevel, result⟩ =
      levelLoop heap garbage fuel
        ⟨next ++ (before ++ [last]).flatMap (children heap),
          back garbage (next ++ (before ++ [last]).flatMap (children heap)), [],
          result ++ [curLevel ++ (before ++ [last]).map fun i => (heap i).condition]⟩ := by
  induction before generalizing next curLevel with
  | nil =>
      change levelLoop heap garbage fuel (visit heap garbage last next _) = _
      rw [List.nil_append, List.singleton_append, visit_last]
      simp
  | cons tmp before ih =>
      simp only [List.mem_cons, not_or] at inner
      change levelLoop heap garbage (fuel + (before ++ [last]).length)
        (visit heap garbage tmp ((before ++ [last]) ++ next) _) = _
      rw [List.cons_append, List.cons_append,
        visit_inner heap garbage tmp last _ _ _ (Ne.symm inner.1), List.append_assoc,
        ih (next ++ children heap tmp) (curLevel ++ [(heap tmp).condition]) inner.2]
      simp

theorem children_atDepth (heap : Nat → HeapNode) (root : Option Nat) (tree : BinaryTree Nat)
    (laid : Laid heap root tree) (depth : Nat) :
    (atDepth tree depth).flatMap (children heap) = atDepth tree (depth + 1) := by
  induction tree generalizing root depth with
  | nil => rfl
  | node i left right ihLeft ihRight =>
      obtain ⟨-, onLeft, onRight⟩ := laid
      cases depth with
      | zero =>
          have top (child : Option Nat) (below : BinaryTree Nat) (hangs : Laid heap child below) :
              atDepth below 0 = child.toList := by
            cases below with
            | nil => rw [show child = none from hangs]; rfl
            | node => rw [hangs.1]; rfl
          simp only [atDepth, List.flatMap_cons, List.flatMap_nil, List.append_nil, children,
            top _ left onLeft, top _ right onRight]
      | succ depth =>
          simp only [atDepth, List.flatMap_append, ihLeft _ onLeft, ihRight _ onRight]

theorem levels_run (heap : Nat → HeapNode) (garbage : Option Nat) (root : Option Nat)
    (tree : BinaryTree Nat) (stored : Stored heap root tree) (remaining depth : Nat)
    (end' : depth + remaining = tree.height) (fuel : Nat)
    (enough : ((List.range' depth remaining).map fun i => (atDepth tree i).length).sum ≤ fuel)
    (result : List (List Text)) :
    levelLoop heap garbage fuel ⟨atDepth tree depth, back garbage (atDepth tree depth), [],
      result⟩ =
      some (result ++ (List.range' depth remaining).map fun i => (atDepth tree i).map fun a =>
        (heap a).condition) := by
  -- from the nodes of one depth on, the loop adds the levels that are left
  induction remaining generalizing depth fuel result with
  | zero =>
      have past : atDepth tree depth = [] := (atDepth_eq_nil tree depth).mpr (by omega)
      rw [past]
      simp [levelLoop]
  | succ remaining ih =>
      have present : atDepth tree depth ≠ [] := by
        rw [ne_eq, atDepth_eq_nil]
        omega
      obtain ⟨before, last, level⟩ : ∃ before last, atDepth tree depth = before ++ [last] :=
        ⟨_, _, (List.dropLast_append_getLast present).symm⟩
      -- the last node stands in its level once, so no node before it is taken for the end
      have inner : last ∉ before := by
        have once := (atDepth_sublist tree depth).nodup stored.2
        rw [level, List.nodup_append] at once
        exact fun member => once.2.2 last member last (List.mem_singleton_self last) rfl
      have behind : (before ++ [last]).flatMap (children heap) = atDepth tree (depth + 1) := by
        rw [← level]
        exact children_atDepth heap root tree stored.1 depth
      simp only [List.range'_succ, List.map_cons, List.sum_cons] at enough
      obtain ⟨spare, rfl⟩ : ∃ spare, fuel = spare + (atDepth tree depth).length :=
        ⟨fuel - (atDepth tree depth).length, by omega⟩
      have pass := level_pass heap garbage spare before last [] [] result inner
      rw [List.append_nil, List.nil_append, behind, List.nil_append] at pass
      have stop : back garbage (before ++ [last]) = some last := by simp [back]
      rw [level, stop, pass, ih (depth + 1) (by omega) spare (by omega)]
      simp [List.range'_succ, level]

theorem levelOrder_levels (heap : Nat → HeapNode) (garbage : Option Nat) (root : Option Nat)
    (tree : BinaryTree Nat) (stored : Stored heap root tree) (fuel : Nat)
    (enough : tree.numNodes ≤ fuel) :
    levelOrder heap garbage fuel root =
      some ((List.range tree.height).map fun i => (atDepth tree i).map fun a =>
        (heap a).condition) := by
  cases tree with
  | nil =>
      rw [show root = none from stored.1]
      rfl
  | node i left right =>
      rw [stored.1.1]
      have nodes := sum_levels (.node i left right) _ le_rfl
      rw [List.range_eq_range'] at nodes ⊢
      have run := levels_run heap garbage root _ stored (BinaryTree.node i left right).height 0
          (Nat.zero_add _)
        fuel (by omega) []
      rw [List.nil_append] at run
      exact run

/-! The shared counters of the recursion. -/

theorem addInt_nat (a b : Nat) (small : a + b < 2 ^ 31) :
    addInt a b = some ((a + b : Nat) : Int) := by
  rw [addInt, if_pos (by omega), Int.natCast_add]

theorem addInt_pred (a : Nat) (small : a < 2 ^ 31) :
    addInt ((a + 1 : Nat) : Int) (-1) = some (a : Int) := by
  rw [addInt, if_pos (by omega)]
  congr 1
  omega

theorem addInt_lt (a b sum : Int) (added : addInt a b = some sum) : sum < 2 ^ 31 := by
  simp only [addInt, Option.ite_none_right_eq_some, Option.some.injEq] at added
  omega

/-- The counters at the start of a call at `depth`. -/
def counted (depth totalDepth totalLeafSize : Nat) : Counters := ⟨depth, totalDepth, totalLeafSize⟩

theorem descend_counts (heap : Nat → HeapNode) (fuel depth total leaves : Nat) (child : Option Nat)
    (tree : BinaryTree Nat) (laid : Laid heap child tree)
    (fits : total + (leafDepths (depth + 1) tree).sum < 2 ^ 31)
    (call : tree ≠ .nil → getLeafDepth heap fuel child (counted (depth + 1) total leaves) =
      some (counted (depth + 1) (total + (leafDepths (depth + 1) tree).sum)
        (leaves + (leafDepths (depth + 1) tree).length))) :
    descend (getLeafDepth heap fuel) child (counted depth total leaves) =
      some (counted depth (total + (leafDepths (depth + 1) tree).sum)
        (leaves + (leafDepths (depth + 1) tree).length)) := by
  -- what a call does to the counters, when it counts the tree below its pointer right
  cases tree with
  | nil =>
      rw [show child = none from laid]
      simp [descend, leafDepths]
  | node i left right =>
      have shallow := depth_le_sum (depth + 1) (.node i left right) (by simp)
      have down : addInt (counted depth total leaves).curDepth 1 = some ((depth + 1 : Nat) : Int) :=
        addInt_nat depth 1 (by omega)
      have up : addInt ((depth + 1 : Nat) : Int) (-1) = some (depth : Int) :=
        addInt_pred depth (by omega)
      have inside := call (by simp)
      simp only [counted] at inside
      rw [descend, if_neg (by simp [laid.1]), down]
      simp only [counted, Option.bind_eq_bind, Option.bind_some, inside, up]
      rfl

theorem laid_none (heap : Nat → HeapNode) (child : Option Nat) (tree : BinaryTree Nat)
    (laid : Laid heap child tree) : child = none ↔ tree = .nil := by
  cases tree with
  | nil => exact iff_of_true laid rfl
  | node => simp [laid.1]

theorem getLeafDepth_counts (heap : Nat → HeapNode) (root : Option Nat) (tree : BinaryTree Nat)
    (laid : Laid heap root tree) (rooted : tree ≠ .nil) (fuel depth total leaves : Nat)
    (enough : tree.height ≤ fuel) (fits : total + (leafDepths depth tree).sum < 2 ^ 31)
    (few : leaves + (leafDepths depth tree).length < 2 ^ 31) :
    getLeafDepth heap fuel root (counted depth total leaves) =
      some (counted depth (total + (leafDepths depth tree).sum)
        (leaves + (leafDepths depth tree).length)) := by
  -- a call adds up the leaves below its pointer and restores `curDepth`
  induction tree generalizing root fuel depth total leaves with
  | nil => exact absurd rfl rooted
  | node i left right ihLeft ihRight =>
      obtain ⟨rfl, onLeft, onRight⟩ := laid
      simp only [BinaryTree.height] at enough
      obtain ⟨fuel, rfl⟩ : ∃ below, fuel = below + 1 := ⟨fuel - 1, by omega⟩
      by_cases inner : left ≠ .nil ∨ right ≠ .nil
      · rw [leafDepths_inner depth i left right inner, List.sum_append, ← Nat.add_assoc] at fits
        rw [leafDepths_inner depth i left right inner, List.length_append, ← Nat.add_assoc] at few
        have first := descend_counts heap fuel depth total leaves _ left onLeft
            (by omega) fun present =>
          ihLeft _ onLeft present fuel (depth + 1) total leaves (by omega) (by omega) (by omega)
        -- the second call starts from the counters that the first one leaves
        have second := descend_counts heap fuel depth _ _ _ right onRight fits fun present =>
          ihRight _ onRight present fuel (depth + 1) _ _ (by omega) fits few
        have noLeaf : ¬ ((heap i).left = none ∧ (heap i).right = none) := by
          rw [laid_none heap _ left onLeft, laid_none heap _ right onRight]
          exact not_and_or.mpr inner
        rw [leafDepths_inner depth i left right inner, List.sum_append, List.length_append,
          ← Nat.add_assoc, ← Nat.add_assoc, getLeafDepth, if_neg noLeaf, first]
        exact second
      · simp only [not_or, not_not] at inner
        obtain ⟨rfl, rfl⟩ := inner
        simp only [leafDepths, List.sum_singleton, List.length_singleton] at fits few ⊢
        have deep : addInt (counted depth total leaves).totalDepth
            (counted depth total leaves).curDepth =
            some ((total + depth : Nat) : Int) := addInt_nat total depth fits
        have more : addInt (counted depth total leaves).totalLeafSize 1 =
            some ((leaves + 1 : Nat) : Int) :=
          addInt_nat leaves 1 few
        rw [getLeafDepth, if_pos ⟨onLeft, onRight⟩, deep, more]
        rfl

theorem descend_int (call : Option Nat → Counters → Option Counters)
    (int : ∀ child c c', c.totalDepth < 2 ^ 31 → call child c = some c' → c'.totalDepth < 2 ^ 31)
    (child : Option Nat) (c c' : Counters) (before : c.totalDepth < 2 ^ 31)
    (returned : descend call child c = some c') : c'.totalDepth < 2 ^ 31 := by
  by_cases null : child = none
  · simp only [descend, null, ↓reduceIte, Option.some.injEq] at returned
    rwa [← returned]
  · simp only [descend, null, ↓reduceIte, Option.bind_eq_bind, Option.bind_eq_some_iff,
      Option.pure_def, Option.some.injEq] at returned
    obtain ⟨down, -, inside, called, up, -, rfl⟩ := returned
    exact int child { c with curDepth := down } inside before called

theorem getLeafDepth_int (heap : Nat → HeapNode) (fuel : Nat) (root : Option Nat) (c c' : Counters)
    (before : c.totalDepth < 2 ^ 31) (returned : getLeafDepth heap fuel root c = some c') :
    c'.totalDepth < 2 ^ 31 := by
  induction fuel generalizing root c c' with
  | zero => simp [getLeafDepth] at returned
  | succ fuel ih =>
      cases root with
      | none => simp [getLeafDepth] at returned
      | some root =>
          by_cases leaf : (heap root).left = none ∧ (heap root).right = none
          · simp only [getLeafDepth, leaf, and_self, ↓reduceIte, Option.bind_eq_bind,
              Option.bind_eq_some_iff, Option.pure_def, Option.some.injEq] at returned
            obtain ⟨deeper, added, -, -, rfl⟩ := returned
            exact addInt_lt _ _ deeper added
          · rw [getLeafDepth, if_neg leaf, Option.bind_eq_bind, Option.bind_eq_some_iff] at returned
            obtain ⟨between, first, second⟩ := returned
            have int := descend_int (getLeafDepth heap fuel) fun child c c' small =>
                ih child c c' small
            exact int _ between c' (int _ c between before first) second

/-- `levelOrder` gives the conditions of each level, so as many lists as the tree has levels
and as many conditions as it has nodes. -/
structure LevelsExact (heap : Nat → HeapNode) (tree : BinaryTree Nat) (result : List (List Text)) :
    Prop where
  levels : result.length = tree.height
  level : ∀ i, i < tree.height →
    result[i]? = some ((atDepth tree i).map fun a => (heap a).condition)
  nodes : (result.map List.length).sum = tree.numNodes

/-- `getLeafDepth` called with zeros gives the sum of the leaves' depths and their number. -/
def LeavesExact (heap : Nat → HeapNode) (root : Option Nat) (tree : BinaryTree Nat) : Prop :=
  ∃ fuel, getLeafDepth heap fuel root ⟨0, 0, 0⟩ =
    some ⟨0, (leafDepths 0 tree).sum, (leafDepths 0 tree).length⟩

theorem levelsExact (heap : Nat → HeapNode) (tree : BinaryTree Nat) :
    LevelsExact heap tree
      ((List.range tree.height).map fun i => (atDepth tree i).map fun a => (heap a).condition) where
  levels := by simp
  level i inside := by simp [inside]
  nodes := by
    rw [← sum_levels tree tree.height le_rfl, List.map_map]
    simp [Function.comp_def]

theorem leavesExact_iff (heap : Nat → HeapNode) (root : Option Nat) (tree : BinaryTree Nat)
    (laid : Laid heap root tree) (rooted : tree ≠ .nil) :
    LeavesExact heap root tree ↔ (leafDepths 0 tree).sum < 2 ^ 31 := by
  constructor
  · rintro ⟨fuel, returned⟩
    have int := getLeafDepth_int heap fuel root ⟨0, 0, 0⟩ _ (by simp) returned
    simp only at int
    exact_mod_cast int
  · intro fits
    -- but for a lone root no leaf is counted that does not add to the sum
    have few : (leafDepths 0 tree).length < 2 ^ 31 := by
      cases tree with
      | nil => exact absurd rfl rooted
      | node i left right =>
          by_cases inner : left ≠ .nil ∨ right ≠ .nil
          · exact (leaves_le_depths i left right inner).trans_lt fits
          · simp only [not_or, not_not] at inner
            simp [inner.1, inner.2, leafDepths]
    have run := getLeafDepth_counts heap root tree laid rooted tree.height 0 0 0 le_rfl (by omega)
        (by omega)
    rw [Nat.zero_add, Nat.zero_add] at run
    exact ⟨tree.height, run⟩

/-- For every binary tree, whatever the back of the empty queue is, `levelOrder` returns its
levels, in one pass for each node; for every tree with a root `getLeafDepth` returns its
leaves' depths and number exactly when the depths add up to an `int`. -/
theorem statistics_exact (heap : Nat → HeapNode) (root : Option Nat) (tree : BinaryTree Nat)
    (stored : Stored heap root tree) (garbage : Option Nat) :
    (∃ result, (∀ fuel, tree.numNodes ≤ fuel → levelOrder heap garbage fuel root = some result) ∧
      LevelsExact heap tree result) ∧
    (tree ≠ .nil → (LeavesExact heap root tree ↔ (leafDepths 0 tree).sum < 2 ^ 31)) := by
  constructor
  · exact ⟨_, levelOrder_levels heap garbage root tree stored, levelsExact heap tree⟩
  · exact leavesExact_iff heap root tree stored.1

def stump : Nat → HeapNode :=
  Function.update (fun _ => rootNode) 0 { rootNode with left := some 1, right := some 2 }

theorem statistics_exact_stump :
    (∃ result, (∀ fuel, 3 ≤ fuel → levelOrder stump (some 7) fuel (some 0) = some result) ∧
      LevelsExact stump (.node 0 (.node 1 .nil .nil) (.node 2 .nil .nil)) result) ∧
    (BinaryTree.node 0 (.node 1 .nil .nil) (.node 2 .nil .nil) ≠ .nil →
      (LeavesExact stump (some 0) (.node 0 (.node 1 .nil .nil) (.node 2 .nil .nil)) ↔
        (leafDepths 0 (BinaryTree.node 0 (.node 1 .nil .nil) (.node 2 .nil .nil))).sum < 2 ^ 31)) :=
  statistics_exact stump (some 0) (.node 0 (.node 1 .nil .nil) (.node 2 .nil .nil))
    ⟨by simp [Laid, stump, rootNode], by simp [values]⟩ (some 7)

/-! A tree that is deeper than an `int` can add up. -/

/-- A spine of `n` inner nodes, a leaf on the left of each, and a leaf at its end. -/
def comb : Nat → Nat → BinaryTree Nat
  | start, 0 => .node (2 * start) .nil .nil
  | start, n + 1 => .node (2 * start) (.node (2 * start + 1) .nil .nil) (comb (start + 1) n)

def combHeap (n i : Nat) : HeapNode :=
  if i % 2 = 0 ∧ i / 2 < n then { rootNode with left := some (i + 1), right := some (i + 2) }
    else rootNode

theorem comb_rooted (start n : Nat) : comb start n ≠ .nil := by
  cases n <;> simp [comb]

theorem comb_laid (length start n : Nat) (reach : start + n = length) :
    Laid (combHeap length) (some (2 * start)) (comb start n) := by
  induction n generalizing start with
  | zero =>
      have outside : ¬ start < length := by omega
      simp [comb, Laid, combHeap, outside, rootNode]
  | succ n ih =>
      have inside : 2 * start % 2 = 0 ∧ 2 * start / 2 < length := by omega
      have behind := ih (start + 1) (by omega)
      rw [comb, Laid, combHeap, if_pos inside]
      constructor
      · rfl
      constructor
      · simp [Laid, combHeap, rootNode]
      · exact behind

theorem comb_addresses (start n : Nat) : ∀ i ∈ values (comb start n), 2 * start ≤ i := by
  induction n generalizing start with
  | zero => simp [comb, values]
  | succ n ih =>
      intro i member
      simp only [comb, values, List.append_nil, List.mem_cons, List.singleton_append] at member
      rcases member with rfl | rfl | later
      · exact le_rfl
      · omega
      · have := ih (start + 1) i later
        omega

theorem comb_nodup (start n : Nat) : (values (comb start n)).Nodup := by
  induction n generalizing start with
  | zero => simp [comb, values]
  | succ n ih =>
      have later := comb_addresses (start + 1) n
      simp only [comb, values, List.append_nil, List.singleton_append, List.nodup_cons,
        List.mem_cons, not_or]
      constructor
      · constructor
        · omega
        · intro member
          have := later _ member
          omega
      · constructor
        · intro member
          have := later _ member
          omega
        · exact ih (start + 1)

theorem comb_depths (depth start n : Nat) :
    2 * (leafDepths depth (comb start n)).sum = n * (n + 1) + 2 * n * depth + 2 * n +
      2 * depth := by
  induction n generalizing depth start with
  | zero => simp [comb, leafDepths]
  | succ n ih =>
      rw [comb, leafDepths_inner depth _ _ _ (Or.inl (by simp)), List.sum_append, Nat.mul_add, ih]
      simp only [leafDepths, List.sum_singleton]
      ring

theorem comb_overflows (n : Nat) (long : 2 ^ 32 ≤ n * (n + 1) + 2 * n) :
    ¬ LeavesExact (combHeap n) (some (2 * 0)) (comb 0 n) := by
  rw [leavesExact_iff _ _ _ (comb_laid n 0 n (Nat.zero_add n)) (comb_rooted 0 n)]
  have := comb_depths 0 0 n
  omega

/-- A spine of 65536 nodes is too deep to be counted in an `int`, and without a root there
is no node to look at. -/
theorem deep_tree_overflows :
    (Stored (combHeap 65536) (some (2 * 0)) (comb 0 65536) ∧
      ¬ LeavesExact (combHeap 65536) (some (2 * 0)) (comb 0 65536)) ∧
    Stored (combHeap 65536) none .nil ∧ ¬ LeavesExact (combHeap 65536) none .nil := by
  constructor
  · constructor
    · exact ⟨comb_laid 65536 0 65536 (by omega), comb_nodup 0 65536⟩
    · exact comb_overflows 65536 (by omega)
  · constructor
    · exact ⟨rfl, List.nodup_nil⟩
    · rintro ⟨fuel, returned⟩
      cases fuel <;> simp [getLeafDepth] at returned

end LazyAS.TreeStatistics

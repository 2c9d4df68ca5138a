import LazyAS.DualBandAccessControl
import LazyAS.TreeRoundTrip

/-! What a decision tree means: the label of the one leaf all of whose conditions hold. Both
programs find it in a tree whose inner nodes split on complementary conditions, whatever reader
built it. -/
namespace LazyAS.TreeDecision
open WireText DecisionTree TreeFile
open DualBandAccessControl (ProbeDeci ProbeInfo doDecision curValCon)

/-! The trees that the readers build. -/

/-- The node holds these fields. Where a threshold left the normal range of a `double`, the value
may be any. -/
structure HasInfo (node : HeapNode) (info : NodeInfo) : Prop where
  condition : info.condition = node.condition
  relation : info.relation = node.relation
  valueCon : ∀ value, node.valueCon = some value → info.valueCon = value
  leaf : info.leaf = node.leaf
  unmarked : info.canPruning = false

def HeapNode.info (node : HeapNode) : NodeInfo :=
  ⟨node.condition, node.relation, node.valueCon.getD 0, false, node.leaf⟩

theorem hasInfo_info (node : HeapNode) : HasInfo node (HeapNode.info node) := by
  constructor
  · rfl
  · rfl
  · intro value stored
    rw [HeapNode.info, stored, Option.getD_some]
  · rfl
  · rfl

def Represents (heap : Nat → HeapNode) : Option Nat → TreeNode → Prop
  | none, .null => True
  | some i, .node left right info =>
      HasInfo (heap i) info ∧ Represents heap (heap i).left left ∧
        Represents heap (heap i).right right
  | _, _ => False

/-- Every link of the heap leads to a later node, so there are no cycles. -/
structure Grounded (b : Builder) : Prop where
  left : ∀ i child, (b.heap i).left = some child → i < child ∧ child < b.next
  right : ∀ i child, (b.heap i).right = some child → i < child ∧ child < b.next
  parent : ∀ i above, (b.heap i).parent = some above → above < b.next
  last : b.last < b.next
  seen : ∀ pos i, b.m pos = some i → i < b.next

theorem initial_grounded : Grounded Builder.initial := by
  constructor
  · intro i child link
    simp [Builder.initial, rootNode] at link
  · intro i child link
    simp [Builder.initial, rootNode] at link
  · intro i above link
    simp [Builder.initial, rootNode] at link
  · exact Nat.zero_lt_one
  · intro pos i found
    simp [Builder.initial] at found

theorem parentAt_old (b : Builder) (pos : Int) (parent : Nat) (grounded : Grounded b)
    (found : parentAt b pos = some parent) : parent < b.next := by
  unfold parentAt at found
  split at found
  · cases sibling : b.m pos with
    | none =>
        rw [sibling, Option.some.injEq] at found
        exact found ▸ grounded.last
    | some i =>
        rw [sibling] at found
        exact grounded.parent i parent found
  · rw [Option.some.injEq] at found
    exact found ▸ grounded.last

theorem attach_link (b : Builder) (parent : Nat) (fields : Fields) (leaf : Int)
    (side : HeapNode → Option Nat)
    (bare : side ⟨none, none, some parent, fields.condition, fields.relation, fields.valueCon,
      fields.pos, leaf⟩ = none)
    (added : ∀ node c, side (addChild node b.next) = some c → c = b.next ∨ side node = some c)
    (i child : Nat)
    (link : side ((attach b parent fields leaf).heap i) = some child) :
    (i = parent ∧ child = b.next) ∨ side (b.heap i) = some child := by
  unfold attach at link
  dsimp only at link
  by_cases above : i = parent
  · subst above
    rw [Function.update_self] at link
    rcases added _ _ link with new | old
    · exact Or.inl ⟨rfl, new⟩
    · exact Or.inr old
  · rw [Function.update_of_ne above] at link
    by_cases new : i = b.next
    · rw [new, Function.update_self, bare] at link
      simp at link
    · rw [Function.update_of_ne new] at link
      exact Or.inr link

theorem attach_grounded (b : Builder) (parent : Nat) (fields : Fields) (leaf : Int)
    (grounded : Grounded b) (old : parent < b.next) : Grounded (attach b parent fields leaf) := by
  have next : (attach b parent fields leaf).next = b.next + 1 := rfl
  constructor
  · intro i child link
    have added (node : HeapNode) (c : Nat) (own : (addChild node b.next).left = some c) :
        c = b.next ∨ node.left = some c := by
      unfold addChild at own
      split at own
      · exact Or.inl (Option.some.inj own).symm
      · exact Or.inr own
    rcases attach_link b parent fields leaf HeapNode.left rfl added i child link with ⟨above, new⟩ |
        kept
    · omega
    · have bounds := grounded.left i child kept
      omega
  · intro i child link
    have added (node : HeapNode) (c : Nat) (own : (addChild node b.next).right = some c) :
        c = b.next ∨ node.right = some c := by
      unfold addChild at own
      split at own
      · exact Or.inr own
      · exact Or.inl (Option.some.inj own).symm
    rcases attach_link b parent fields leaf HeapNode.right rfl added i
        child link with ⟨above, new⟩ | kept
    · omega
    · have bounds := grounded.right i child kept
      omega
  · intro i above link
    by_cases here : i = parent
    · subst here
      have kept : (b.heap i).parent = some above := by
        simp only [attach, Function.update_self, addChild] at link
        split at link <;> exact link
      exact Nat.lt_succ_of_lt (grounded.parent i above kept)
    · by_cases new : i = b.next
      · subst new
        simp only [attach, ne_eq, here, not_false_eq_true, Function.update_of_ne,
          Function.update_self, Option.some.injEq] at link
        exact link ▸ Nat.lt_succ_of_lt old
      · simp only [attach, ne_eq, here, new, not_false_eq_true, Function.update_of_ne] at link
        exact Nat.lt_succ_of_lt (grounded.parent i above link)
  · exact Nat.lt_succ_self _
  · intro pos i found
    by_cases here : pos = fields.pos
    · subst here
      simp only [attach, Function.update_self, Option.some.injEq] at found
      exact found ▸ Nat.lt_succ_self _
    · simp only [attach, ne_eq, here, not_false_eq_true, Function.update_of_ne] at found
      exact Nat.lt_succ_of_lt (grounded.seen pos i found)

/-- What is built when the Java reader gets so far; nothing when it threw. -/
def Progress.Grounded : Progress → Prop
  | .reading b | .stopped b => TreeDecision.Grounded b
  | .threw => True

theorem javaLine_grounded (round : ℚ → Option ℚ) (b : Builder) (data : Text)
    (grounded : Grounded b) :
    Progress.Grounded (javaLine round b data) := by
  unfold javaLine
  cases javaFields round data with
  | none => trivial
  | some read =>
      cases read with
      | error _ => exact grounded
      | ok fields =>
          cases found : parentAt b fields.pos with
          | none => simp [found, Progress.Grounded]
          | some parent =>
              have attached leaf := attach_grounded b parent fields leaf grounded
                (parentAt_old b fields.pos parent grounded found)
              simp only [found]
              cases arrow data with
              | none => exact attached (-1)
              | some pos2 =>
                  cases digits : substring data (pos2 + 2) (pos2 + 4) with
                  | none => simp [digits, Progress.Grounded]
                  | some field =>
                      dsimp only
                      rw [digits]
                      dsimp only
                      cases parseInt (trim field) with
                      | none => exact attached (-1)
                      | some leaf => exact attached leaf

theorem java_grounded (round : ℚ → Option ℚ) (file : List Text) (b : Builder)
    (built : constructTreeJava round file = some b) : Grounded b := by
  have all : ∀ (progress : Progress), Progress.Grounded progress →
      Progress.Grounded (file.foldl (javaRead round) progress) := by
    clear built
    induction file with
    | nil => exact fun _ holds => holds
    | cons data file ih =>
        intro progress holds
        rw [List.foldl_cons]
        apply ih
        cases progress with
        | reading b => exact javaLine_grounded round b data holds
        | stopped b => exact holds
        | threw => trivial
  have final := all (.reading Builder.initial) initial_grounded
  unfold constructTreeJava at built
  cases ended : file.foldl (javaRead round) (.reading Builder.initial) with
  | threw => simp [ended] at built
  | reading b' =>
      rw [ended] at built final
      exact (Option.some.inj built) ▸ final
  | stopped b' =>
      rw [ended] at built final
      exact (Option.some.inj built) ▸ final

theorem cpp_grounded (round : ℚ → Option ℚ) (size : SizeT) (file : List Text) (b : Builder)
    (built : constructTreeCpp round size file = some b) : Grounded b := by
  have all : ∀ start : Builder, Grounded start → file.foldlM (cppLine round size) start = some b →
      Grounded b := by
    clear built
    induction file with
    | nil =>
        intro start grounded read
        exact (Option.some.inj read) ▸ grounded
    | cons data file ih =>
        intro start grounded read
        rw [List.foldlM_cons] at read
        cases line : cppLine round size start data with
        | none => simp [line] at read
        | some next =>
            rw [line] at read
            apply ih next _ read
            unfold cppLine at line
            cases fields : cppFields round data with
            | none => simp [fields] at line
            | some fields' =>
                cases found : parentAt start fields'.pos with
                | none => simp [fields, found] at line
                | some parent =>
                    cases leaf : cppLeaf size data with
                    | none => simp [fields, leaf] at line
                    | some leaf' =>
                        obtain rfl : attach start parent fields' leaf' = next := by
                          simpa [fields, found, leaf] using line
                        exact attach_grounded start parent fields' leaf' grounded
                          (parentAt_old start fields'.pos parent grounded found)
  exact all Builder.initial initial_grounded built

theorem grounded_represents (b : Builder) (grounded : Grounded b) (i : Nat) (known : i < b.next) :
    ∃ tree, Represents b.heap (some i) tree := by
  induction height : b.next - i using Nat.strong_induction_on generalizing i with
  | _ height ih =>
      have below (link : Option Nat) (later : ∀ child, link = some child → i < child ∧
          child < b.next) :
          ∃ tree, Represents b.heap link tree := by
        cases link with
        | none => exact ⟨.null, trivial⟩
        | some child =>
            have bounds := later child rfl
            exact ih (b.next - child) (by omega) child bounds.2 rfl
      cases below _ (grounded.left i) with
      | intro left onLeft =>
          cases below _ (grounded.right i) with
          | intro right onRight =>
              exact ⟨.node left right (HeapNode.info (b.heap i)), hasInfo_info _, onLeft, onRight⟩

theorem grounded_root (b : Builder) (grounded : Grounded b) :
    ∃ tree, Represents b.heap (some 0) tree :=
  grounded_represents b grounded 0 (Nat.lt_of_le_of_lt (Nat.zero_le _) grounded.last)

/-! What a tree says. -/

def under (child : TreeNode) (paths : List (List NodeInfo × Int)) : List (List NodeInfo × Int) :=
  match child with
  | .null => []
  | .node _ _ test => paths.map fun path => (test :: path.1, path.2)

def leafPaths : TreeNode → List (List NodeInfo × Int)
  | .null => []
  | .node .null .null info => [([], info.leaf)]
  | .node left right _ => under left (leafPaths left) ++ under right (leafPaths right)

def attributeValue (input : Features) : Attribute → Int
  | .rssi24 => input.rssi24
  | .rssi5 => input.rssi5
  | .au24 => input.au24
  | .au5 => input.au5

def compares (value : Int) (threshold : ℚ) : Relation → Bool
  | .lt => (value : ℚ) < threshold
  | .le => (value : ℚ) ≤ threshold
  | .gt => (value : ℚ) > threshold
  | .ge => (value : ℚ) ≥ threshold

def opposite : Relation → Relation
  | .lt => .ge
  | .le => .gt
  | .gt => .le
  | .ge => .lt

def Tests (info : NodeInfo) (attr : Attribute) (relation : Relation) : Prop :=
  info.condition = attr.text ∧ info.relation = relation.text

instance (info : NodeInfo) (attr : Attribute) (relation : Relation) :
    Decidable (Tests info attr relation) :=
  inferInstanceAs (Decidable (_ ∧ _))

def conditionHolds (input : Features) (info : NodeInfo) : Bool :=
  [Attribute.rssi24, .rssi5, .au24, .au5].any fun attr =>
    [Relation.lt, .le, .gt, .ge].any fun relation =>
      Tests info attr relation && compares (attributeValue input attr) info.valueCon relation

def Opposite (first second : NodeInfo) : Prop :=
  ∃ attr relation, Tests first attr relation ∧ Tests second attr (opposite relation) ∧
    second.valueCon = first.valueCon

/-- All inner nodes have two children with complementary conditions. -/
def Complementary : TreeNode → Prop
  | .null => False
  | .node .null .null _ => True
  | .node (.node a b first) (.node c d second) _ =>
      Opposite first second ∧ Complementary (.node a b first) ∧ Complementary (.node c d second)
  | .node _ _ _ => False

theorem conditionHolds_tests (input : Features) (info : NodeInfo) (attr : Attribute)
    (relation : Relation) (tests : Tests info attr relation) :
    conditionHolds input info = compares (attributeValue input attr) info.valueCon relation := by
  have same (attr' : Attribute) (relation' : Relation) :
      Tests info attr' relation' ↔ attr' = attr ∧ relation' = relation := by
    unfold Tests
    rw [tests.1, tests.2]
    cases attr <;> cases attr' <;> cases relation <;> cases relation' <;> decide
  unfold conditionHolds
  simp only [same]
  cases attr <;> cases relation <;> simp

theorem compares_opposite (value : Int) (threshold : ℚ) (relation : Relation) :
    compares value threshold (opposite relation) = !compares value threshold relation := by
  cases relation <;> simp [compares, opposite, ← decide_not]

theorem relationHolds_text (value : Int) (threshold : ℚ) (relation : Relation) :
    relationHolds relation.text value threshold = compares value threshold relation := by
  cases relation <;> simp [relationHolds, compares, Relation.text]

theorem opposite_holds (input : Features) (first second : NodeInfo)
    (complementary : Opposite first second) :
    conditionHolds input second = !conditionHolds input first := by
  obtain ⟨attr, relation, tests, testsOpposite, threshold⟩ := complementary
  rw [conditionHolds_tests input first attr relation tests,
    conditionHolds_tests input second attr (opposite relation) testsOpposite, threshold,
      compares_opposite]

/-! Both programs. -/

def probed (input : Features) (agent24 agent5 : ControllerView.Ref) : ProbeDeci :=
  { probeInfos := fun band =>
      if band = 0 then some ⟨input.rssi24, input.au24, agent24⟩
        else some ⟨input.rssi5, input.au5, agent5⟩ }

theorem java_turn (input : Features) (agent24 agent5 : ControllerView.Ref) (info : NodeInfo)
    (attr : Attribute) (relation : Relation) (tests : Tests info attr relation) :
    ∃ value, curValCon (probed input agent24 agent5) info.condition = some value ∧
      relationHolds info.relation value info.valueCon = conditionHolds input info := by
  refine ⟨attributeValue input attr, ?_, ?_⟩
  · rw [tests.1]
    cases attr <;> rfl
  · rw [tests.2, relationHolds_text, conditionHolds_tests input info attr relation tests]

theorem cpp_turn (uninit : Int) (input : Features) (info : NodeInfo) (attr : Attribute)
    (relation : Relation) (tests : Tests info attr relation) :
    takesLeft uninit input info = conditionHolds input info := by
  have value : DecisionTree.curValCon uninit input info.condition = attributeValue input attr := by
    rw [tests.1]
    cases attr <;> rfl
  rw [takesLeft, value, tests.2, relationHolds_text,
    conditionHolds_tests input info attr relation tests]

def reachedPaths (input : Features) (tree : TreeNode) : List (List NodeInfo × Int) :=
  (leafPaths tree).filter fun path => path.1.all (conditionHolds input)

theorem reached_under (input : Features) (a b : TreeNode) (test : NodeInfo)
    (paths : List (List NodeInfo × Int)) :
    (under (.node a b test) paths).filter (fun path => path.1.all (conditionHolds input)) =
      if conditionHolds input test then
        under (.node a b test) (paths.filter fun path => path.1.all (conditionHolds input))
      else [] := by
  unfold under
  rw [List.filter_map]
  by_cases holds : conditionHolds input test = true
  · simp [holds, Function.comp_def]
  · simp [holds, Function.comp_def]

/-- What both descents return is the label of the one leaf whose conditions hold. -/
def Decides (uninit : Int) (input : Features) (agent24 agent5 : ControllerView.Ref)
    (tree : TreeNode) : Prop :=
  ∃ path, reachedPaths input tree = [path] ∧ doDecision (probed input agent24 agent5) tree =
    some path.2 ∧
    ∃ steps, descend uninit input tree = some (path.2, steps)

theorem split_decides (uninit : Int) (input : Features) (agent24 agent5 : ControllerView.Ref)
    (a b c d : TreeNode) (first second info : NodeInfo) (complementary : Opposite first second)
    (left : Decides uninit input agent24 agent5 (.node a b first))
    (right : Decides uninit input agent24 agent5 (.node c d second)) :
    Decides uninit input agent24 agent5 (.node (.node a b first) (.node c d second) info) := by
  have other := opposite_holds input first second complementary
  obtain ⟨attr, relation, tests, -, -⟩ := complementary
  obtain ⟨value, read, java⟩ := java_turn input agent24 agent5 first attr relation tests
  have cpp := cpp_turn uninit input first attr relation tests
  have reached : reachedPaths input (.node (.node a b first) (.node c d second) info) =
      (if conditionHolds input first then
        under (.node a b first) (reachedPaths input (.node a b first)) else []) ++
        if conditionHolds input second then
          under (.node c d second) (reachedPaths input (.node c d second))
        else [] := by
    rw [reachedPaths, leafPaths, List.filter_append, reached_under, reached_under]
    · rfl
    · simp
  unfold Decides
  rw [reached, doDecision, read, Option.bind_some, java, descend_inner, cpp, other]
  by_cases turn : conditionHolds input first = true
  · obtain ⟨path, one, decided, steps, descended⟩ := left
    refine ⟨(first :: path.1, path.2), ?_, ?_, steps + 1, ?_⟩
    · simp [turn, one, under]
    · simp [turn, decided]
    · simp [turn, descended]
  · obtain ⟨path, one, decided, steps, descended⟩ := right
    refine ⟨(second :: path.1, path.2), ?_, ?_, steps + 1, ?_⟩
    · simp [turn, one, under]
    · simp [turn, decided]
    · simp [turn, descended]

theorem complementary_decides (uninit : Int) (input : Features)
    (agent24 agent5 : ControllerView.Ref) (tree : TreeNode) (complementary : Complementary tree) :
    Decides uninit input agent24 agent5 tree := by
  induction tree with
  | null => exact False.elim complementary
  | node left right info leftIh rightIh =>
      cases left with
      | null =>
          cases right with
          | null => exact ⟨([], info.leaf), rfl, rfl, 0, rfl⟩
          | node => exact False.elim complementary
      | node a b first =>
          cases right with
          | null => exact False.elim complementary
          | node c d second =>
              exact split_decides uninit input agent24 agent5 a b c d first second info
                complementary.1
                (leftIh complementary.2.1) (rightIh complementary.2.2)

/-- Whatever reader built the tree from whatever file, it is finite, and where its inner nodes
split on complementary conditions the two programs agree on what it means. -/
theorem deployed_equals_evaluated (round : ℚ → Option ℚ) (size : SizeT) (file : List Text)
    (b : Builder) (built : constructTreeJava round file = some b ∨
      constructTreeCpp round size file = some b) :
    (∃ tree, Represents b.heap (some 0) tree) ∧
      ∀ tree, Represents b.heap (some 0) tree → Complementary tree →
        ∀ uninit input agent24 agent5, Decides uninit input agent24 agent5 tree := by
  constructor
  · rcases built with java | cpp
    · exact grounded_root b (java_grounded round file b java)
    · exact grounded_root b (cpp_grounded round size file b cpp)
  · intro tree _ complementary uninit input agent24 agent5
    exact complementary_decides uninit input agent24 agent5 tree complementary

/-! A printed tree as the programs hold it. -/

def edgeInfo (round : ℚ → Option ℚ) (edge : Edge) (leaf : Int) : NodeInfo :=
  ⟨edge.attr.text, edge.relation.text, (round edge.threshold.value).getD 0, false, leaf⟩

def asNode (round : ℚ → Option ℚ) : Subtree → TreeNode
  | .leaf edge label => .node .null .null (edgeInfo round edge label.val)
  | .split edge left right =>
      .node (asNode round left) (asNode round right) (edgeInfo round edge (-1))

theorem stored_info (round : ℚ → Option ℚ) (node : HeapNode) (edge : Edge)
    (stored : Stored round node edge) :
    HasInfo node (edgeInfo round edge node.leaf) := by
  obtain ⟨condition, relation, value, rounded, threshold⟩ := stored
  constructor
  · exact condition.symm
  · exact relation.symm
  · intro other found
    rw [threshold, Option.some.injEq] at found
    rw [← found, edgeInfo, rounded, Option.getD_some]
  · rfl
  · rfl

theorem holds_represents (round : ℚ → Option ℚ) (heap : Nat → HeapNode) (t : Subtree) (i : Nat)
    (held : Holds round heap t i) : Represents heap (some i) (asNode round t) := by
  induction t generalizing i with
  | leaf edge label =>
      obtain ⟨stored, leaf, left, right⟩ := held
      have info := stored_info round (heap i) edge stored
      rw [leaf] at info
      exact ⟨info, by rw [left]; trivial, by rw [right]; trivial⟩
  | split edge left right leftIh rightIh =>
      obtain ⟨stored, leaf, a, b, onLeft, onRight, below, beside⟩ := held
      have info := stored_info round (heap i) edge stored
      rw [leaf] at info
      exact ⟨info, by rw [onLeft]; exact leftIh a below, by rw [onRight]; exact rightIh b beside⟩

def splitTree : Tree := .split (.leaf ⟨.au5, .le, TreeRoundTrip.unit, 0⟩ 0)
    (.leaf ⟨.au5, .gt, TreeRoundTrip.unit, 1⟩ 1)

theorem split_file_decided :
    ∃ b tree, constructTreeJava some splitTree.lines = some b ∧ Represents b.heap (some 0) tree ∧
      Decides 0 ⟨-60, 1, -70, 2⟩ 0 1 tree := by
  obtain ⟨b, grown, held⟩ := TreeRoundTrip.grow_tree some splitTree (by intro entry _; simp)
  have read : constructTreeJava some splitTree.lines = some b := by
    rw [constructTreeJava, Tree.lines, TreeRoundTrip.java_reads some _ _ b grown]
  obtain ⟨left, right, onLeft, onRight, below, beside⟩ := held
  have represented : Represents b.heap (some 0)
      (.node (asNode some (.leaf ⟨.au5, .le, TreeRoundTrip.unit, 0⟩ 0))
        (asNode some (.leaf ⟨.au5, .gt, TreeRoundTrip.unit, 1⟩ 1)) (HeapNode.info (b.heap 0))) := by
    refine ⟨hasInfo_info _, ?_, ?_⟩
    · rw [onLeft]
      exact holds_represents some b.heap _ left below
    · rw [onRight]
      exact holds_represents some b.heap _ right beside
  refine ⟨b, _, read, represented, ?_⟩
  apply (deployed_equals_evaluated some .bits64 splitTree.lines b (Or.inl read)).2 _ represented
  exact ⟨⟨.au5, .le, ⟨rfl, rfl⟩, ⟨rfl, rfl⟩, rfl⟩, trivial, trivial⟩

end LazyAS.TreeDecision

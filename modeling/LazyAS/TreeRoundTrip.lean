import LazyAS.TreeFile

/-! The round trip of a decision tree through its file. Both readers recover the
parent of a line from the previous node and from the map of the nodes last seen at
each indentation; what one subtree does to that state is `Grown`. -/
namespace LazyAS.TreeRoundTrip
open WireText TreeFile

/-- The subtree laid out in pre-order from index `i` on. -/
def Layout (round : ℚ → Option ℚ) (heap : Nat → HeapNode) : Subtree → Nat → Prop
  | .leaf edge label, i =>
      Stored round (heap i) edge ∧ (heap i).leaf = label.val ∧
        (heap i).left = none ∧ (heap i).right = none
  | .split edge left right, i =>
      Stored round (heap i) edge ∧ (heap i).leaf = -1 ∧
        (heap i).left = some (i + 1) ∧ (heap i).right = some (i + 1 + left.size) ∧
        Layout round heap left (i + 1) ∧ Layout round heap right (i + 1 + left.size)

theorem layout_holds (round : ℚ → Option ℚ) (heap : Nat → HeapNode) (t : Subtree) (i : Nat)
    (laid : Layout round heap t i) : Holds round heap t i := by
  induction t generalizing i with
  | leaf edge label => exact laid
  | split edge left right leftIh rightIh =>
      obtain ⟨stored, leaf, first, second, below, beside⟩ := laid
      exact ⟨stored, leaf, i + 1, i + 1 + left.size, first, second,
        leftIh _ below, rightIh _ beside⟩

theorem layout_frame (round : ℚ → Option ℚ) (heap heap' : Nat → HeapNode) (t : Subtree) (i : Nat)
    (same : ∀ j, i ≤ j → j < i + t.size → heap' j = heap j) (laid : Layout round heap t i) :
    Layout round heap' t i := by
  induction t generalizing i with
  | leaf edge label =>
      have here := same i le_rfl (by simp [Subtree.size])
      simpa only [Layout, here] using laid
  | split edge left right leftIh rightIh =>
      simp only [Subtree.size] at same
      have here := same i le_rfl (by omega)
      obtain ⟨stored, leaf, first, second, below, beside⟩ := laid
      refine ⟨by rwa [here], by rwa [here], by rwa [here], by rwa [here], ?_, ?_⟩
      · exact leftIh (i + 1) (fun j low high => same j (by omega) (by omega)) below
      · exact rightIh _ (fun j low high => same j (by omega) (by omega)) beside

/-- What reading a whole subtree does to the reader: its nodes are laid out from
`b.next` on, its root hangs under `parent`, and the next line at the same depth
would find that parent again. -/
structure Grown (round : ℚ → Option ℚ) (t : Subtree) (depth parent : Nat) (b after : Builder) :
    Prop where
  next : after.next = b.next + t.size
  older : ∀ i < b.next, after.heap i =
    if i = parent then addChild (b.heap parent) b.next else b.heap i
  laid : Layout round after.heap t b.next
  linked : (after.heap b.next).parent = some parent
  mapped : after.m depth = some b.next
  outer : ∀ e : Int, e < depth → after.m e = b.m e
  deep : depth ≤ (after.heap after.last).pos

theorem Grown.parentAt {round : ℚ → Option ℚ} {t : Subtree} {depth parent : Nat}
    {b after : Builder} (grown : Grown round t depth parent b after) :
    parentAt after depth = some parent := by
  simp only [TreeFile.parentAt, if_pos grown.deep, grown.mapped, grown.linked]

theorem attach_new (b : Builder) (parent : Nat) (fields : Fields) (leaf : Int)
    (old : parent < b.next) : (attach b parent fields leaf).heap b.next =
      ⟨none, none, some parent, fields.condition, fields.relation, fields.valueCon, fields.pos,
        leaf⟩ := by
  have other : b.next ≠ parent := by omega
  simp [attach, Function.update_of_ne other]

theorem attach_old (b : Builder) (parent i : Nat) (fields : Fields) (leaf : Int)
    (old : i < b.next) : (attach b parent fields leaf).heap i =
      if i = parent then addChild (b.heap parent) b.next else b.heap i := by
  have other : i ≠ b.next := by omega
  by_cases same : i = parent
  · subst same; simp [attach]
  · simp [attach, Function.update_of_ne other, same]

theorem grow_leaf (round : ℚ → Option ℚ) (edge : Edge) (label : Fin 10) (depth parent : Nat)
    (b : Builder) (value : ℚ) (normal : round edge.threshold.value = some value)
    (old : parent < b.next) :
    Grown round (.leaf edge label) depth parent b
      (attach b parent (fieldsOf round ⟨depth, edge, some label⟩) label.val) := by
  have new := attach_new b parent (fieldsOf round ⟨depth, edge, some label⟩) label.val old
  refine ⟨rfl, fun i older => attach_old b parent i _ _ older, ?_, ?_, ?_, ?_, ?_⟩
  · rw [Layout, new]
    exact ⟨⟨rfl, rfl, value, normal, normal⟩, rfl, rfl, rfl⟩
  · rw [new]
  · simp [attach, fieldsOf]
  · intro e shallow
    have other : e ≠ (depth : Int) := by omega
    simp [attach, fieldsOf, Function.update_of_ne other]
  · show (depth : Int) ≤ ((attach b parent _ _).heap b.next).pos
    rw [new]
    simp [fieldsOf]

theorem grow_split (round : ℚ → Option ℚ) (edge : Edge) (left right : Subtree)
    (depth parent : Nat) (b middle after : Builder) (value : ℚ)
    (normal : round edge.threshold.value = some value) (old : parent < b.next)
    (first : Grown round left (depth + 1) b.next
      (attach b parent (fieldsOf round ⟨depth, edge, none⟩) (-1)) middle)
    (second : Grown round right (depth + 1) b.next middle after) :
    Grown round (.split edge left right) depth parent b after := by
  -- a split from its own line and its two subtrees, read one after the other
  have new := attach_new b parent (fieldsOf round ⟨depth, edge, none⟩) (-1) old
  have begun : (attach b parent (fieldsOf round ⟨depth, edge, none⟩) (-1)).next = b.next + 1 := rfl
  have half : middle.next = b.next + 1 + left.size := by rw [first.next, begun]
  have here : after.heap b.next =
      ⟨some (b.next + 1), some (b.next + 1 + left.size), some parent, edge.attr.text,
        edge.relation.text, some value, depth, -1⟩ := by
    rw [second.older b.next (by omega), if_pos rfl, first.older b.next (by omega), if_pos rfl, new,
      begun, half]
    simp [addChild, fieldsOf, normal]
  refine ⟨?_, ?_, ?_, ?_, ?_, ?_, ?_⟩
  · rw [second.next, half, Subtree.size]
    omega
  · intro i older
    rw [second.older i (by omega), if_neg (by omega), first.older i (by omega), if_neg (by omega)]
    exact attach_old b parent i _ _ older
  · rw [Layout, here]
    refine ⟨⟨rfl, rfl, value, normal, rfl⟩, rfl, rfl, rfl, ?_, half ▸ second.laid⟩
    refine layout_frame round middle.heap after.heap left _ (fun j low high => ?_)
      (begun ▸ first.laid)
    rw [second.older j (by omega), if_neg (by omega)]
  · rw [here]
  · rw [second.outer depth (by omega), first.outer depth (by omega)]
    simp [attach, fieldsOf]
  · intro e shallow
    have other : e ≠ (depth : Int) := by omega
    rw [second.outer e (by omega), first.outer e (by omega)]
    simp [attach, fieldsOf, Function.update_of_ne other]
  · have deep := second.deep
    omega

theorem grow_subtree (round : ℚ → Option ℚ) (t : Subtree) (depth parent : Nat) (b : Builder)
    (normal : ∀ entry ∈ t.entries depth, round entry.edge.threshold.value ≠ none)
    (found : parentAt b depth = some parent) (old : parent < b.next) :
    ∃ after, (t.entries depth).foldlM (grow round) b = some after ∧
      Grown round t depth parent b after := by
  induction t generalizing depth parent b with
  | leaf edge label =>
      simp only [Subtree.entries, List.forall_mem_singleton] at normal
      obtain ⟨value, rounded⟩ := Option.ne_none_iff_exists'.mp normal
      refine ⟨_, ?_, grow_leaf round edge label depth parent b value rounded old⟩
      simp [Subtree.entries, grow, found, leafOf]
  | split edge left right leftIh rightIh =>
      simp only [Subtree.entries, List.forall_mem_cons, List.forall_mem_append] at normal
      obtain ⟨value, rounded⟩ := Option.ne_none_iff_exists'.mp normal.1
      -- the node's own line first, then both subtrees one level deeper with it as parent
      let start := attach b parent (fieldsOf round ⟨depth, edge, none⟩) (-1)
      have under : parentAt start (depth + 1 : Nat) = some b.next := by
        have here : (start.heap b.next).pos = depth := by
          simp only [start, attach_new b parent _ _ old, fieldsOf]
        have last : start.last = b.next := rfl
        rw [parentAt, last, here, if_neg (by omega)]
      obtain ⟨middle, readLeft, first⟩ :=
        leftIh (depth + 1) b.next start normal.2.1 under (Nat.lt_succ_self b.next)
      have half : middle.next = b.next + 1 + left.size := first.next
      obtain ⟨after, readRight, second⟩ :=
        rightIh (depth + 1) b.next middle normal.2.2 first.parentAt (by omega)
      refine ⟨after, ?_, grow_split round edge left right depth parent b middle after value rounded
        old first second⟩
      have own : grow round b ⟨depth, edge, none⟩ = some start := by
        simp [grow, found, leafOf, start]
      simp [Subtree.entries, List.foldlM_append, own, readLeft, readRight]

theorem java_reads (round : ℚ → Option ℚ) (entries : List Entry) (b after : Builder)
    (grown : entries.foldlM (grow round) b = some after) :
    (entries.map line).foldl (javaRead round) (.reading b) = .reading after := by
  induction entries generalizing b with
  | nil =>
      obtain rfl : b = after := by simpa using grown
      rfl
  | cons entry rest ih =>
      obtain ⟨middle, step, below⟩ := Option.bind_eq_some_iff.mp grown
      simp only [List.map_cons, List.foldl_cons, javaRead, javaLine_line round b middle entry step]
      exact ih middle below

theorem cpp_reads (round : ℚ → Option ℚ) (size : SizeT) (entries : List Entry) (b after : Builder)
    (normal : ∀ entry ∈ entries, round entry.edge.threshold.value ≠ none)
    (narrow : size = .bits32 ∨ ∀ entry ∈ entries, entry.label ≠ none)
    (grown : entries.foldlM (grow round) b = some after) :
    (entries.map line).foldlM (cppLine round size) b = some after := by
  induction entries generalizing b with
  | nil =>
      obtain rfl : b = after := by simpa using grown
      rfl
  | cons entry rest ih =>
      obtain ⟨middle, step, below⟩ := Option.bind_eq_some_iff.mp grown
      rw [List.forall_mem_cons] at normal
      obtain ⟨value, rounded⟩ := Option.ne_none_iff_exists'.mp normal.1
      have own := cppLine_line round size b middle entry value rounded
        (narrow.imp_right fun labelled => labelled entry List.mem_cons_self) step
      simp only [List.map_cons, List.foldlM_cons, own, Option.bind_eq_bind, Option.bind_some]
      exact ih middle normal.2
        (narrow.imp_right fun labelled x member => labelled x (List.mem_cons_of_mem _ member)) below

theorem cpp_stops (round : ℚ → Option ℚ) (entries : List Entry) (b : Builder) (entry : Entry)
    (member : entry ∈ entries) (inner : entry.label = none) :
    (entries.map line).foldlM (cppLine round .bits64) b = none := by
  induction entries generalizing b with
  | nil => simp at member
  | cons first rest ih =>
      simp only [List.map_cons, List.foldlM_cons, Option.bind_eq_bind]
      -- the line itself cannot be read; an earlier line may fail before it
      rcases List.mem_cons.mp member with rfl | later
      · rw [cppLine_inner round b entry inner, Option.bind_none]
      · cases cppLine round .bits64 b (line first) with
        | none => rfl
        | some middle => exact ih middle later

/-- Every threshold lies in the normal range of a `double`. -/
def Normal (round : ℚ → Option ℚ) (tree : Tree) : Prop :=
  ∀ entry ∈ tree.entries, round entry.edge.threshold.value ≠ none

def Flat (tree : Tree) : Prop := ∀ entry ∈ tree.entries, entry.label ≠ none

theorem grow_tree (round : ℚ → Option ℚ) (tree : Tree) (normal : Normal round tree) :
    ∃ after, tree.entries.foldlM (grow round) Builder.initial = some after ∧
      HoldsTree round after.heap tree := by
  cases tree with
  | root => exact ⟨Builder.initial, rfl, rfl, rfl⟩
  | split left right =>
      simp only [Normal, Tree.entries, List.forall_mem_append] at normal
      obtain ⟨middle, readLeft, first⟩ :=
        grow_subtree round left 0 0 Builder.initial normal.1 (by decide) (by decide)
      have half : middle.next = 1 + left.size := first.next
      obtain ⟨after, readRight, second⟩ :=
        grow_subtree round right 0 0 middle normal.2 first.parentAt (by omega)
      refine ⟨after, by simp [Tree.entries, List.foldlM_append, readLeft, readRight], ?_⟩
      -- the second subtree writes only above the first one and into the root's child list
      have root : after.heap 0 = addChild (addChild rootNode 1) (1 + left.size) := by
        rw [second.older 0 (by omega), if_pos rfl, first.older 0 (by decide), if_pos rfl, half]
        rfl
      have kept : Layout round after.heap left 1 :=
        layout_frame round middle.heap after.heap left 1
          (fun j low high => by rw [second.older j (by omega), if_neg (by omega)]) first.laid
      refine ⟨1, 1 + left.size, ?_, ?_, layout_holds round _ left 1 kept, ?_⟩
      · rw [root]; rfl
      · rw [root]; rfl
      · exact layout_holds round _ right _ (half ▸ second.laid)

theorem holds_normal (round : ℚ → Option ℚ) (heap : Nat → HeapNode) (t : Subtree) (i depth : Nat)
    (held : Holds round heap t i) :
    ∀ entry ∈ t.entries depth, round entry.edge.threshold.value ≠ none := by
  induction t generalizing i depth with
  | leaf edge label =>
      obtain ⟨⟨-, -, value, rounded, -⟩, -⟩ := held
      simp [Subtree.entries, rounded]
  | split edge left right leftIh rightIh =>
      obtain ⟨⟨-, -, value, rounded, -⟩, -, a, b, -, -, below, beside⟩ := held
      simp only [Subtree.entries, List.forall_mem_cons, List.forall_mem_append]
      exact ⟨by simp [rounded], leftIh a _ below, rightIh b _ beside⟩

/-- A printed tree comes back from both readers exactly when its thresholds fit a
`double` and the C++ program either runs with a 32-bit `size_t` or meets no inner line. -/
theorem tree_file_round_trip (round : ℚ → Option ℚ) (size : SizeT) (tree : Tree) :
    (ReadBack round (constructTreeJava round tree.lines) tree ∧
        ReadBack round (constructTreeCpp round size tree.lines) tree) ↔
      Normal round tree ∧ (size = .bits32 ∨ Flat tree) := by
  constructor
  · rintro ⟨⟨b, -, held⟩, ⟨b', read, -⟩⟩
    refine ⟨?_, ?_⟩
    · cases tree with
      | root => simp [Normal, Tree.entries]
      | split left right =>
          obtain ⟨i, j, -, -, below, beside⟩ := held
          simp only [Normal, Tree.entries, List.forall_mem_append]
          exact ⟨holds_normal round _ left i 0 below, holds_normal round _ right j 0 beside⟩
    · cases size with
      | bits32 => exact .inl rfl
      | bits64 =>
          refine .inr fun entry member inner => ?_
          rw [constructTreeCpp, Tree.lines, cpp_stops round _ _ entry member inner] at read
          simp at read
  · rintro ⟨normal, narrow⟩
    -- both readers follow the same growth of the heap
    obtain ⟨after, grown, held⟩ := grow_tree round tree normal
    refine ⟨⟨after, ?_, held⟩, ⟨after, ?_, held⟩⟩
    · rw [constructTreeJava, Tree.lines, java_reads round _ _ after grown]
    · exact cpp_reads round size _ _ after normal narrow grown

def unit : Decimal := ⟨false, ['1'], [], by decide, each_char (by decide), each_char (by decide)⟩

/-- `au_5 <= 1` with an inner child on the left of it. -/
def nestedTree : Tree :=
  .split (.split ⟨.au5, .le, unit, 0⟩ (.leaf ⟨.rssi5, .le, unit, 0⟩ 0)
    (.leaf ⟨.rssi5, .gt, unit, 1⟩ 1))
    (.leaf ⟨.au5, .gt, unit, 2⟩ 2)

theorem nested_tree_unread :
    ¬ ReadBack some (constructTreeCpp some .bits64 nestedTree.lines) nestedTree := by
  rintro ⟨b, read, -⟩
  rw [constructTreeCpp, Tree.lines, cpp_stops some _ _ ⟨0, ⟨.au5, .le, unit, 0⟩, none⟩
    (by decide) rfl] at read
  simp at read

end LazyAS.TreeRoundTrip

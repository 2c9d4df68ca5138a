import LazyAS.DecisionTree
import Mathlib.Data.Rat.Floor
import Mathlib.Logic.Function.Basic

/-! The C5 text format of the `decision tree` files and the two readers of it:
`constructTree` of DualBandAccessControl.java and of doPruning.cpp. Nodes live in
a heap with parent links, as in both programs; positions are unbounded, which no
line short enough to be a Java string can tell. `round` is the rounding of a
decimal to the nearest `double`, `none` where it leaves the normal range. -/
namespace LazyAS.TreeFile
open WireText

instance labels : NeZero (10 : Nat) := ⟨by decide⟩

inductive Attribute where
  | rssi24 | rssi5 | au24 | au5
  deriving DecidableEq, Repr

def Attribute.text : Attribute → Text
  | .rssi24 => "rssi_2.4".toList
  | .rssi5 => "rssi_5".toList
  | .au24 => "au_2.4".toList
  | .au5 => "au_5".toList

inductive Relation where
  | lt | le | gt | ge
  deriving DecidableEq, Repr

def Relation.text : Relation → Text
  | .lt => "<".toList
  | .le => "<=".toList
  | .gt => ">".toList
  | .ge => ">=".toList

/-- A plain decimal numeral, as the tree files write thresholds. -/
structure Decimal where
  negative : Bool
  whole : Text
  fraction : Text
  wholePresent : whole ≠ []
  wholeDigits : ∀ c ∈ whole, c.isDigit
  fractionDigits : ∀ c ∈ fraction, c.isDigit
  deriving DecidableEq

def Decimal.text (d : Decimal) : Text :=
  (if d.negative then ['-'] else []) ++ d.whole ++
    (if d.fraction = [] then [] else '.' :: d.fraction)

def decimalValue (negative : Bool) (whole fraction : Text) : ℚ :=
  (if negative then -1 else 1) *
    ((Nat.ofDigitChars 10 (whole ++ fraction) 0 : ℚ) / (10 : ℚ) ^ fraction.length)

def Decimal.value (d : Decimal) : ℚ := decimalValue d.negative d.whole d.fraction

structure Edge where
  attr : Attribute
  relation : Relation
  threshold : Decimal
  mode : Nat
  deriving DecidableEq

inductive Subtree where
  | leaf (edge : Edge) (label : Fin 10)
  | split (edge : Edge) (left right : Subtree)
  deriving DecidableEq

/-- A whole tree. The root has no line of its own, so a root alone prints nothing. -/
inductive Tree where
  | root
  | split (left right : Subtree)
  deriving DecidableEq

def Subtree.size : Subtree → Nat
  | .leaf _ _ => 1
  | .split _ left right => 1 + left.size + right.size

def digitText (digit : Fin 10) : Text := [Nat.digitChar digit.val]

def modeText (edge : Edge) : Text :=
  "[ Mode: ".toList ++ Nat.toDigits 10 edge.mode ++ " ] ".toList

def labelText : Option (Fin 10) → Text
  | none => []
  | some label => "=> ".toList ++ digitText label ++ " ".toList

/-- What one line of the file says: a depth, an edge and, on a leaf, its label. -/
structure Entry where
  depth : Nat
  edge : Edge
  label : Option (Fin 10)
  deriving DecidableEq

def line (entry : Entry) : Text :=
  List.replicate entry.depth '\t' ++ (entry.edge.attr.text ++ ' ' :: (entry.edge.relation.text ++
    ' ' :: (entry.edge.threshold.text ++ ' ' :: (modeText entry.edge ++ labelText entry.label))))

def Subtree.entries (depth : Nat) : Subtree → List Entry
  | .leaf edge label => [⟨depth, edge, some label⟩]
  | .split edge left right =>
      ⟨depth, edge, none⟩ :: (left.entries (depth + 1) ++ right.entries (depth + 1))

def Tree.entries : Tree → List Entry
  | .root => []
  | .split left right => left.entries 0 ++ right.entries 0

/-- The file: the nodes below the root in pre-order, one line each. -/
def Tree.lines (tree : Tree) : List Text := tree.entries.map line

/-! The readers. -/

structure HeapNode where
  left : Option Nat
  right : Option Nat
  parent : Option Nat
  condition : Text
  relation : Text
  valueCon : Option ℚ
  pos : Int
  leaf : Int
  deriving DecidableEq

def rootNode : HeapNode := ⟨none, none, none, "root".toList, [], some 0, -1, -1⟩

/-- The local variables of `constructTree`: the allocated nodes, `last` and the
map `m` from an indentation to the node last seen there. The root is node 0. -/
structure Builder where
  heap : Nat → HeapNode
  next : Nat
  last : Nat
  m : Int → Option Nat

def Builder.initial : Builder := ⟨fun _ => rootNode, 1, 0, fun _ => none⟩

structure Fields where
  pos : Int
  condition : Text
  relation : Text
  valueCon : Option ℚ

/-- `indexOf`/`find_first_of` from a position on; -1 when nothing matches. -/
def position (data : Text) (wanted : Char → Bool) (start : Int) : Int :=
  match (data.drop start.toNat).findIdx? wanted with
  | some index => start.toNat + index
  | none => -1

def arrow : Text → Option Nat
  | '=' :: '>' :: _ => some 0
  | _ :: rest => (arrow rest).map (· + 1)
  | [] => none

def scanDecimal (text : Text) : Option (ℚ × Text) :=
  let negative := text.head? = some '-'
  let body := if text.head? = some '-' ∨ text.head? = some '+' then text.tail else text
  let whole := body.takeWhile Char.isDigit
  let rest := body.dropWhile Char.isDigit
  let fraction := if rest.head? = some '.' then rest.tail.takeWhile Char.isDigit else []
  let after := if rest.head? = some '.' then rest.tail.dropWhile Char.isDigit else rest
  if whole ++ fraction = [] then none
  else some (decimalValue negative whole fraction, after)

/-- `Double.parseDouble` on plain decimals: the whole text has to be a numeral.
Outside the normal range it still returns (an infinity, a denormal or zero). -/
def parseDouble (round : ℚ → Option ℚ) (text : Text) : Option (Option ℚ) :=
  match scanDecimal (trim text) with
  | some (value, []) => some (round value)
  | _ => none

/-- `std::stod` on plain decimals: what follows the numeral is ignored, and a
value outside the normal range is an `out_of_range`. -/
def stod (round : ℚ → Option ℚ) (text : Text) : Option ℚ :=
  (scanDecimal (text.dropWhile isSpace)).bind fun read => round read.1

/-- `last` after the reader has looked for the parent of a node at `pos`;
`none` is the null link it would then follow. -/
def parentAt (b : Builder) (pos : Int) : Option Nat :=
  if (b.heap b.last).pos ≥ pos then
    match b.m pos with
    | some sibling => (b.heap sibling).parent
    | none => some b.last
  else some b.last

def addChild (node : HeapNode) (child : Nat) : HeapNode :=
  if node.left = none then { node with left := some child } else { node with right := some child }

def attach (b : Builder) (parent : Nat) (fields : Fields) (leaf : Int) : Builder :=
  { heap := Function.update
      (Function.update b.heap b.next
        ⟨none, none, some parent, fields.condition, fields.relation, fields.valueCon, fields.pos,
          leaf⟩)
      parent (addChild (b.heap parent) b.next)
    next := b.next + 1
    last := b.next
    m := Function.update b.m fields.pos (some b.next) }

/-- The Java reader: still reading, stopped by the caught NumberFormatException
with what was built so far, or ended by another exception. -/
inductive Progress where
  | reading (b : Builder)
  | stopped (b : Builder)
  | threw

def javaFields (round : ℚ → Option ℚ) (data : Text) : Option (Except Unit Fields) := do
  let pos1 := position data (· = 'r') 0
  let pos1 := if pos1 = -1 then position data (· = 'a') 0 else pos1
  let pos3 := position data (· = ' ') (pos1 + 1)
  let pos4 := position data (· = ' ') (pos3 + 1)
  let pos5 := position data (· = ' ') (pos4 + 1)
  let relation ← substring data (pos3 + 1) pos4
  let condition ← substring data pos1 pos3
  let value ← substring data (pos4 + 1) pos5
  match parseDouble round value with
  | some valueCon => return .ok ⟨pos1, condition, relation, valueCon⟩
  | none => return .error ()

def javaLine (round : ℚ → Option ℚ) (b : Builder) (data : Text) : Progress :=
  match javaFields round data with
  | none => .threw
  | some (.error _) => .stopped b
  | some (.ok fields) =>
      match parentAt b fields.pos with
      | none => .threw
      | some parent =>
          match arrow data with
          | none => .reading (attach b parent fields (-1))
          | some pos2 =>
              match substring data (pos2 + 2) (pos2 + 4) with
              | none => .threw
              | some digits =>
                  match parseInt (trim digits) with
                  | none => .stopped (attach b parent fields (-1))
                  | some leaf => .reading (attach b parent fields leaf)

def javaRead (round : ℚ → Option ℚ) (progress : Progress) (data : Text) : Progress :=
  match progress with
  | .reading b => javaLine round b data
  | other => other

/-- `constructTree` of DualBandAccessControl.java; `none` is an escaping exception. -/
def constructTreeJava (round : ℚ → Option ℚ) (file : List Text) : Option Builder :=
  match file.foldl (javaRead round) (.reading Builder.initial) with
  | .reading b => some b
  | .stopped b => some b
  | .threw => none

def substr (data : Text) (start count : Int) : Option Text :=
  if 0 ≤ start ∧ start ≤ data.length then
    some (if 0 ≤ count then (data.drop start.toNat).take count.toNat else data.drop start.toNat)
  else none

def cppFields (round : ℚ → Option ℚ) (data : Text) : Option Fields := do
  let pos1 := position data (fun c => c = 'r' || c = 'a') 0
  let pos3 := position data (· = ' ') (pos1 + 1)
  let pos4 := position data (· = ' ') (pos3 + 1)
  let pos5 := position data (· = ' ') (pos4 + 1)
  let relation ← substr data (pos3 + 1) (pos4 - pos3 - 1)
  let condition ← substr data pos1 (pos3 - pos1)
  let value ← substr data (pos4 + 1) (pos5 - pos4 - 1)
  let valueCon ← stod round value
  return ⟨pos1, condition, relation, some valueCon⟩

/-- The width of `size_t` on the machine the program is compiled for. -/
inductive SizeT where
  | bits32 | bits64
  deriving DecidableEq, Repr

def npos : SizeT → Nat
  | .bits32 => 2 ^ 32 - 1
  | .bits64 => 2 ^ 64 - 1

/-- The label of a line. `find` returns `npos` when there is no arrow, but the result
goes through a 32-bit `unsigned int` before it is compared with `npos`. -/
def cppLeaf (size : SizeT) (data : Text) : Option Int :=
  match arrow data with
  | some pos2 => (substr data (pos2 + 2) 2).bind scanInt
  | none =>
      let pos2 := npos size % 2 ^ 32
      if pos2 ≠ npos size then (substr data ((pos2 + 2) % 2 ^ 32 : Nat) 2).bind scanInt
      else some (-1)

def cppLine (round : ℚ → Option ℚ) (size : SizeT) (b : Builder) (data : Text) : Option Builder := do
  let fields ← cppFields round data
  let parent ← parentAt b fields.pos
  let leaf ← cppLeaf size data
  return attach b parent fields leaf

/-- `constructTree` of doPruning.cpp; `none` is a thrown exception. -/
def constructTreeCpp (round : ℚ → Option ℚ) (size : SizeT) (file : List Text) : Option Builder :=
  file.foldlM (cppLine round size) Builder.initial

/-! What it means that the heap holds a tree. -/

def Stored (round : ℚ → Option ℚ) (node : HeapNode) (edge : Edge) : Prop :=
  node.condition = edge.attr.text ∧ node.relation = edge.relation.text ∧
    ∃ value, round edge.threshold.value = some value ∧ node.valueCon = some value

def Holds (round : ℚ → Option ℚ) (heap : Nat → HeapNode) : Subtree → Nat → Prop
  | .leaf edge label, i =>
      Stored round (heap i) edge ∧ (heap i).leaf = label.val ∧
        (heap i).left = none ∧ (heap i).right = none
  | .split edge left right, i =>
      Stored round (heap i) edge ∧ (heap i).leaf = -1 ∧
        ∃ a b, (heap i).left = some a ∧ (heap i).right = some b ∧
          Holds round heap left a ∧ Holds round heap right b

def HoldsTree (round : ℚ → Option ℚ) (heap : Nat → HeapNode) : Tree → Prop
  | .root => (heap 0).left = none ∧ (heap 0).right = none
  | .split left right => ∃ a b, (heap 0).left = some a ∧ (heap 0).right = some b ∧
      Holds round heap left a ∧ Holds round heap right b

/-- Reading back succeeded and the root holds the printed tree. -/
def ReadBack (round : ℚ → Option ℚ) (result : Option Builder) (tree : Tree) : Prop :=
  ∃ b, result = some b ∧ HoldsTree round b.heap tree

/-! Finding the fields of a printed line. -/

theorem position_found (before after : Text) (c : Char) (wanted : Char → Bool) (start : Nat)
    (inside : start ≤ before.length) (early : ∀ x ∈ before.drop start, wanted x = false)
    (hit : wanted c = true) :
    position (before ++ c :: after) wanted start = before.length := by
  have found : ((before ++ c :: after).drop start).findIdx? wanted =
      some (before.length - start) := by
    rw [List.drop_append_of_le_length inside, List.findIdx?_append,
      List.findIdx?_eq_none_iff.mpr early]
    simp [List.findIdx?_cons, hit]
  simp only [position, Int.toNat_natCast, found]
  omega

theorem position_missing (data : Text) (wanted : Char → Bool)
    (absent : ∀ c ∈ data, wanted c = false) : position data wanted 0 = -1 := by
  simp only [position, Int.toNat_zero, List.drop_zero, List.findIdx?_eq_none_iff.mpr absent]

theorem substr_middle (before middle after : Text) (start count : Int)
    (first : start = before.length) (width : count = middle.length) :
    substr (before ++ (middle ++ after)) start count = some middle := by
  subst first width
  have bounds : 0 ≤ (before.length : Int) ∧
      (before.length : Int) ≤ ((before ++ (middle ++ after)).length : Nat) := by
    simp only [List.length_append]
    omega
  rw [substr, if_pos bounds, if_pos (by omega), Int.toNat_natCast, Int.toNat_natCast,
    List.drop_left, List.take_left]

theorem arrow_skip (before rest : Text) (plain : ∀ c ∈ before, c ≠ '=') :
    arrow (before ++ rest) = (arrow rest).map (· + before.length) := by
  induction before with
  | nil => simp
  | cons c before ih =>
      have notEqual : c ≠ '=' := plain c List.mem_cons_self
      have step : arrow (c :: (before ++ rest)) = (arrow (before ++ rest)).map (· + 1) := by
        rw [arrow]
        intro after same
        exact absurd same notEqual
      rw [List.cons_append, step, ih fun x member => plain x (List.mem_cons_of_mem c member)]
      simp only [Option.map_map, List.length_cons]
      congr 1

theorem arrow_relation (relation : Relation) (rest : Text) :
    arrow (relation.text ++ ' ' :: rest) =
      (arrow rest).map (· + (relation.text.length + 1)) := by
  cases relation <;> simp [Relation.text, arrow, Option.map_map, Function.comp_def]

theorem digit_ne (c d : Char) (digit : c.isDigit) (other : d.isDigit = false) : c ≠ d := by
  rintro rfl
  simp [other] at digit

theorem digitText_digit (digit : Fin 10) : (Nat.digitChar digit.val).isDigit := by
  revert digit
  decide

theorem decimal_chars (d : Decimal) (c : Char) (member : c ∈ d.text) :
    c.isDigit ∨ c = '-' ∨ c = '.' := by
  simp only [Decimal.text, List.mem_append] at member
  rcases member with (sign | whole) | fraction
  · split at sign
    · exact .inr (.inl (List.mem_singleton.mp sign))
    · simp at sign
  · exact .inl (d.wholeDigits c whole)
  · split at fraction
    · simp at fraction
    · rcases List.mem_cons.mp fraction with point | digit
      · exact .inr (.inr point)
      · exact .inl (d.fractionDigits c digit)

theorem decimal_avoids (d : Decimal) (x : Char) (notDigit : x.isDigit = false) (notMinus : '-' ≠ x)
    (notPoint : '.' ≠ x) (c : Char) (member : c ∈ d.text) : c ≠ x := by
  rcases decimal_chars d c member with digit | rfl | rfl
  · exact digit_ne c x digit notDigit
  · exact notMinus
  · exact notPoint

theorem modeText_avoids (edge : Edge) (x : Char) (notDigit : x.isDigit = false)
    (notFixed : x ∉ "[ Mode: ".toList ++ " ] ".toList) (c : Char) (member : c ∈ modeText edge) :
    c ≠ x := by
  rcases List.mem_append.mp member with front | closing
  · rcases List.mem_append.mp front with opening | digit
    · intro same
      exact notFixed (List.mem_append_left _ (same ▸ opening))
    · exact digit_ne c x (Nat.isDigit_of_mem_toDigits (by decide) (by decide) digit) notDigit
  · intro same
    exact notFixed (List.mem_append_right _ (same ▸ closing))

theorem blank_after (data front word after : Text) (start : Int)
    (shape : data = front ++ (word ++ ' ' :: after)) (plain : ∀ c ∈ word, c ≠ ' ')
    (first : start = front.length) :
    position data (· = ' ') start = front.length + word.length := by
  subst shape first
  rw [← List.append_assoc, position_found]
  · simp
  · simp
  · intro c member
    rw [List.drop_left] at member
    simpa using plain c member
  · rfl

/-- Every attribute is an `r` or an `a` followed by characters other than blanks. -/
theorem attr_shape (attr : Attribute) : ∃ c rest, attr.text = c :: rest ∧
    (c = 'r' ∨ c = 'a' ∧ ∀ x ∈ attr.text, x ≠ 'r') ∧
    (∀ x ∈ rest, x ≠ ' ') ∧ (∀ x ∈ attr.text, x ≠ '=') := by
  cases attr
  · exact ⟨'r', "ssi_2.4".toList, rfl, .inl rfl, each_char (by decide), each_char (by decide)⟩
  · exact ⟨'r', "ssi_5".toList, rfl, .inl rfl, each_char (by decide), each_char (by decide)⟩
  · exact ⟨'a', "u_2.4".toList, rfl, .inr ⟨rfl, each_char (by decide)⟩, each_char (by decide),
      each_char (by decide)⟩
  · exact ⟨'a', "u_5".toList, rfl, .inr ⟨rfl, each_char (by decide)⟩, each_char (by decide),
      each_char (by decide)⟩

theorem relation_plain (relation : Relation) : ∀ c ∈ relation.text, c ≠ ' ' ∧ c ≠ 'r' := by
  cases relation <;> exact each_char (by decide)

theorem line_blanks (entry : Entry) :
    position (line entry) (· = ' ') (entry.depth + 1) =
        entry.depth + entry.edge.attr.text.length ∧
      position (line entry) (· = ' ') (entry.depth + entry.edge.attr.text.length + 1) =
        entry.depth + entry.edge.attr.text.length + 1 + entry.edge.relation.text.length ∧
      position (line entry) (· = ' ')
          (entry.depth + entry.edge.attr.text.length + 1 + entry.edge.relation.text.length + 1) =
        entry.depth + entry.edge.attr.text.length + 1 + entry.edge.relation.text.length + 1 +
          entry.edge.threshold.text.length := by
  obtain ⟨c, rest, spelled, -, plain, -⟩ := attr_shape entry.edge.attr
  let tail := modeText entry.edge ++ labelText entry.label
  refine ⟨?_, ?_, ?_⟩
  · rw [blank_after (line entry) (List.replicate entry.depth '\t' ++ [c]) rest
      (entry.edge.relation.text ++ ' ' :: (entry.edge.threshold.text ++ ' ' :: tail)) _
      (by simp only [line, spelled, List.append_assoc, List.cons_append, List.nil_append, tail])
      plain (by simp)]
    simp only [spelled, List.length_append, List.length_replicate, List.length_cons,
      List.length_nil, Nat.cast_add, Nat.cast_one]
    omega
  · rw [blank_after (line entry)
      (List.replicate entry.depth '\t' ++ (entry.edge.attr.text ++ [' '])) entry.edge.relation.text
      (entry.edge.threshold.text ++ ' ' :: tail)
      _ (by simp only [line, List.append_assoc, List.cons_append, List.nil_append, tail])
      (fun x member => (relation_plain _ x member).1) (by simp; omega)]
    simp only [List.length_append, List.length_replicate, List.length_cons, List.length_nil,
      Nat.cast_add, Nat.cast_one]
    omega
  · rw [blank_after (line entry) (List.replicate entry.depth '\t' ++ (entry.edge.attr.text ++
        ' ' :: (entry.edge.relation.text ++ [' ']))) entry.edge.threshold.text tail _
      (by simp only [line, List.append_assoc, List.cons_append, List.nil_append, tail])
      (decimal_avoids _ ' ' (by decide) (by decide) (by decide)) (by simp; omega)]
    simp only [List.length_append, List.length_replicate, List.length_cons, List.length_nil,
      Nat.cast_add, Nat.cast_one]
    omega

theorem line_indent (entry : Entry) (wanted : Char → Bool) (c : Char) (rest : Text)
    (spelled : entry.edge.attr.text = c :: rest) (hit : wanted c = true)
    (tabs : wanted '\t' = false) : position (line entry) wanted 0 = entry.depth := by
  have found := position_found (List.replicate entry.depth '\t')
    (rest ++ ' ' :: (entry.edge.relation.text ++ ' ' :: (entry.edge.threshold.text ++
      ' ' :: (modeText entry.edge ++ labelText entry.label)))) c wanted 0 (by simp)
    (fun x member => by
      rw [List.drop_zero] at member
      rwa [List.eq_of_mem_replicate member]) hit
  simpa only [line, spelled, List.cons_append, List.length_replicate, Nat.cast_zero] using found

theorem line_without_r (entry : Entry) (attrPlain : ∀ x ∈ entry.edge.attr.text, x ≠ 'r') :
    ∀ c ∈ line entry, c ≠ 'r' := by
  -- below an attribute without an `r` the whole line has none
  intro c member
  rcases List.mem_append.mp member with tab | member
  · rw [List.eq_of_mem_replicate tab]; decide
  rcases List.mem_append.mp member with attr | member
  · exact attrPlain c attr
  rcases List.mem_cons.mp member with rfl | member
  · decide
  rcases List.mem_append.mp member with relation | member
  · exact (relation_plain _ c relation).2
  rcases List.mem_cons.mp member with rfl | member
  · decide
  rcases List.mem_append.mp member with threshold | member
  · exact decimal_avoids _ 'r' (by decide) (by decide) (by decide) c threshold
  rcases List.mem_cons.mp member with rfl | member
  · decide
  rcases List.mem_append.mp member with mode | label
  · exact modeText_avoids _ 'r' (by decide) (by decide) c mode
  · cases shape : entry.label with
    | none => simp [shape, labelText] at label
    | some digit =>
        rw [shape] at label
        rcases List.mem_append.mp label with front | blank
        · rcases List.mem_append.mp front with fixed | last
          · rintro rfl; exact absurd fixed (by decide)
          · rw [List.mem_singleton.mp last]
            exact digit_ne _ 'r' (digitText_digit digit) (by decide)
        · rintro rfl; exact absurd blank (by decide)

/-! Reading a printed line. -/

theorem takeWhile_digits (digits rest : Text) (all : ∀ c ∈ digits, c.isDigit)
    (stops : ∀ c after, rest = c :: after → c.isDigit = false) :
    (digits ++ rest).takeWhile Char.isDigit = digits ∧
      (digits ++ rest).dropWhile Char.isDigit = rest := by
  rw [List.takeWhile_append_of_pos all, List.dropWhile_append_of_pos all]
  cases rest with
  | nil => simp
  | cons c after =>
      have stop := stops c after rfl
      simp [stop]

theorem scanDecimal_text (d : Decimal) : scanDecimal d.text = some (d.value, []) := by
  obtain ⟨c, whole, split⟩ := List.exists_cons_of_ne_nil d.wholePresent
  have digit : c.isDigit := d.wholeDigits c (split ▸ List.mem_cons_self)
  have notMinus : c ≠ '-' := digit_ne c '-' digit (by decide)
  have notPlus : c ≠ '+' := digit_ne c '+' digit (by decide)
  let point : Text := if d.fraction = [] then [] else '.' :: d.fraction
  have runs := takeWhile_digits d.whole point d.wholeDigits (by
    intro x after same
    simp only [point] at same
    split at same
    · simp at same
    · rw [← (List.cons.inj same).1]; decide)
  have pieces : (if point.head? = some '.' then point.tail.takeWhile Char.isDigit else []) =
        d.fraction ∧
      (if point.head? = some '.' then point.tail.dropWhile Char.isDigit else point) = [] := by
    by_cases empty : d.fraction = []
    · simp [point, empty]
    · have all := takeWhile_digits d.fraction [] d.fractionDigits (by simp)
      rw [List.append_nil] at all
      simp [point, empty, all]
  have nonempty : d.whole ++ d.fraction ≠ [] := by
    simp [d.wholePresent]
  have body : (if d.text.head? = some '-' ∨ d.text.head? = some '+' then d.text.tail else d.text) =
        d.whole ++ point ∧ (d.text.head? = some '-') = (d.negative = true) := by
    cases sign : d.negative with
    | true => simp [Decimal.text, sign, point]
    | false => simp [Decimal.text, sign, split, point, notMinus, notPlus]
  simp only [scanDecimal, body.1, runs, pieces, if_neg nonempty]
  simp only [body.2, Decimal.value, Bool.decide_eq_true]

theorem decimal_trimmed (d : Decimal) (blank : Char → Bool)
    (digits : ∀ c, c.isDigit → blank c = false) (minus : blank '-' = false)
    (point : blank '.' = false) : ∀ c ∈ d.text, blank c = false := by
  intro c member
  rcases decimal_chars d c member with digit | rfl | rfl
  · exact digits c digit
  · exact minus
  · exact point

theorem parseDouble_text (round : ℚ → Option ℚ) (d : Decimal) :
    parseDouble round d.text = some (round d.value) := by
  have kept := trim_none d.text
    (decimal_trimmed d isTrimmed digit_not_trimmed (by decide) (by decide))
  simp only [parseDouble, kept, scanDecimal_text]

theorem stod_text (round : ℚ → Option ℚ) (d : Decimal) : stod round d.text = round d.value := by
  have kept := dropWhile_none d.text isSpace
    (decimal_trimmed d isSpace (fun c digit => digit_not_space c digit) (by decide) (by decide))
  simp only [stod, kept, scanDecimal_text, Option.bind_some]

def fieldsOf (round : ℚ → Option ℚ) (entry : Entry) : Fields :=
  ⟨entry.depth, entry.edge.attr.text, entry.edge.relation.text, round entry.edge.threshold.value⟩

theorem line_split (entry : Entry) :
    line entry = List.replicate entry.depth '\t' ++ (entry.edge.attr.text ++
        ' ' :: (entry.edge.relation.text ++ ' ' :: (entry.edge.threshold.text ++
          ' ' :: (modeText entry.edge ++ labelText entry.label)))) ∧
      line entry = (List.replicate entry.depth '\t' ++ (entry.edge.attr.text ++ [' '])) ++
        (entry.edge.relation.text ++ ' ' :: (entry.edge.threshold.text ++
          ' ' :: (modeText entry.edge ++ labelText entry.label))) ∧
      line entry = (List.replicate entry.depth '\t' ++ (entry.edge.attr.text ++
        ' ' :: (entry.edge.relation.text ++ [' ']))) ++ (entry.edge.threshold.text ++
          ' ' :: (modeText entry.edge ++ labelText entry.label)) := by
  refine ⟨rfl, ?_, ?_⟩ <;>
    simp only [line, List.append_assoc, List.cons_append, List.nil_append]

theorem line_words (entry : Entry) :
    substring (line entry) (entry.depth + entry.edge.attr.text.length + 1)
        (entry.depth + entry.edge.attr.text.length + 1 + entry.edge.relation.text.length) =
        some entry.edge.relation.text ∧
      substring (line entry) entry.depth (entry.depth + entry.edge.attr.text.length) =
        some entry.edge.attr.text ∧
      substring (line entry)
        (entry.depth + entry.edge.attr.text.length + 1 + entry.edge.relation.text.length + 1)
        (entry.depth + entry.edge.attr.text.length + 1 + entry.edge.relation.text.length + 1 +
          entry.edge.threshold.text.length) = some entry.edge.threshold.text := by
  obtain ⟨first, second, third⟩ := line_split entry
  refine ⟨?_, ?_, ?_⟩
  · rw [second]
    exact substring_middle _ _ _ _ _ (by simp; omega) (by simp; omega)
  · rw [first]
    exact substring_middle _ _ _ _ _ (by simp) (by simp)
  · rw [third]
    exact substring_middle _ _ _ _ _ (by simp; omega) (by simp; omega)

theorem line_words_cpp (entry : Entry) :
    substr (line entry) (entry.depth + entry.edge.attr.text.length + 1)
        ((entry.depth + entry.edge.attr.text.length + 1 + entry.edge.relation.text.length : Int) -
          (entry.depth + entry.edge.attr.text.length) - 1) = some entry.edge.relation.text ∧
      substr (line entry) entry.depth
        ((entry.depth + entry.edge.attr.text.length : Int) - entry.depth) =
        some entry.edge.attr.text ∧
      substr (line entry)
        (entry.depth + entry.edge.attr.text.length + 1 + entry.edge.relation.text.length + 1)
        ((entry.depth + entry.edge.attr.text.length + 1 + entry.edge.relation.text.length + 1 +
          entry.edge.threshold.text.length : Int) -
          (entry.depth + entry.edge.attr.text.length + 1 + entry.edge.relation.text.length) - 1) =
        some entry.edge.threshold.text := by
  obtain ⟨first, second, third⟩ := line_split entry
  refine ⟨?_, ?_, ?_⟩
  · rw [second]
    exact substr_middle _ _ _ _ _ (by simp; omega) (by omega)
  · rw [first]
    exact substr_middle _ _ _ _ _ (by simp) (by omega)
  · rw [third]
    exact substr_middle _ _ _ _ _ (by simp; omega) (by omega)

theorem javaFields_line (round : ℚ → Option ℚ) (entry : Entry) :
    javaFields round (line entry) = some (.ok (fieldsOf round entry)) := by
  obtain ⟨c, rest, spelled, start, -, -⟩ := attr_shape entry.edge.attr
  have indent : (if position (line entry) (· = 'r') 0 = -1 then position (line entry) (· = 'a') 0
      else position (line entry) (· = 'r') 0) = entry.depth := by
    rcases start with rfl | ⟨rfl, without⟩
    · rw [line_indent entry (· = 'r') 'r' rest spelled (by decide) (by decide), if_neg (by omega)]
    · rw [position_missing (line entry) (· = 'r') (by simpa using line_without_r entry without),
        if_pos rfl, line_indent entry (· = 'a') 'a' rest spelled (by decide) (by decide)]
  obtain ⟨third, fourth, fifth⟩ := line_blanks entry
  obtain ⟨relation, condition, value⟩ := line_words entry
  simp only [javaFields, indent, third, fourth, fifth, relation, condition, value,
    Option.bind_eq_bind, Option.bind_some, parseDouble_text]
  rfl

theorem cppFields_line (round : ℚ → Option ℚ) (entry : Entry) (value : ℚ)
    (normal : round entry.edge.threshold.value = some value) :
    cppFields round (line entry) = some (fieldsOf round entry) := by
  obtain ⟨c, rest, spelled, start, -, -⟩ := attr_shape entry.edge.attr
  have indent := line_indent entry (fun c => c = 'r' || c = 'a') c rest spelled
    (by rcases start with rfl | ⟨rfl, -⟩ <;> decide) (by decide)
  obtain ⟨third, fourth, fifth⟩ := line_blanks entry
  obtain ⟨relation, condition, threshold⟩ := line_words_cpp entry
  simp only [cppFields, indent, third, fourth, fifth, relation, condition, threshold,
    Option.bind_eq_bind, Option.bind_some, stod_text, normal]
  simp only [fieldsOf, normal]
  rfl

def leafOf : Option (Fin 10) → Int
  | none => -1
  | some label => label.val

def lineFront (entry : Entry) : Text :=
  List.replicate entry.depth '\t' ++ (entry.edge.attr.text ++ ' ' :: (entry.edge.relation.text ++
    ' ' :: (entry.edge.threshold.text ++ ' ' :: modeText entry.edge)))

theorem line_front (entry : Entry) : line entry = lineFront entry ++ labelText entry.label := by
  simp only [line, lineFront, List.append_assoc, List.cons_append]

theorem arrow_front (entry : Entry) (rest : Text) :
    arrow (lineFront entry ++ rest) = (arrow rest).map (· + (lineFront entry).length) := by
  obtain ⟨-, -, -, -, -, attrPlain⟩ := attr_shape entry.edge.attr
  have head : ∀ c ∈ List.replicate entry.depth '\t' ++ (entry.edge.attr.text ++ [' ']), c ≠
      '=' := by
    intro c member
    rcases List.mem_append.mp member with tab | member
    · rw [List.eq_of_mem_replicate tab]; decide
    rcases List.mem_append.mp member with attr | blank
    · exact attrPlain c attr
    · rw [List.mem_singleton.mp blank]; decide
  have last : ∀ c ∈ entry.edge.threshold.text ++ ' ' :: modeText entry.edge, c ≠ '=' := by
    intro c member
    rcases List.mem_append.mp member with threshold | member
    · exact decimal_avoids _ '=' (by decide) (by decide) (by decide) c threshold
    rcases List.mem_cons.mp member with rfl | mode
    · decide
    · exact modeText_avoids _ '=' (by decide) (by decide) c mode
  have shape : lineFront entry ++ rest =
      (List.replicate entry.depth '\t' ++ (entry.edge.attr.text ++ [' '])) ++
        (entry.edge.relation.text ++ ' ' :: ((entry.edge.threshold.text ++
          ' ' :: modeText entry.edge) ++ rest)) := by
    simp only [lineFront, List.append_assoc, List.cons_append, List.nil_append]
  rw [shape, arrow_skip _ _ head, arrow_relation, arrow_skip _ _ last]
  simp only [Option.map_map, lineFront, List.length_append, List.length_cons, List.length_nil]
  congr 1
  funext index
  simp only [Function.comp_apply]
  omega

theorem arrow_inner (entry : Entry) (inner : entry.label = none) : arrow (line entry) = none := by
  rw [line_front, inner, arrow_front]
  rfl

theorem arrow_leaf (entry : Entry) (label : Fin 10) (leaf : entry.label = some label) :
    arrow (line entry) = some (lineFront entry).length := by
  rw [line_front, leaf, arrow_front]
  simp [labelText, arrow]

theorem label_split (entry : Entry) (label : Fin 10) (leaf : entry.label = some label) :
    line entry = (lineFront entry ++ "=>".toList) ++ ((' ' :: digitText label) ++ " ".toList) := by
  rw [line_front, leaf, labelText, List.append_assoc, List.append_assoc]
  rfl

theorem label_numeral (label : Fin 10) :
    parseInt (trim (' ' :: digitText label)) = some (label.val : Int) ∧
      scanInt (' ' :: digitText label) = some (label.val : Int) := by
  revert label
  decide

def grow (round : ℚ → Option ℚ) (b : Builder) (entry : Entry) : Option Builder :=
  (parentAt b entry.depth).map fun parent =>
    attach b parent (fieldsOf round entry) (leafOf entry.label)

theorem javaLine_line (round : ℚ → Option ℚ) (b after : Builder) (entry : Entry)
    (grown : grow round b entry = some after) : javaLine round b (line entry) = .reading after := by
  obtain ⟨parent, found, rfl⟩ := Option.map_eq_some_iff.mp grown
  simp only [javaLine, javaFields_line, fieldsOf, found]
  cases labelled : entry.label with
  | none => simp only [arrow_inner entry labelled, leafOf]
  | some label =>
      have digits : substring (line entry) ((lineFront entry).length + 2)
          ((lineFront entry).length + 4) = some (' ' :: digitText label) := by
        rw [label_split entry label labelled]
        exact substring_middle _ _ _ _ _ (by simp) (by simp [digitText]; omega)
      simp only [arrow_leaf entry label labelled, digits, (label_numeral label).1, leafOf]

theorem cppLine_line (round : ℚ → Option ℚ) (size : SizeT) (b after : Builder) (entry : Entry)
    (value : ℚ) (normal : round entry.edge.threshold.value = some value)
    (narrow : size = .bits32 ∨ entry.label ≠ none) (grown : grow round b entry = some after) :
    cppLine round size b (line entry) = some after := by
  obtain ⟨parent, found, rfl⟩ := Option.map_eq_some_iff.mp grown
  have leaf : cppLeaf size (line entry) = some (leafOf entry.label) := by
    cases labelled : entry.label with
    | none =>
        rcases narrow with rfl | contra
        · simp only [cppLeaf, arrow_inner entry labelled, leafOf]
          rw [if_neg (by decide)]
        · exact absurd labelled contra
    | some label =>
        have digits : substr (line entry) ((lineFront entry).length + 2) 2 =
            some (' ' :: digitText label) := by
          rw [label_split entry label labelled]
          exact substr_middle _ _ _ _ _ (by simp) (by simp [digitText])
        simp only [cppLeaf, arrow_leaf entry label labelled, digits, Option.bind_some,
          (label_numeral label).2, leafOf]
  simp only [cppLine, cppFields_line round entry value normal, Option.bind_eq_bind,
    Option.bind_some, leaf]
  simp only [fieldsOf, found, Option.bind_some]
  rfl

theorem attr_start (attr : Attribute) : ∃ rest,
    attr.text = 'r' :: 's' :: 's' :: rest ∨ attr.text = 'a' :: 'u' :: '_' :: rest := by
  cases attr
  · exact ⟨"i_2.4".toList, .inl rfl⟩
  · exact ⟨"i_5".toList, .inl rfl⟩
  · exact ⟨"2.4".toList, .inr rfl⟩
  · exact ⟨"5".toList, .inr rfl⟩

theorem line_start (entry : Entry) : ∃ x y z rest,
    line entry = x :: y :: z :: rest ∧ scanInt [y, z] = none := by
  obtain ⟨tail, spelled | spelled⟩ := attr_start entry.edge.attr
  · match depth : entry.depth with
    | 0 => exact ⟨'r', 's', 's', _, by rw [line, depth, spelled]; rfl, by decide⟩
    | 1 => exact ⟨'\t', 'r', 's', _, by rw [line, depth, spelled]; rfl, by decide⟩
    | 2 => exact ⟨'\t', '\t', 'r', _, by rw [line, depth, spelled]; rfl, by decide⟩
    | n + 3 => exact ⟨'\t', '\t', '\t', _, by rw [line, depth]; rfl, by decide⟩
  · match depth : entry.depth with
    | 0 => exact ⟨'a', 'u', '_', _, by rw [line, depth, spelled]; rfl, by decide⟩
    | 1 => exact ⟨'\t', 'a', 'u', _, by rw [line, depth, spelled]; rfl, by decide⟩
    | 2 => exact ⟨'\t', '\t', 'a', _, by rw [line, depth, spelled]; rfl, by decide⟩
    | n + 3 => exact ⟨'\t', '\t', '\t', _, by rw [line, depth]; rfl, by decide⟩

/-- On a 64-bit machine the missing arrow of an inner line is not recognised, and
the two characters behind the first one are read as its label. -/
theorem cppLine_inner (round : ℚ → Option ℚ) (b : Builder) (entry : Entry)
    (inner : entry.label = none) : cppLine round .bits64 b (line entry) = none := by
  have unread : cppLeaf .bits64 (line entry) = none := by
    obtain ⟨x, y, z, rest, starts, unread⟩ := line_start entry
    have cut : substr (line entry) 1 2 = some [y, z] := by
      rw [starts]
      exact substr_middle [x] [y, z] rest 1 2 rfl rfl
    simp only [cppLeaf, arrow_inner entry inner]
    rw [if_pos (by decide)]
    show (substr (line entry) 1 2).bind scanInt = none
    rw [cut, Option.bind_some, unread]
  simp only [cppLine, unread]
  simp

end LazyAS.TreeFile

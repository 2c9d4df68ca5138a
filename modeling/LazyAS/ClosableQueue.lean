import Mathlib.Data.List.Induction

/-! A bounded queue that can be closed, for one user at a time: which rows of operations it allows
and what they leave in it. `Item` is a parameter. -/
namespace LazyAS.ClosableQueue

variable {Item : Type}

/-- An operation with what it answers; a queue that is empty for good gives no item. -/
inductive Op (Item : Type) where
  | put (item : Item)
  | got (item : Option Item)
  | closed
  | counted (length : Nat)
  deriving DecidableEq

/-- After the operations the queue holds the items, and it is closed or not. -/
inductive Legal (capacity : Nat) : List (Op Item) → List Item → Bool → Prop where
  | start : Legal capacity [] [] false
  | put {ops : List (Op Item)} {items : List Item} (item : Item)
      (before : Legal capacity ops items false)
      (room : items.length < capacity) : Legal capacity (ops ++ [.put item]) (items ++ [item]) false
  | take {ops : List (Op Item)} {item : Item} {items : List Item} {closed : Bool}
      (before : Legal capacity ops (item :: items) closed) :
      Legal capacity (ops ++ [.got (some item)]) items closed
  | nothing {ops : List (Op Item)} (before : Legal capacity ops [] true) :
      Legal capacity (ops ++ [.got none]) [] true
  | close {ops : List (Op Item)} {items : List Item} {closed : Bool}
      (before : Legal capacity ops items closed) :
      Legal capacity (ops ++ [.closed]) items true
  | count {ops : List (Op Item)} {items : List Item} {closed : Bool}
      (before : Legal capacity ops items closed) :
      Legal capacity (ops ++ [.counted items.length]) items closed

def Op.puts : Op Item → Option Item
  | .put item => some item
  | _ => none

def Op.takes : Op Item → Option Item
  | .got item => item
  | _ => none

variable {capacity : Nat} {ops : List (Op Item)} {items : List Item} {closed : Bool}

theorem Legal.bounded (legal : Legal capacity ops items closed) : items.length ≤ capacity := by
  induction legal with
  | start => exact Nat.zero_le _
  | put item before room ih =>
      rw [List.length_append]
      exact room
  | take before ih => exact Nat.le_of_succ_le ih
  | nothing before ih => exact ih
  | close before ih => exact ih
  | count before ih => exact ih

theorem Legal.last {op : Op Item} (legal : Legal capacity (ops ++ [op]) items closed) :
    ∃ earlier shut, Legal capacity ops earlier shut ∧
      earlier ++ op.puts.toList = op.takes.toList ++ items ∧
      (shut = true → op.puts = none) := by
  generalize whole : ops ++ [op] = row at legal
  cases legal with
  | start => simp at whole
  | put item before room =>
      obtain ⟨rfl, rfl⟩ := List.append_singleton_inj.mp whole
      exact ⟨_, _, before, rfl, fun shut => Bool.noConfusion shut⟩
  | take before =>
      obtain ⟨rfl, rfl⟩ := List.append_singleton_inj.mp whole
      exact ⟨_, _, before, List.append_nil _, fun _ => rfl⟩
  | nothing before =>
      obtain ⟨rfl, rfl⟩ := List.append_singleton_inj.mp whole
      exact ⟨_, _, before, rfl, fun _ => rfl⟩
  | close before =>
      obtain ⟨rfl, rfl⟩ := List.append_singleton_inj.mp whole
      exact ⟨_, _, before, List.append_nil _, fun _ => rfl⟩
  | count before =>
      obtain ⟨rfl, rfl⟩ := List.append_singleton_inj.mp whole
      exact ⟨_, _, before, List.append_nil _, fun _ => rfl⟩

theorem filterMap_last {Kind : Type} (read : Op Item → Option Kind) (op : Op Item) :
    (ops ++ [op]).filterMap read = ops.filterMap read ++ (read op).toList := by
  rw [List.filterMap_append]
  cases found : read op with
  | none => simp [found]
  | some kind => simp [found]

theorem Legal.fifo (legal : Legal capacity ops items closed) :
    ops.filterMap Op.puts = ops.filterMap Op.takes ++ items := by
  induction ops using List.reverseRecOn generalizing items closed with
  | nil =>
      generalize none' : ([] : List (Op Item)) = row at legal
      cases legal with
      | start => rfl
      | _ => simp at none'
  | append_singleton ops op ih =>
      obtain ⟨earlier, shut, before, balance, -⟩ := legal.last
      rw [filterMap_last, filterMap_last, ih before, List.append_assoc, balance, List.append_assoc]

theorem Legal.closed_iff (legal : Legal capacity ops items closed) :
    closed = true ↔ .closed ∈ ops := by
  induction legal with
  | start => simp
  | put item before room ih => simpa using ih
  | take before ih => simpa using ih
  | nothing before ih => simpa using ih
  | close before ih => simp
  | count before ih => simpa using ih

theorem Legal.drains {before after : List (Op Item)}
    (legal : Legal capacity (before ++ .closed :: after) items closed) :
    ∃ left, Legal capacity (before ++ [.closed]) left true ∧ after.filterMap Op.puts = [] ∧
      after.filterMap Op.takes ++ items = left := by
  induction after using List.reverseRecOn generalizing items closed with
  | nil =>
      have member : Op.closed ∈ before ++ [Op.closed] :=
        List.mem_append_right before List.mem_cons_self
      exact ⟨items, legal.closed_iff.mpr member ▸ legal, rfl, rfl⟩
  | append_singleton after op ih =>
      rw [← List.cons_append, ← List.append_assoc] at legal
      obtain ⟨earlier, shut, earlier', balance, refuses⟩ := legal.last
      have member : Op.closed ∈ before ++ Op.closed :: after :=
        List.mem_append_right before List.mem_cons_self
      have none' := refuses (earlier'.closed_iff.mpr member)
      rw [none', Option.toList_none, List.append_nil] at balance
      obtain ⟨left, legal, refused, drained⟩ := ih earlier'
      refine ⟨left, legal, ?_, ?_⟩
      · rw [filterMap_last, refused, none']
        rfl
      · rw [filterMap_last, List.append_assoc, ← balance]
        exact drained

end LazyAS.ClosableQueue

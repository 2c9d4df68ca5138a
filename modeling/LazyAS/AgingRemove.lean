import LazyAS.AgingTable

/-! The other two ways in which `infoCollect.c` changes a table: `ht_remove`, and a write through
the pointer that `ht_get` returned. Both keep it sound. -/
namespace LazyAS.AgingRemove
open LinkedChain AgingHash AgingWalk AgingTable

section
variable {Key Value : Type}

def written (table : HashTable Key Value) (entry : Ptr) (block : Cell (HashEntry Key Value))
    (value : Value) :
    HashTable Key Value :=
  { table with
    heap := Function.update table.heap entry
      (some { block with data := { block.data with value := value } }) }

theorem sound_written {hash : Key → Nat} {table : HashTable Key Value}
    {chains : Nat → List (Block Key Value)} (sound : Sound hash table chains) {index : Nat}
    (inside : index < table.arraySize) (before rest : List (Block Key Value))
    (block : Block Key Value) (split : chains index = before ++ block :: rest)
    (cell : Cell (HashEntry Key Value)) (live : table.heap block.1 = some cell) (value : Value) :
    Sound hash (written table block.1 cell value)
      (Function.update chains index
        (before ++ (block.1, { block.2 with value := value }) :: rest)) := by
  have linked := sound.chain index inside
  have distinct := chain_distinct sound.toStored inside
  have unique := sound.unique index inside
  rw [split] at linked distinct unique
  obtain ⟨next, found, changed⟩ := linked.rewrite distinct { block.2 with value := value }
  have same : cell = ⟨block.2, next⟩ := Option.some.inj (live.symm.trans found)
  have leaves : Leaves table index (before ++ (block.1, { block.2 with value := value }) :: rest)
      [block.1] 0 0
      (written table block.1 cell value) := by
    refine ⟨rfl, fun _ _ => rfl, ?_, fun q outside => ?_, by simp [written], by simp [written]⟩
    · rw [same]
      exact changed
    · exact Function.update_of_ne (fun here => outside (List.mem_singleton.mpr here)) ..
  refine sound_leaves sound inside leaves ?_ (fun other member => ?_) ?_ ?_ (Int.le_refl 0) ?_
  · rw [split]
    simp
  · have home := sound.placed index inside
    rw [split] at home
    rcases List.mem_append.mp member with front | back
    · exact home other (List.mem_append_left _ front)
    · rcases List.mem_cons.mp back with rfl | later
      · exact home block (by simp)
      · exact home other (by simp [later])
  · simpa using unique
  · rw [split]
    simp
  · rw [split]
    simp

variable [DecidableEq Key] (hash : Key → Nat)

/-- The entry whose value `ht_get` points to, or the null pointer. -/
def entryFor (heap : Heap (HashEntry Key Value)) (key : Key) : Nat → Ptr → Option Ptr
  | 0, _ => none
  | fuel + 1, entry =>
      if entry = 0 then some 0
      else do
        let block ← heap entry
        if block.data.key = key then some entry else entryFor heap key fuel block.pNext

def removeFrom (key : Key) (index : Nat) : Nat → HashTable Key Value → Ptr → Ptr →
    Option (HashTable Key Value)
  | 0, _, _, _ => none
  | fuel + 1, table, prev, entry =>
      if entry = 0 then some table
      else do
        let block ← table.heap entry
        if block.data.key = key then
          if prev = 0 then
            some { table with
              array := Function.update table.array index block.pNext
              keyCount := table.keyCount - 1
              heap := Function.update table.heap entry none }
          else do
            let before ← table.heap prev
            let linked := Function.update table.heap prev
                (some { before with pNext := block.pNext })
            some { table with
              keyCount := table.keyCount - 1
              collisions := table.collisions - 1
              heap := Function.update linked entry none }
        else removeFrom key index fuel table entry block.pNext

def htRemove (fuel : Nat) (table : HashTable Key Value) (key : Key) :
    Option (HashTable Key Value) :=
  removeFrom key (htIndex hash table key) fuel table 0 (table.array (htIndex hash table key))

theorem entryFor_chain (heap : Heap (HashEntry Key Value)) (key : Key)
    (chain : List (Block Key Value)) (p : Ptr) (linked : Chain heap p chain) (fuel : Nat)
    (out : Ptr) (ended : entryFor heap key fuel p = some out) :
    out = ((chain.find? fun block => block.2.key = key).map Prod.fst).getD 0 := by
  induction chain generalizing p fuel with
  | nil =>
      cases fuel with
      | zero => nomatch ended
      | succ fuel =>
          have null : p = 0 := linked
          rw [entryFor, if_pos null] at ended
          exact (Option.some.inj ended).symm
  | cons block rest ih =>
      cases fuel with
      | zero => nomatch ended
      | succ fuel =>
          obtain ⟨rfl, nonnull, next, live, along⟩ := linked
          rw [entryFor, if_neg nonnull, live] at ended
          simp only [Option.bind_eq_bind, Option.bind_some] at ended
          rw [List.find?_cons]
          by_cases here : block.2.key = key
          · simp only [here, if_true] at ended
            simp only [here, decide_true]
            exact (Option.some.inj ended).symm
          · simp only [here, if_false] at ended
            simp only [here, decide_false]
            exact ih next along fuel ended

theorem entryFor_cases {table : HashTable Key Value} {chains : Nat → List (Block Key Value)}
    (stored : Stored hash table chains) (positive : 0 < table.arraySize) (key : Key) (fuel : Nat)
    (out : Ptr) (ended : entryFor table.heap key fuel (table.array (htIndex hash table key)) =
      some out) :
    (out = 0 ∧ ∀ value, ¬ Finds hash table key value) ∨
      ∃ block ∈ chains (htIndex hash table key), block.2.key = key ∧ out = block.1 ∧ out ≠ 0 := by
  have inside := index_lt hash positive key
  have linked := stored.chain _ inside
  have same := entryFor_chain table.heap key _ _ linked fuel out ended
  cases first : (chains (htIndex hash table key)).find? fun block => block.2.key = key with
  | none =>
      rw [first] at same
      refine Or.inl ⟨same, fun value found => ?_⟩
      obtain ⟨p, member⟩ := (finds_iff stored positive key value).mp found
      exact absurd (decide_eq_true rfl) (List.find?_eq_none.mp first _ member)
  | some block =>
      rw [first] at same
      have member := List.mem_of_find?_eq_some first
      have hits : block.2.key = key := by simpa using List.find?_some first
      exact Or.inr ⟨block, member, hits, same, same ▸ linked.nonnull block member⟩

def without (key : Key) (chain : List (Block Key Value)) : List (Block Key Value) :=
  chain.eraseP fun block => block.2.key = key

theorem without_cons (key : Key) (block : Block Key Value) (rest : List (Block Key Value)) :
    without key (block :: rest) =
    if block.2.key = key then rest else block :: without key rest := by
  rw [without, List.eraseP_cons]
  by_cases here : block.2.key = key <;> simp [here, without]

def gone (key : Key) (chain : List (Block Key Value)) : Int :=
  chain.length - (without key chain).length

theorem remove_behind (key : Key) (index : Nat) (rest : List (Block Key Value)) (fuel : Nat)
    (table after : HashTable Key Value) (before : List (Block Key Value)) (block : Block Key Value)
    (entry : Ptr) (linked : Chain table.heap (table.array index) (before ++ block :: rest))
    (distinct : (pointers (before ++ block :: rest)).Nodup) (along : Chain table.heap entry rest)
    (ended : removeFrom key index fuel table block.1 entry = some after) :
    Leaves table index (before ++ block :: without key rest) (pointers (block :: rest))
      (gone key rest) (gone key rest) after := by
  induction rest generalizing fuel before block entry with
  | nil =>
      cases fuel with
      | zero => nomatch ended
      | succ fuel =>
          have null : entry = 0 := along
          rw [removeFrom, if_pos null] at ended
          cases ended
          exact ⟨rfl, fun _ _ => rfl,
            linked, fun _ _ => rfl, by simp [gone, without], by simp [gone, without]⟩
  | cons first rest ih =>
      cases fuel with
      | zero => nomatch ended
      | succ fuel =>
          obtain ⟨rfl, nonnull, next, live, onward⟩ := along
          rw [removeFrom, if_neg nonnull, live] at ended
          simp only [Option.bind_eq_bind, Option.bind_some] at ended
          rw [gone, without_cons]
          by_cases here : first.2.key = key
          · obtain ⟨_, _, blockApart⟩ := behind_apart distinct
            have other : block.1 ≠ first.1 := fun same => blockApart (same ▸ List.mem_cons_self)
            obtain ⟨link, behind⟩ := linked.live block (by simp)
            obtain ⟨w, unlinked, _, _, _, leaves⟩ :=
              unlinkInner_behind ⟨table, block.1, 0⟩ index before rest block first next
              linked distinct onward rfl
            rw [if_pos here, if_neg (linked.nonnull block (by simp)), behind] at ended
            have freed : (destroyed table first.1).heap block.1 = some ⟨block.2, link⟩ :=
              (Function.update_of_ne other ..).trans behind
            rw [unlinkInner] at unlinked
            dsimp only at unlinked
            rw [freed, Option.map_some] at unlinked
            -- the entry is freed before it is unlinked in the one loop and behind it in the other
            have same : after = w.table := by
              cases unlinked
              cases ended
              simp only [destroyed, Function.update_comm other]
            rw [if_pos here, same]
            have one : ((first :: rest).length : Int) - rest.length = 1 := by simp
            rw [one]
            have framed : ∀ q, q ∉ pointers (block :: first :: rest) →
                w.table.heap q = table.heap q := fun q outside =>
              leaves.frame q fun member => outside (List.mem_append_left (pointers rest) member)
            exact { leaves with frame := framed }
          · rw [if_neg here] at ended ⊢
            have rests := ih fuel (before ++ [block]) first next (by simpa using linked)
                (by simpa using distinct) onward ended
            have chain := rests.linked
            refine { rests with
              linked := by simpa using chain
              frame := fun q outside => rests.frame q fun member =>
                outside (List.mem_cons_of_mem _ member)
              counted := ?_
              collided := ?_ }
            · rw [rests.counted, gone, List.length_cons, List.length_cons]
              omega
            · rw [rests.collided, gone, List.length_cons, List.length_cons]
              omega

/-- How many of the entries that a removal takes out were behind another one, and are counted off
`collisions`. -/
def goneBehind (key : Key) : List (Block Key Value) → Int
  | [] => 0
  | first :: rest => if first.2.key = key then 0 else gone key rest

theorem gone_cons (key : Key) (first : Block Key Value) (rest : List (Block Key Value))
    (other : first.2.key ≠ key) :
    gone key (first :: rest) = gone key rest := by
  rw [gone, gone, without_cons, if_neg other, List.length_cons, List.length_cons]
  omega

theorem goneBehind_nonneg (key : Key) (chain : List (Block Key Value)) :
    0 ≤ goneBehind key chain := by
  cases chain with
  | nil => exact Int.le_refl 0
  | cons first rest =>
      have shorter : (without key rest).length ≤ rest.length := List.eraseP_sublist.length_le
      rw [goneBehind, gone]
      split <;> omega

/-- What `ht_remove` leaves of a chain. An entry at its head is not counted in `collisions`. -/
theorem remove_leaves (table after : HashTable Key Value) (key : Key)
    (chain : List (Block Key Value)) (fuel : Nat)
    (linked : Chain table.heap (table.array (htIndex hash table key)) chain)
    (distinct : (pointers chain).Nodup) (ended : htRemove hash fuel table key = some after) :
    Leaves table (htIndex hash table key) (without key chain) (pointers chain) (gone key chain)
      (goneBehind key chain)
      after := by
  rw [htRemove] at ended
  cases fuel with
  | zero => nomatch ended
  | succ fuel =>
      cases chain with
      | nil =>
          have null : table.array (htIndex hash table key) = 0 := linked
          rw [removeFrom, if_pos null] at ended
          cases ended
          exact ⟨rfl, fun _ _ => rfl,
            linked, fun _ _ => rfl, by simp [gone, without], by simp [goneBehind]⟩
      | cons first rest =>
          obtain ⟨here, nonnull, next, live, onward⟩ := linked
          rw [removeFrom, if_neg nonnull, live] at ended
          simp only [Option.bind_eq_bind, Option.bind_some] at ended
          by_cases hits : first.2.key = key
          · rw [if_pos hits, if_pos trivial] at ended
            cases ended
            rw [gone, goneBehind, without_cons, if_pos hits, if_pos hits]
            refine ⟨rfl, fun j other => Function.update_of_ne other .., ?_, fun q outside => ?_,
              ?_, by simp⟩
            · simp only [Function.update_self]
              refine onward.frame fun q member => ?_
              have other : q ≠ first.1 := fun same =>
                  (List.nodup_cons.mp distinct).1 (same ▸ member)
              rw [here]
              exact Function.update_of_ne other ..
            · rw [here]
              exact Function.update_of_ne (fun same => outside (by simp [same])) ..
            · simp
          · rw [if_neg hits, here] at ended
            have whole : Chain table.heap (table.array (htIndex hash table key))
                ([] ++ first :: rest) :=
              ⟨here, nonnull, next, live, onward⟩
            have leaves := remove_behind key _ rest fuel table after [] first next whole distinct
                onward ended
            rw [gone_cons key first rest hits, goneBehind, without_cons, if_neg hits, if_neg hits]
            exact leaves

theorem spare_without (key : Key) (chain : List (Block Key Value)) :
    (((without key chain).length - 1 : Nat) : Int) ≤
      ((chain.length - 1 : Nat) : Int) - goneBehind key chain := by
  cases chain with
  | nil => simp [without, goneBehind]
  | cons first rest =>
      have shorter : (without key rest).length ≤ rest.length := List.eraseP_sublist.length_le
      rw [goneBehind, without_cons, gone]
      by_cases hits : first.2.key = key
      · rw [if_pos hits, if_pos hits, List.length_cons]
        omega
      · rw [if_neg hits, if_neg hits, List.length_cons, List.length_cons]
        omega

variable {hash} {table after : HashTable Key Value} {chains : Nat → List (Block Key Value)}

theorem sound_remove (sound : Sound hash table chains) (key : Key) (fuel : Nat)
    (ended : htRemove hash fuel table key = some after) :
    after.arraySize = table.arraySize ∧ Sound hash after
      (Function.update chains (htIndex hash table key)
        (without key (chains (htIndex hash table key)))) := by
  have positive : 0 < table.arraySize := Nat.lt_of_lt_of_le (by decide) sound.large
  have inside := index_lt hash positive key
  have leaves := remove_leaves hash table after key _ fuel (sound.chain _ inside)
      (chain_distinct sound.toStored inside) ended
  refine ⟨leaves.size, sound_leaves sound inside leaves (List.Subset.refl _)
    (fun block member => ?_) ?_ ?_
    (goneBehind_nonneg key _) (spare_without key _)⟩
  · exact sound.placed _ inside block (List.eraseP_sublist.subset member)
  · exact (List.eraseP_sublist.map _).nodup (sound.unique _ inside)
  · rw [gone]
    omega

theorem finds_changed (sound : Sound hash table chains) {index : Nat}
    {kept : List (Block Key Value)} (sound' : Sound hash after (Function.update chains index kept))
    (size : after.arraySize = table.arraySize) (key : Key)
    (others : ∀ block ∈ chains index, block.2.key ≠ key → block ∈ kept) (other : Key)
    (value : Value) (different : other ≠ key) (found : Finds hash table other value) :
    Finds hash after other value := by
  have positive : 0 < table.arraySize := Nat.lt_of_lt_of_le (by decide) sound.large
  have same : htIndex hash after other = htIndex hash table other := by rw [htIndex, size, htIndex]
  obtain ⟨p, member⟩ := (finds_iff sound.toStored positive other value).mp found
  rw [finds_iff sound'.toStored (size ▸ positive), same]
  by_cases here : htIndex hash table other = index
  · rw [here] at member ⊢
    rw [Function.update_self]
    exact ⟨p, others _ member different⟩
  · rw [Function.update_of_ne here]
    exact ⟨p, member⟩

end

end LazyAS.AgingRemove

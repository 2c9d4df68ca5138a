import Mathlib.Algebra.Order.BigOperators.Group.Finset
import LazyAS.AgingInsert

/-! What a table stores, as `ht_get` finds it, and what one insertion keeps of that. -/
namespace LazyAS.AgingTable
open LinkedChain AgingHash AgingWalk AgingInsert

section
variable {Key Value : Type} (hash : Key → Nat) (stamp : Value → Int) (now : Int)

theorem same_block {chain : List (Block Key Value)}
    (unique : (chain.map fun block => block.2.key).Nodup) {left right : Block Key Value}
    (first : left ∈ chain) (second : right ∈ chain) (same : left.2.key = right.2.key) :
    left = right := List.inj_on_of_nodup_map unique first second same

theorem index_lt {table : HashTable Key Value} (positive : 0 < table.arraySize) (key : Key) :
    htIndex hash table key < table.arraySize := Nat.mod_lt _ positive

theorem length_fresh (chain : List (Block Key Value)) :
    (fresh stamp now chain).length + timedOuts stamp now chain = chain.length := by
  induction chain with
  | nil => rfl
  | cons block rest ih =>
      rw [fresh_cons, timedOuts_cons, List.length_cons, ← ih]
      by_cases old : timedOut stamp now block.2.value
      · rw [if_pos old, if_pos old]
        omega
      · rw [if_neg old, if_neg old, List.length_cons]
        omega

theorem sum_changed (weight : List (Block Key Value) → Int) (chains : Nat → List (Block Key Value))
    (chain : List (Block Key Value)) {n index : Nat} (inside : index < n) :
    ∑ i ∈ Finset.range n, weight (Function.update chains index chain i) =
      ∑ i ∈ Finset.range n, weight (chains i) - weight (chains index) + weight chain := by
  have listed := Finset.mem_range.mpr inside
  rw [← Finset.add_sum_erase _ _ listed,
    ← Finset.add_sum_erase (Finset.range n) (fun i => weight (chains i)) listed,
    Function.update_self]
  have others : ∑ i ∈ (Finset.range n).erase index, weight (Function.update chains index chain i) =
      ∑ i ∈ (Finset.range n).erase index, weight (chains i) :=
    Finset.sum_congr rfl fun i
      member => by rw [Function.update_of_ne (Finset.ne_of_mem_erase member)]
  omega

section
variable {hash} {table after : HashTable Key Value} {chains : Nat → List (Block Key Value)}

theorem same_place (stored : Stored hash table chains) {i j : Nat} (first : i < table.arraySize)
    (second : j < table.arraySize) {left right : Block Key Value} (here : left ∈ chains i)
    (there : right ∈ chains j) (same : left.1 = right.1) :
    left = right := by
  obtain ⟨next, live⟩ := (stored.chain i first).live left here
  obtain ⟨next', live'⟩ := (stored.chain j second).live right there
  rw [same, live'] at live
  exact Prod.ext same (Cell.mk.inj (Option.some.inj live)).1.symm

theorem chains_apart (stored : Stored hash table chains) {i j : Nat} (first : i < table.arraySize)
    (second : j < table.arraySize) (other : j ≠ i) :
    ∀ q ∈ pointers (chains j), q ∉ pointers (chains i) := by
  intro q member wrong
  obtain ⟨left, here, rfl⟩ := List.mem_map.mp member
  obtain ⟨right, there, same⟩ := List.mem_map.mp wrong
  have both := same_place stored second first here there same.symm
  exact other ((stored.placed j second left here).symm.trans
    (both ▸ stored.placed i first right there))

theorem chain_distinct (stored : Stored hash table chains) {i : Nat}
    (inside : i < table.arraySize) :
    (pointers (chains i)).Nodup := by
  refine List.Nodup.map_on (fun left here right there same => ?_)
    (List.Nodup.of_map _ (stored.unique i inside))
  exact same_place stored inside inside here there same

/-! One chain is changed. -/

variable {index : Nat} {kept : List (Block Key Value)} {touched : List Ptr} {removed inner : Int}

theorem stored_leaves (stored : Stored hash table chains)
    (leaves : Leaves table index kept touched removed inner after) (null : 0 ∉ touched)
    (away : ∀ i < table.arraySize, i ≠ index → ∀ q ∈ pointers (chains i), q ∉ touched)
    (home : ∀ block ∈ kept, htIndex hash table block.2.key = index)
    (unique : (kept.map fun block => block.2.key).Nodup) :
    Stored hash after (Function.update chains index kept) := by
  have same : ∀ key, htIndex hash after key =
      htIndex hash table key := fun key => by rw [htIndex, leaves.size, htIndex]
  refine ⟨(leaves.frame 0 null).trans stored.null, fun i below => ?_, fun i below block member =>
    ?_, fun i below => ?_⟩
  · rw [leaves.size] at below
    by_cases here : i = index
    · rw [here, Function.update_self]
      exact leaves.linked
    · rw [Function.update_of_ne here, leaves.others i here]
      exact (stored.chain i below).frame fun q member => leaves.frame q (away i below here q member)
  · rw [leaves.size] at below
    rw [same]
    by_cases here : i = index
    · rw [here, Function.update_self] at member
      rw [here]
      exact home block member
    · rw [Function.update_of_ne here] at member
      exact stored.placed i below block member
  · rw [leaves.size] at below
    by_cases here : i = index
    · rw [here, Function.update_self]
      exact unique
    · rw [Function.update_of_ne here]
      exact stored.unique i below

theorem counted_leaves (inside : index < table.arraySize)
    (leaves : Leaves table index kept touched removed inner after)
    (counted : table.keyCount = ∑ i ∈ Finset.range table.arraySize, ((chains i).length : Int))
    (fewer : (kept.length : Int) = (chains index).length - removed) :
    after.keyCount = ∑ i ∈ Finset.range after.arraySize,
      ((Function.update chains index kept i).length : Int) := by
  rw [leaves.size, sum_changed (fun chain => (chain.length : Int)) chains _ inside, leaves.counted,
    counted]
  omega

theorem spare_leaves (inside : index < table.arraySize)
    (leaves : Leaves table index kept touched removed inner after)
    (spare : ∑ i ∈ Finset.range table.arraySize,
      (((chains i).length - 1 : Nat) : Int) ≤ table.collisions)
    (fewer : ((kept.length - 1 : Nat) : Int) ≤ (((chains index).length - 1 : Nat) : Int) - inner) :
    ∑ i ∈ Finset.range after.arraySize,
      (((Function.update chains index kept i).length - 1 : Nat) : Int) ≤ after.collisions := by
  rw [leaves.size, sum_changed (fun chain => ((chain.length - 1 : Nat) : Int)) chains _ inside,
    leaves.collided]
  omega

theorem sound_leaves (sound : Sound hash table chains) (inside : index < table.arraySize)
    (leaves : Leaves table index kept touched removed inner after)
    (own : touched ⊆ pointers (chains index))
    (home : ∀ block ∈ kept, htIndex hash table block.2.key = index)
    (unique : (kept.map fun block => block.2.key).Nodup)
    (fewer : (kept.length : Int) = (chains index).length - removed) (nonneg : 0 ≤ inner)
    (spare : ((kept.length - 1 : Nat) : Int) ≤ (((chains index).length - 1 : Nat) : Int) - inner) :
    Sound hash after (Function.update chains index kept) where
  toStored := stored_leaves sound.toStored leaves
    (fun member => (sound.chain index inside).null_apart (own member))
    (fun i below other q member wrong => chains_apart sound.toStored inside below other q member
      (own wrong)) home unique
  large := leaves.size ▸ sound.large
  counted := counted_leaves inside leaves sound.counted fewer
  collided := spare_leaves inside leaves sound.collided spare
  light := by
    have light : ¬ (20 * table.collisions > table.arraySize) := of_decide_eq_false sound.light
    rw [tooFull, leaves.size, leaves.collided]
    exact decide_eq_false (by omega)

end

variable [DecidableEq Key]

def Finds (table : HashTable Key Value) (key : Key) (value : Value) : Prop :=
  ∃ fuel, htGet hash fuel table key = some (some value)

theorem lookFor_chain (heap : Heap (HashEntry Key Value)) (key : Key)
    (chain : List (Block Key Value)) (p : Ptr) (linked : Chain heap p chain) (fuel : Nat) :
    (∀ out, lookFor heap key fuel p = some out →
      out = (chain.find? fun block => block.2.key = key).map fun block => block.2.value) ∧
    (chain.length < fuel → (lookFor heap key fuel p).isSome) := by
  induction chain generalizing p fuel with
  | nil =>
      cases fuel with
      | zero =>
          exact ⟨fun out wrong => (nomatch wrong), fun wrong => absurd wrong (Nat.not_lt_zero _)⟩
      | succ fuel =>
          have null : p = 0 := linked
          rw [lookFor, if_pos null]
          exact ⟨fun out same => (Option.some.inj same).symm, fun _ => rfl⟩
  | cons block rest ih =>
      cases fuel with
      | zero =>
          exact ⟨fun out wrong => (nomatch wrong), fun wrong => absurd wrong (Nat.not_lt_zero _)⟩
      | succ fuel =>
          obtain ⟨rfl, nonnull, next, live, along⟩ := linked
          rw [lookFor, if_neg nonnull, live, List.find?_cons]
          simp only [Option.bind_eq_bind, Option.bind_some]
          by_cases here : block.2.key = key
          · simp only [here, if_true, decide_true, Option.map_some]
            exact ⟨fun out same => (Option.some.inj same).symm, fun _ => rfl⟩
          · simp only [here, if_false, decide_false]
            exact ⟨(ih next along fuel).1, fun enough => (ih next along fuel).2
              (Nat.lt_of_succ_lt_succ enough)⟩

variable {hash} {table after : HashTable Key Value} {chains : Nat → List (Block Key Value)}

theorem finds_iff (stored : Stored hash table chains) (positive : 0 < table.arraySize) (key : Key)
    (value : Value) :
    Finds hash table key value ↔ ∃ p, (p, ⟨key, value⟩) ∈ chains (htIndex hash table key) := by
  have inside := index_lt hash positive key
  have looks := lookFor_chain table.heap key _ _ (stored.chain _ inside)
  constructor
  · rintro ⟨fuel, found⟩
    obtain ⟨⟨p, ⟨key', value'⟩⟩, first, rfl⟩ :=
      Option.map_eq_some_iff.mp ((looks fuel).1 _ found).symm
    have hits : key' = key := by simpa using List.find?_some first
    subst hits
    exact ⟨p, List.mem_of_find?_eq_some first⟩
  · rintro ⟨p, member⟩
    obtain ⟨out, ended⟩ := Option.isSome_iff_exists.mp ((looks _).2 (Nat.lt_succ_self _))
    refine ⟨_, ended.trans ?_⟩
    rw [(looks _).1 out ended]
    have some : ((chains (htIndex hash table key)).find? fun block => block.2.key = key).isSome :=
      List.find?_isSome.mpr ⟨_, member, decide_eq_true rfl⟩
    obtain ⟨block, first⟩ := Option.isSome_iff_exists.mp some
    have hits : block.2.key = key := by simpa using List.find?_some first
    rw [first, same_block (stored.unique _ inside) (List.mem_of_find?_eq_some first) member hits]
    rfl

theorem mem_putIn (entry : Ptr) (data : HashEntry Key Value) (chain : List (Block Key Value))
    (block : Block Key Value) (member : block ∈ putIn stamp now entry data chain) :
    block.2 = data ∨ block ∈ fresh stamp now chain ∧ block.2.key ≠ data.key := by
  cases hits : known stamp now data.key chain with
  | true =>
      rw [putIn, if_pos hits] at member
      obtain ⟨old, listed, rfl⟩ := List.mem_map.mp member
      by_cases same : old.2.key = data.key
      · rw [replaced, if_pos same]
        exact Or.inl rfl
      · rw [replaced, if_neg same]
        exact Or.inr ⟨listed, same⟩
  | false =>
      rw [putIn, if_neg (by rw [hits]; exact Bool.false_ne_true)] at member
      rcases List.mem_append.mp member with old | new
      · exact Or.inr ⟨old, unknown_keys stamp now data.key chain hits block old⟩
      · rw [List.mem_singleton.mp new]
        exact Or.inl rfl

theorem putIn_new (entry : Ptr) (data : HashEntry Key Value) (chain : List (Block Key Value)) :
    ∃ p, (p, data) ∈ putIn stamp now entry data chain := by
  cases hits : known stamp now data.key chain with
  | true =>
      obtain ⟨block, member, same⟩ := List.any_eq_true.mp hits
      rw [putIn, if_pos hits]
      refine ⟨block.1, List.mem_map.mpr ⟨block, member, if_pos (of_decide_eq_true same)⟩⟩
  | false =>
      rw [putIn, if_neg (by rw [hits]; exact Bool.false_ne_true)]
      exact ⟨entry, List.mem_append_right _ (List.mem_singleton_self _)⟩

theorem putIn_old (entry : Ptr) (data : HashEntry Key Value) (chain : List (Block Key Value))
    (block : Block Key Value) (member : block ∈ fresh stamp now chain)
    (other : block.2.key ≠ data.key) : block ∈ putIn stamp now entry data chain := by
  cases hits : known stamp now data.key chain with
  | true =>
      rw [putIn, if_pos hits]
      exact List.mem_map.mpr ⟨block, member, if_neg other⟩
  | false =>
      rw [putIn, if_neg (by rw [hits]; exact Bool.false_ne_true)]
      exact List.mem_append_left _ member

theorem replaced_key (data : HashEntry Key Value) (block : Block Key Value) :
    (replaced data block).2.key = block.2.key := by
  by_cases same : block.2.key = data.key
  · rw [replaced, if_pos same, same]
  · rw [replaced, if_neg same]

theorem putIn_unique (entry : Ptr) (data : HashEntry Key Value) (chain : List (Block Key Value))
    (unique : (chain.map fun block => block.2.key).Nodup) :
    ((putIn stamp now entry data chain).map fun block => block.2.key).Nodup := by
  have kept : ((fresh stamp now chain).map fun block => block.2.key).Nodup :=
    (List.filter_sublist.map _).nodup unique
  cases hits : known stamp now data.key chain with
  | true =>
      rw [putIn, if_pos hits, List.map_map]
      have keys : (fun block : Block Key Value => block.2.key) ∘ replaced data = fun block =>
          block.2.key :=
        funext (replaced_key data)
      rw [keys]
      exact kept
  | false =>
      rw [putIn, if_neg (by rw [hits]; exact Bool.false_ne_true), List.map_append]
      refine List.nodup_append.mpr ⟨kept, List.nodup_singleton _, fun key old other new => ?_⟩
      obtain ⟨block, member, rfl⟩ := List.mem_map.mp old
      rw [List.mem_singleton.mp new]
      exact unknown_keys stamp now data.key chain hits block member

theorem length_putIn (entry : Ptr) (data : HashEntry Key Value) (chain : List (Block Key Value)) :
    ((putIn stamp now entry data chain).length : Int) =
      chain.length - timedOuts stamp now chain + added stamp now data.key chain := by
  have whole := length_fresh stamp now chain
  rw [putIn, added]
  by_cases hits : known stamp now data.key chain
  · rw [if_pos hits, if_pos hits, List.length_map]
    omega
  · rw [if_neg hits, if_neg hits, List.length_append, List.length_singleton]
    omega

theorem spare_putIn (entry : Ptr) (data : HashEntry Key Value) (chain : List (Block Key Value)) :
    (((putIn stamp now entry data chain).length - 1 : Nat) : Int) ≤
      ((chain.length - 1 : Nat) : Int) -
      timedOuts stamp now (fromFresh stamp now chain) + collided stamp now data.key chain := by
  have whole := length_putIn stamp now entry data chain
  have kept := length_fresh stamp now chain
  have behind := length_fresh stamp now (fromFresh stamp now chain)
  have shorter : (fromFresh stamp now chain).length ≤ chain.length :=
    (List.dropWhile_sublist _).length_le
  rw [fresh_fromFresh] at behind
  rw [added] at whole
  rw [collided]
  by_cases empty : fresh stamp now chain = []
  · have none : known stamp now data.key chain = false := by rw [known, empty, List.any_nil]
    rw [fromFresh_empty stamp now chain empty]
    rw [empty] at kept
    rw [none, if_neg Bool.false_ne_true] at whole
    rw [if_pos (Or.inr empty)]
    simp only [List.length_nil] at kept
    simp only [timedOuts, List.countP_nil] at kept whole ⊢
    omega
  · have some := List.length_pos_iff.mpr empty
    by_cases hits : known stamp now data.key chain
    · rw [if_pos hits] at whole
      rw [if_pos (Or.inl hits)]
      omega
    · rw [if_neg hits] at whole
      rw [if_neg (not_or.mpr ⟨hits, empty⟩)]
      omega

variable {stamp now}

theorem stored_insert (stored : Stored hash table chains) (positive : 0 < table.arraySize)
    {entry : Ptr} {data : HashEntry Key Value} (live : table.heap entry ≠ none)
    (outside : ∀ i < table.arraySize, entry ∉ pointers (chains i))
    (placed : Placed stamp now table (htIndex hash table data.key) entry data
      (chains (htIndex hash table data.key)) after) :
    Stored hash after
      (Function.update chains (htIndex hash table data.key)
        (putIn stamp now entry data (chains (htIndex hash table data.key)))) := by
  have inside := index_lt hash positive data.key
  refine stored_leaves stored placed ?_ ?_ ?_
    (putIn_unique stamp now entry data _ (stored.unique _ inside))
  · refine List.not_mem_cons_of_ne_of_not_mem (fun zero => ?_) (stored.chain _ inside).null_apart
    rw [← zero] at live
    exact live stored.null
  · intro i below other q member
    refine List.not_mem_cons_of_ne_of_not_mem (fun same => ?_)
      (chains_apart stored inside below other q member)
    exact outside i below (same ▸ member)
  · intro block member
    rcases mem_putIn stamp now entry data _ block member with new | old
    · rw [new]
    · exact stored.placed _ inside block ((mem_fresh stamp now _ block).mp old.1).1

theorem counted_insert (positive : 0 < table.arraySize) {entry : Ptr} {data : HashEntry Key Value}
    (counted : table.keyCount = ∑ i ∈ Finset.range table.arraySize, ((chains i).length : Int))
    (placed : Placed stamp now table (htIndex hash table data.key) entry data
      (chains (htIndex hash table data.key)) after) :
    after.keyCount = ∑ i ∈ Finset.range after.arraySize,
      ((Function.update chains (htIndex hash table data.key)
      (putIn stamp now entry data (chains (htIndex hash table data.key))) i).length : Int) := by
  refine counted_leaves (index_lt hash positive data.key) placed counted ?_
  rw [length_putIn]
  omega

theorem collided_insert (positive : 0 < table.arraySize) {entry : Ptr} {data : HashEntry Key Value}
    (spare : ∑ i ∈ Finset.range table.arraySize,
      (((chains i).length - 1 : Nat) : Int) ≤ table.collisions)
    (placed : Placed stamp now table (htIndex hash table data.key) entry data
      (chains (htIndex hash table data.key)) after) :
    ∑ i ∈ Finset.range after.arraySize, (((Function.update chains (htIndex hash table data.key)
      (putIn stamp now entry data (chains (htIndex hash table data.key))) i).length - 1 : Nat) :
        Int) ≤ after.collisions := by
  refine spare_leaves (index_lt hash positive data.key) placed spare ?_
  have longer := spare_putIn stamp now entry data (chains (htIndex hash table data.key))
  omega

end

end LazyAS.AgingTable

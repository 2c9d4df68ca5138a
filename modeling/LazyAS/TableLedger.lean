import LazyAS.CollisionCount
import LazyAS.StationBaselines

/-! What whole runs of insertions and removals leave in the hash table, against a ledger of the
values written: what `ht_get` finds, and what `ht_keys` lists. -/
namespace LazyAS.TableLedger
open LinkedChain AgingHash AgingInsert AgingTable AgingResize AgingSessions AgingRemove
  StationBaselines CollisionCount Runs

/-! The ledger. -/

section
variable {Key Value : Type}

/-- The value last written for each key that was not removed since, and whether no insertion since,
its own included, has found that value timed out. -/
structure Ledger (Key Value : Type) where
  written : Key → Option Value
  safe : Key → Bool

def noValues : Ledger Key Value where
  written := fun _ => none
  safe := fun _ => false

variable [DecidableEq Key] (stamp : Value → Int)

def Ledger.next (ledger : Ledger Key Value) : CollisionCount.Call Key Value → Ledger Key Value
  | .insert _ key value now _ =>
      { written := Function.update ledger.written key (some value)
        safe := fun other =>
          if other = key then !timedOut stamp now value
          else ledger.safe other && (ledger.written other).all fun kept =>
            !timedOut stamp now kept }
  | .remove key _ => { ledger with written := Function.update ledger.written key none }

/-- What the table finds is in the ledger, and what is safe there is found. -/
structure Refines (hash : Key → Nat) (table : HashTable Key Value) (ledger : Ledger Key Value) :
    Prop where
  reads : ∀ key value, Finds hash table key value → ledger.written key = some value
  keeps : ∀ key value, ledger.written key = some value → ledger.safe key = true →
    Finds hash table key value

end

section
variable {Key Value : Type} [DecidableEq Key] {hash : Key → Nat} {stamp : Value → Int} {now : Int}
  {table after : HashTable Key Value} {chains : Nat → List (Block Key Value)}

theorem finds_functional (stored : Stored hash table chains) (positive : 0 < table.arraySize)
    {key : Key} {value other : Value} (first : Finds hash table key value)
    (second : Finds hash table key other) : value = other := by
  obtain ⟨p, here⟩ := (finds_iff stored positive key value).mp first
  obtain ⟨q, there⟩ := (finds_iff stored positive key other).mp second
  have same := same_block (stored.unique _ (index_lt hash positive key)) here there rfl
  exact congrArg HashEntry.value (Prod.mk.inj same).2

theorem finds_back (stored : Stored hash table chains) (positive : 0 < table.arraySize)
    (moved : Moved hash stamp now (table.arraySize * 2) (entries table chains) after) {key : Key}
    {value : Value}
    (found : Finds hash after key value) : Finds hash table key value := by
  have larger : 0 < after.arraySize := by
    rw [moved.sized]
    exact Nat.mul_pos positive (by decide)
  obtain ⟨p, member⟩ := (finds_iff moved.stored larger key value).mp found
  have grown : htIndex hash after key =
      hash key % (table.arraySize * 2) := by rw [htIndex, moved.sized]
  rw [grown, gathered_chain stored positive] at member
  apply (finds_iff stored positive key value).mpr
  exact ⟨p, List.filter_sublist.subset (gathered_subset stamp now _ member)⟩

theorem insert_finds (sound : Sound hash table chains) {entry : Ptr} (nonnull : entry ≠ 0)
    (new : table.heap entry = none) (key : Key) (value : Value) (fuel : Nat)
    (ended : htInsert hash stamp now fuel table entry key value = some after) :
    (timedOut stamp now value = false → Finds hash after key value) ∧
      ∀ other kept, Finds hash after other kept → other = key ∧ kept = value ∨ other ≠ key ∧
        Finds hash table other kept := by
  -- what is found after an insertion was inserted by it or found before
  obtain ⟨outside, made⟩ := created sound nonnull new ⟨key, value⟩
  have positive : 0 < table.arraySize := Nat.lt_of_lt_of_le (by decide) sound.large
  have live : Function.update table.heap entry (some ⟨⟨key, value⟩, 0⟩) entry =
      some ⟨⟨key, value⟩, 0⟩ := Function.update_self ..
  have used : Function.update table.heap entry (some ⟨⟨key, value⟩, 0⟩) entry ≠ none := by simp
  obtain ⟨_, middle, placed, ends⟩ := insertHe_cases made live outside fuel ended
  obtain ⟨own, others⟩ := finds_placed made.toStored positive used outside placed
  have stored := stored_insert made.toStored positive used outside placed
  have positive' : 0 < middle.arraySize := by rwa [placed.size]
  have between (other : Key) (kept : Value) (found : Finds hash middle other kept) :
      other = key ∧ kept = value ∨ other ≠ key ∧ Finds hash table other kept := by
    by_cases here : other = key
    · subst here
      exact Or.inl ⟨rfl, finds_functional stored positive' found own⟩
    · exact Or.inr ⟨here, (finds_created sound nonnull new _ other kept).mp
        ((others other kept here).mp found).1⟩
  rcases ends with ⟨_, rfl⟩ | ⟨_, moved, _⟩
  · exact ⟨fun _ => own, between⟩
  · constructor
    · intro fresh
      exact finds_moved stored positive' moved key value fresh own
    · intro other kept found
      exact between other kept (finds_back stored positive' moved found)

theorem without_keys {key : Key} {chain : List (Block Key Value)}
    (unique : (chain.map fun block => block.2.key).Nodup) {block : Block Key Value}
    (member : block ∈ without key chain) : block.2.key ≠ key := by
  induction chain with
  | nil => cases member
  | cons first rest ih =>
      obtain ⟨apart, unique⟩ := List.nodup_cons.mp unique
      rw [without_cons] at member
      by_cases hits : first.2.key = key
      · rw [if_pos hits] at member
        intro same
        exact apart (List.mem_map.mpr ⟨block, member, same.trans hits.symm⟩)
      · rw [if_neg hits] at member
        rcases List.mem_cons.mp member with rfl | later
        · exact hits
        · exact ih unique later

theorem remove_finds (sound : Sound hash table chains) (key : Key) (fuel : Nat)
    (ended : htRemove hash fuel table key = some after) (other : Key) (kept : Value) :
    Finds hash after other kept ↔ other ≠ key ∧ Finds hash table other kept := by
  -- after a removal the other keys are found, and nothing else
  have positive : 0 < table.arraySize := Nat.lt_of_lt_of_le (by decide) sound.large
  obtain ⟨size, sound'⟩ := sound_remove sound key fuel ended
  have positive' : 0 < after.arraySize := size ▸ positive
  have same : htIndex hash after other = htIndex hash table other := by rw [htIndex, size, htIndex]
  constructor
  · intro found
    obtain ⟨p, member⟩ := (finds_iff sound'.toStored positive' other kept).mp found
    rw [same] at member
    by_cases here : htIndex hash table other = htIndex hash table key
    · rw [here, Function.update_self] at member
      constructor
      · exact without_keys (sound.unique _ (index_lt hash positive key)) member
      · apply (finds_iff sound.toStored positive other kept).mpr
        exact ⟨p, here ▸ List.eraseP_sublist.subset member⟩
    · rw [Function.update_of_ne here] at member
      constructor
      · rintro rfl
        exact here rfl
      · exact (finds_iff sound.toStored positive other kept).mpr ⟨p, member⟩
  · rintro ⟨different, found⟩
    apply finds_changed sound sound' size key _ other kept different found
    intro block member away
    exact (List.mem_eraseP_of_neg (by simpa using away)).mpr member

theorem refines_next (sound : Sound hash table chains) {ledger : Ledger Key Value}
    (refines : Refines hash table ledger) (call : CollisionCount.Call Key Value)
    (ends : CollisionCount.Ends hash stamp table call) :
    Refines hash (CollisionCount.next hash stamp table call) (ledger.next stamp call) := by
  -- one call, in the table and in the ledger
  obtain ⟨returns, fresh⟩ := ends
  obtain ⟨after, ended⟩ := Option.isSome_iff_exists.mp returns
  have result : CollisionCount.next hash stamp table call = after := by
    rw [CollisionCount.next, ended]
    rfl
  rw [result]
  cases call with
  | insert entry key value now fuel =>
      obtain ⟨own, between⟩ := insert_finds sound fresh.1 fresh.2 key value (fuel + 1) ended
      have others := (inserted sound fresh.1 fresh.2 key value (fuel + 1) ended
        fun kept => timedOut stamp now kept = false).2.mpr
          ⟨fun _ _ _ alive => alive, fun _ _ _ _ _ _ _ alive => alive⟩
      constructor
      · intro other kept found
        rcases between other kept found with ⟨rfl, rfl⟩ | ⟨different, before⟩
        · exact Function.update_self ..
        · exact (Function.update_of_ne different ..).trans (refines.reads other kept before)
      · intro other kept written safe
        simp only [Ledger.next] at written safe
        by_cases here : other = key
        · subst here
          rw [Function.update_self] at written
          rw [if_pos rfl] at safe
          cases written
          exact own (by simpa using safe)
        · rw [Function.update_of_ne here] at written
          rw [if_neg here, written, Bool.and_eq_true] at safe
          exact others other kept here (by simpa using safe.2)
            (refines.keeps other kept written safe.1)
  | remove key fuel =>
      have finds := remove_finds sound key fuel ended
      constructor
      · intro other kept found
        obtain ⟨different, before⟩ := (finds other kept).mp found
        exact (Function.update_of_ne different ..).trans (refines.reads other kept before)
      · intro other kept written safe
        simp only [Ledger.next] at written safe
        have different : other ≠ key := by
          rintro rfl
          rw [Function.update_self] at written
          cases written
        rw [Function.update_of_ne different] at written
        exact (finds other kept).mpr ⟨different, refines.keeps other kept written safe⟩

theorem sound_next (sound : Sound hash table chains) (call : CollisionCount.Call Key Value)
    (ends : CollisionCount.Ends hash stamp table call) :
    ∃ grown, Sound hash (CollisionCount.next hash stamp table call) grown := by
  obtain ⟨returns, fresh⟩ := ends
  obtain ⟨after, ended⟩ := Option.isSome_iff_exists.mp returns
  rw [CollisionCount.next, ended]
  cases call with
  | insert entry key value now fuel =>
      exact (inserted sound fresh.1 fresh.2 key value (fuel + 1) ended fun _ => True).1
  | remove key fuel => exact ⟨_, (sound_remove sound key fuel ended).2⟩

theorem run_refines (calls : List (CollisionCount.Call Key Value)) (table : HashTable Key Value)
    (ledger : Ledger Key Value) (sound : ∃ chains, Sound hash table chains)
    (refines : Refines hash table ledger)
    (ends : Allowed (CollisionCount.next hash stamp) (CollisionCount.Ends hash stamp) table calls) :
    (∃ chains, Sound hash (run (CollisionCount.next hash stamp) table calls) chains) ∧
      Refines hash (run (CollisionCount.next hash stamp) table calls)
        (calls.foldl (Ledger.next stamp) ledger) := by
  induction calls generalizing table ledger with
  | nil => exact ⟨sound, refines⟩
  | cons call calls ih =>
      obtain ⟨chains, sound⟩ := sound
      exact ih _ _ (sound_next sound call ends.1) (refines_next sound refines call ends.1) ends.2

theorem built_refines (hash : Key → Nat) (stamp : Value → Int) (heap : Heap (HashEntry Key Value))
    (null : heap 0 = none) (calls : List (CollisionCount.Call Key Value))
    (ends : Allowed (CollisionCount.next hash stamp) (CollisionCount.Ends hash stamp)
      (htInit initialSize heap) calls) :
    (∃ chains, Sound hash (run (CollisionCount.next hash stamp) (htInit initialSize heap) calls)
      chains) ∧
      Refines hash (run (CollisionCount.next hash stamp) (htInit initialSize heap) calls)
        (calls.foldl (Ledger.next stamp) noValues) := by
  have sound := sound_init hash heap null
  apply run_refines calls _ _ ⟨_, sound⟩ _ ends
  constructor
  · intro key value found
    obtain ⟨p, member⟩ := (finds_iff sound.toStored (show 0 < initialSize by decide) key value).mp
        found
    cases member
  · intro key value written
    cases written

/-- After any run, `ht_get` comes to its end with what was last written for the key, if it was not
removed since; only where an insertion since has found that value timed out it may find nothing. -/
theorem gets_written (hash : Key → Nat) (stamp : Value → Int) (heap : Heap (HashEntry Key Value))
    (null : heap 0 = none) (calls : List (CollisionCount.Call Key Value))
    (ends : Allowed (CollisionCount.next hash stamp) (CollisionCount.Ends hash stamp)
      (htInit initialSize heap) calls)
    (key : Key) :
    ∃ fuel out, htGet hash fuel
      (run (CollisionCount.next hash stamp) (htInit initialSize heap) calls) key = some out ∧
      (out = (calls.foldl (Ledger.next stamp) noValues).written key ∨
        out = none ∧ (calls.foldl (Ledger.next stamp) noValues).safe key = false) := by
  obtain ⟨⟨chains, sound⟩, refines⟩ := built_refines hash stamp heap null calls ends
  have positive := Nat.lt_of_lt_of_le (show 0 < initialSize by decide) sound.large
  have total := (lookFor_chain _ key _ _ (sound.chain _ (index_lt hash positive key)) _).2
      (Nat.lt_succ_self _)
  obtain ⟨out, ended⟩ := Option.isSome_iff_exists.mp total
  refine ⟨_, out, ended, ?_⟩
  cases out with
  | some value => exact Or.inl (refines.reads key value ⟨_, ended⟩).symm
  | none =>
      cases written : (calls.foldl (Ledger.next stamp) noValues).written key with
      | none => exact Or.inl rfl
      | some value =>
          right
          constructor
          · rfl
          · apply Bool.eq_false_iff.mpr
            intro safe
            -- it would be found after all, whatever the fuel
            obtain ⟨p, member⟩ := (finds_iff sound.toStored positive key value).mp
                (refines.keeps key value written safe)
            have missing := (lookFor_chain _ key _ _ (sound.chain _ (index_lt hash positive key))
                _).1 _ ended
            have none' := List.find?_eq_none.mp (Option.map_eq_none_iff.mp missing.symm) _ member
            exact none' (decide_eq_true rfl)

def firstAged : List (CollisionCount.Call Nat Int) :=
  [.insert 1 10 100 100 5, .insert 2 20 140 140 5]

theorem firstAged_ends : Allowed (CollisionCount.next (fun _ => 3) id)
    (CollisionCount.Ends (fun _ => 3) id) (htInit initialSize fun _ => none) firstAged :=
  ⟨⟨rfl, by decide, rfl⟩, ⟨rfl, by decide, rfl⟩, trivial⟩

theorem gets_written_aged : ∃ fuel out,
    htGet (fun _ => 3) fuel
      (run (CollisionCount.next (fun _ => 3) id) (htInit initialSize fun _ => none) firstAged) 10 =
      some out ∧
    (out = (firstAged.foldl (Ledger.next id) noValues).written 10 ∨
      out = none ∧ (firstAged.foldl (Ledger.next id) noValues).safe 10 = false) :=
  gets_written (fun _ => 3) id (fun _ => none) rfl firstAged firstAged_ends 10

end

/-! `ht_keys`. -/

section
variable {Key Value : Type}

/-- The inner loop of `ht_keys`: the keys of one chain go into the array, which has room for `room`
of them. -/
def keysFrom (heap : Heap (HashEntry Key Value)) (room : Nat) :
    Nat → List Key → Ptr → Option (List Key)
  | 0, _, _ => none
  | fuel + 1, ret, tmp =>
      if tmp = 0 then some ret
      else if ret.length < room then do
        let block ← heap tmp
        keysFrom heap room fuel (ret ++ [block.data.key]) block.pNext
      else none

/-- `ht_keys`: the keys it has put into its array, which is not even allocated for an empty table.
-/
def htKeys (fuel : Nat) (table : HashTable Key Value) : Option (List Key) :=
  if table.keyCount = 0 then some []
  else (List.range table.arraySize).foldlM
    (fun ret i => keysFrom table.heap table.keyCount.toNat fuel ret (table.array i)) []

def blockKeys (blocks : List (Block Key Value)) : List Key := blocks.map fun block => block.2.key

theorem keysFrom_chain (heap : Heap (HashEntry Key Value)) (room : Nat)
    (chain : List (Block Key Value)) (p : Ptr) (linked : Chain heap p chain) (fuel : Nat)
    (enough : chain.length < fuel) (ret : List Key) (fits : ret.length + chain.length ≤ room) :
    keysFrom heap room fuel ret p = some (ret ++ blockKeys chain) := by
  induction chain generalizing p fuel ret with
  | nil =>
      obtain ⟨fuel, rfl⟩ : ∃ less, fuel = less + 1 := ⟨fuel - 1, by omega⟩
      have null : p = 0 := linked
      rw [keysFrom, if_pos null, blockKeys, List.map_nil, List.append_nil]
  | cons block rest ih =>
      obtain ⟨fuel, rfl⟩ : ∃ less, fuel = less + 1 := ⟨fuel - 1, by omega⟩
      obtain ⟨rfl, nonnull, next, live, along⟩ := linked
      rw [List.length_cons] at enough fits
      have space : ret.length < room := by omega
      rw [keysFrom, if_neg nonnull, if_pos space, live]
      simp only [Option.bind_eq_bind, Option.bind_some]
      rw [ih next along fuel (by omega) _ (by simp; omega)]
      simp [blockKeys]

theorem keys_chains (table : HashTable Key Value) (chains : Nat → List (Block Key Value))
    (room fuel : Nat) (indices : List Nat)
    (linked : ∀ i ∈ indices, Chain table.heap (table.array i) (chains i))
    (enough : ∀ i ∈ indices, (chains i).length < fuel) (ret : List Key)
    (fits : ret.length + (indices.flatMap chains).length ≤ room) :
    indices.foldlM (fun ret i => keysFrom table.heap room fuel ret (table.array i)) ret =
      some (ret ++ blockKeys (indices.flatMap chains)) := by
  induction indices generalizing ret with
  | nil => simp [blockKeys]
  | cons i indices ih =>
      rw [List.flatMap_cons, List.length_append] at fits
      rw [List.foldlM_cons, keysFrom_chain table.heap room
        (chains i) _ (linked i List.mem_cons_self) fuel (enough i List.mem_cons_self) ret
        (by omega)]
      simp only [Option.bind_eq_bind, Option.bind_some]
      rw [ih (fun j listed => linked j (List.mem_cons_of_mem _ listed))
        (fun j listed => enough j (List.mem_cons_of_mem _ listed))
          _ (by simp only [blockKeys, List.length_append, List.length_map]; omega)]
      simp [blockKeys]

theorem length_entries (table : HashTable Key Value) (chains : Nat → List (Block Key Value)) :
    ((entries table chains).length : Int) = ∑ i ∈ Finset.range table.arraySize,
      ((chains i).length : Int) := by
  unfold entries
  induction table.arraySize with
  | zero => simp
  | succ n ih =>
      rw [List.range_succ, List.flatMap_append, List.length_append, Nat.cast_add, ih,
        Finset.sum_range_succ]
      simp

variable {hash : Key → Nat} {table : HashTable Key Value} {chains : Nat → List (Block Key Value)}

theorem htKeys_sound (sound : Sound hash table chains) :
    ∃ fuel, htKeys fuel table = some (blockKeys (entries table chains)) := by
  have counted : table.keyCount = (entries table chains).length :=
    sound.counted.trans (length_entries table chains).symm
  by_cases empty : table.keyCount = 0
  · have none : entries table chains = [] := List.eq_nil_of_length_eq_zero (by omega)
    refine ⟨0, ?_⟩
    rw [htKeys, if_pos empty, none]
    rfl
  · refine ⟨(entries table chains).length + 1, ?_⟩
    rw [htKeys, if_neg empty,
      keys_chains table chains _ _ _ (fun i listed => sound.chain i (List.mem_range.mp listed))]
    · rfl
    · intro i listed
      apply Nat.lt_succ_of_le
      exact (List.sublist_flatten_of_mem (List.mem_map.mpr ⟨i, listed, rfl⟩)).length_le
    · change 0 + (entries table chains).length ≤ table.keyCount.toNat
      omega

variable [DecidableEq Key]

theorem mem_entries (sound : Sound hash table chains) (key : Key) :
    key ∈ blockKeys (entries table chains) ↔ ∃ value, Finds hash table key value := by
  have positive := Nat.lt_of_lt_of_le (show 0 < initialSize by decide) sound.large
  constructor
  · intro member
    obtain ⟨block, listed, rfl⟩ := List.mem_map.mp member
    obtain ⟨i, below, inChain⟩ := List.mem_flatMap.mp listed
    refine ⟨block.2.value, (finds_iff sound.toStored positive _ _).mpr ⟨block.1, ?_⟩⟩
    rw [sound.placed i (List.mem_range.mp below) block inChain]
    exact inChain
  · rintro ⟨value, found⟩
    obtain ⟨p, member⟩ := (finds_iff sound.toStored positive key value).mp found
    apply List.mem_map.mpr
    exact ⟨_, List.mem_flatMap.mpr ⟨_, List.mem_range.mpr (index_lt hash positive key), member⟩,
      rfl⟩

/-- After any run, `ht_keys` writes inside its array and fills it: it lists each key that `ht_get`
finds, and none twice. -/
theorem keys_listed (hash : Key → Nat) (stamp : Value → Int) (heap : Heap (HashEntry Key Value))
    (null : heap 0 = none) (calls : List (CollisionCount.Call Key Value))
    (ends : Allowed (CollisionCount.next hash stamp) (CollisionCount.Ends hash stamp)
      (htInit initialSize heap) calls) :
    ∃ fuel keys, htKeys fuel
      (run (CollisionCount.next hash stamp) (htInit initialSize heap) calls) = some keys ∧
      keys.Nodup ∧
      (keys.length : Int) = (run (CollisionCount.next hash stamp) (htInit initialSize heap)
        calls).keyCount ∧
      ∀ key, key ∈ keys ↔
        ∃ value, Finds hash (run (CollisionCount.next hash stamp) (htInit initialSize heap) calls)
          key value := by
  obtain ⟨⟨chains, sound⟩, _⟩ := built_refines hash stamp heap null calls ends
  obtain ⟨fuel, listed⟩ := htKeys_sound sound
  refine ⟨fuel, _, listed, (entries_distinct sound.toStored).2, ?_, mem_entries sound⟩
  rw [sound.counted, ← length_entries, blockKeys, List.length_map]

theorem keys_listed_aged :
    ∃ fuel keys, htKeys fuel
      (run (CollisionCount.next (fun _ => 3) id) (htInit initialSize fun _ => none) firstAged) =
        some keys ∧
      keys.Nodup ∧
      (keys.length : Int) = (run (CollisionCount.next (fun _ => 3) id)
        (htInit initialSize fun _ => none) firstAged).keyCount ∧
      ∀ key, key ∈ keys ↔ ∃ value,
        Finds (fun _ => 3) (run (CollisionCount.next (fun _ => 3) id)
          (htInit initialSize fun _ => none) firstAged) key value :=
  keys_listed (fun _ => 3) id (fun _ => none) rfl firstAged firstAged_ends

end

end LazyAS.TableLedger

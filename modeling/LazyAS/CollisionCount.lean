import LazyAS.AgingRemove
import LazyAS.AgingSessions
import LazyAS.Runs

/-! What `collisions` counts. The load that `ht_insert_he` compares with its bound is the one of the
table as long as no entry is taken from the front of a chain that goes on behind it: neither loop
counts such an entry off. A table that has just grown was counted anew. -/
namespace LazyAS.CollisionCount
open LinkedChain AgingHash AgingWalk AgingInsert AgingTable AgingResize AgingSessions
  AgingRemove Runs

section
variable {Key Value : Type}

def crowding (size : Nat) (chains : Nat → List (Block Key Value)) : Int :=
  ∑ i ∈ Finset.range size, (((chains i).length - 1 : Nat) : Int)

def Exact (hash : Key → Nat) (table : HashTable Key Value) : Prop :=
  ∃ chains, Stored hash table chains ∧ table.collisions = crowding table.arraySize chains

theorem exact_iff {hash : Key → Nat} {table : HashTable Key Value}
    {chains : Nat → List (Block Key Value)} (stored : Stored hash table chains) :
    Exact hash table ↔ table.collisions = crowding table.arraySize chains := by
  constructor
  · rintro ⟨chains', stored', counted⟩
    rw [counted]
    apply Finset.sum_congr rfl
    intro i member
    have below := Finset.mem_range.mp member
    rw [(stored'.chain i below).unique (stored.chain i below)]
  · intro counted
    exact ⟨chains, stored, counted⟩

theorem crowding_changed (chains : Nat → List (Block Key Value)) (kept : List (Block Key Value))
    {size index : Nat} (inside : index < size) : crowding size (Function.update chains index kept) =
      crowding size chains - ((chains index).length - 1 : Nat) + (kept.length - 1 : Nat) :=
  sum_changed (fun chain => ((chain.length - 1 : Nat) : Int)) chains kept inside

/-! One chain. -/

section
variable (stamp : Value → Int) (now : Int)

/-- The first entry has timed out, and another one stands behind it. -/
def DropsHead : List (Block Key Value) → Prop
  | first :: _ :: _ => timedOut stamp now first.2.value = true
  | _ => False

theorem fromFresh_shorter (first : Block Key Value) (rest : List (Block Key Value))
    (old : timedOut stamp now first.2.value = true) :
    (fromFresh stamp now (first :: rest)).length ≤ rest.length := by
  rw [fromFresh_cons, if_pos old]
  exact (List.dropWhile_sublist _).length_le

theorem gathered_calm (blocks : List (Block Key Value)) :
    ¬ DropsHead stamp now (gathered stamp now blocks) := by
  rcases List.eq_nil_or_concat' blocks with rfl | ⟨before, last, rfl⟩
  · exact id
  · rw [gathered_last]
    cases kept : fresh stamp now before with
    | nil => exact id
    | cons first rest =>
        have new : first ∈ fresh stamp now before := by
          rw [kept]
          exact List.mem_cons_self ..
        have young := ((mem_fresh stamp now before first).mp new).2
        cases rest <;> simp [DropsHead, young]

variable [DecidableEq Key]

theorem putIn_alone (entry : Ptr) (data : HashEntry Key Value) (chain : List (Block Key Value))
    (empty : fresh stamp now chain = []) :
    (((putIn stamp now entry data chain).length - 1 : Nat) : Int) =
      ((chain.length - 1 : Nat) : Int) -
      (timedOuts stamp now (fromFresh stamp now chain) - collided stamp now data.key chain) ↔
    ¬ DropsHead stamp now chain := by
  -- an insertion into a chain whose entries have all timed out leaves the new entry alone
  have whole := length_putIn stamp now entry data chain
  have kept := length_fresh stamp now chain
  have none : known stamp now data.key chain = false := by rw [known, empty, List.any_nil]
  rw [added, none, if_neg Bool.false_ne_true] at whole
  rw [empty, List.length_nil] at kept
  rw [collided, fromFresh_empty stamp now chain empty, if_pos (Or.inr empty)]
  simp only [timedOuts, List.countP_nil] at kept whole ⊢
  cases chain with
  | nil =>
      simp only [DropsHead, List.length_nil, not_false_eq_true, iff_true] at whole ⊢
      omega
  | cons first rest =>
      have old : timedOut stamp now first.2.value = true := by
        by_contra new
        simp [fresh_cons, new] at empty
      cases rest with
      | nil =>
          simp only [DropsHead, List.length_singleton] at kept whole ⊢
          simp only [not_false_eq_true, iff_true]
          omega
      | cons second rest =>
          simp only [DropsHead, old, not_true, iff_false, List.length_cons] at kept whole ⊢
          omega

/-- An insertion changes `collisions` as it changes the chain, but for a timed out entry at its
front. -/
theorem putIn_exact (entry : Ptr) (data : HashEntry Key Value) (chain : List (Block Key Value)) :
    (((putIn stamp now entry data chain).length - 1 : Nat) : Int) =
      ((chain.length - 1 : Nat) : Int) -
      (timedOuts stamp now (fromFresh stamp now chain) - collided stamp now data.key chain) ↔
    ¬ DropsHead stamp now chain := by
  by_cases empty : fresh stamp now chain = []
  · exact putIn_alone stamp now entry data chain empty
  · have some := List.length_pos_iff.mpr empty
    have whole := length_putIn stamp now entry data chain
    have kept := length_fresh stamp now chain
    have behind := length_fresh stamp now (fromFresh stamp now chain)
    rw [fresh_fromFresh] at behind
    rw [added] at whole
    have same : (if known stamp now data.key chain = true ∨ fresh stamp now chain = [] then
        (0 : Int) else 1) =
        if known stamp now data.key chain = true then 0 else 1 := by simp [empty]
    rw [collided, same]
    cases chain with
    | nil => simp [fresh] at empty
    | cons first rest =>
        by_cases old : timedOut stamp now first.2.value = true
        · have shorter := fromFresh_shorter stamp now first rest old
          have long : rest ≠ [] := by
            rintro rfl
            simp [old, fresh] at empty
          obtain ⟨second, others, rfl⟩ := List.exists_cons_of_ne_nil long
          simp only [DropsHead, old, not_true, iff_false]
          rw [List.length_cons] at kept whole ⊢
          omega
        · have all : fromFresh stamp now (first :: rest) =
              first :: rest := by rw [fromFresh_cons, if_neg old]
          have calm : ¬ DropsHead stamp now (first :: rest) := by
            cases rest with
            | nil => exact id
            | cons => exact old
          rw [all] at behind ⊢
          simp only [calm, not_false_eq_true, iff_true]
          omega

end

section
variable [DecidableEq Key] (key : Key)

/-- The first entry has the key, and another one stands behind it. -/
def RemovesHead : List (Block Key Value) → Prop
  | first :: _ :: _ => first.2.key = key
  | _ => False

/-- A removal changes `collisions` as it changes the chain, but for an entry at its front. -/
theorem without_exact (chain : List (Block Key Value)) :
    (((without key chain).length - 1 : Nat) : Int) =
      ((chain.length - 1 : Nat) : Int) - goneBehind key chain ↔
      ¬ RemovesHead key chain := by
  cases chain with
  | nil => simp [without, goneBehind, RemovesHead]
  | cons first rest =>
      have shorter : (without key rest).length ≤ rest.length := List.eraseP_sublist.length_le
      rw [goneBehind, without_cons, gone]
      by_cases hits : first.2.key = key
      · rw [if_pos hits, if_pos hits, List.length_cons]
        cases rest with
        | nil => simp [RemovesHead]
        | cons second rest =>
            simp only [RemovesHead, hits, not_true, iff_false, List.length_cons]
            omega
      · have calm : ¬ RemovesHead key (first :: rest) := by
          cases rest with
          | nil => exact id
          | cons => exact hits
        rw [if_neg hits, if_neg hits, List.length_cons, List.length_cons]
        simp only [calm, not_false_eq_true, iff_true]
        omega

end

/-! One call. -/

section
variable [DecidableEq Key] {hash : Key → Nat} {stamp : Value → Int} {now : Int}
variable {table after : HashTable Key Value} {chains : Nat → List (Block Key Value)}

theorem placed_exact (positive : 0 < table.arraySize) {entry : Ptr} {data : HashEntry Key Value}
    (exact' : table.collisions = crowding table.arraySize chains)
    (placed : Placed stamp now table (htIndex hash table data.key) entry data
      (chains (htIndex hash table data.key)) after) :
    after.collisions = crowding after.arraySize
      (Function.update chains (htIndex hash table data.key)
      (putIn stamp now entry data (chains (htIndex hash table data.key)))) ↔
    ¬ DropsHead stamp now (chains (htIndex hash table data.key)) := by
  have change := putIn_exact stamp now entry data (chains (htIndex hash table data.key))
  rw [placed.collided, placed.size, crowding_changed _ _ (index_lt hash positive data.key), exact',
    ← change]
  omega

theorem removed_exact (sound : Sound hash table chains)
    (exact' : table.collisions = crowding table.arraySize chains) (key : Key) (fuel : Nat)
    (ended : htRemove hash fuel table key = some after) :
    after.collisions = crowding after.arraySize (Function.update chains (htIndex hash table key)
      (without key (chains (htIndex hash table key)))) ↔
        ¬ RemovesHead key (chains (htIndex hash table key)) := by
  have positive : 0 < table.arraySize := Nat.lt_of_lt_of_le (by decide) sound.large
  have inside := index_lt hash positive key
  have leaves := remove_leaves hash table after key _ fuel (sound.chain _ inside)
      (chain_distinct sound.toStored inside) ended
  have change := without_exact key (chains (htIndex hash table key))
  rw [leaves.collided, leaves.size, crowding_changed _ _ inside, exact', ← change]
  omega

/-! The table grows: the entries are counted anew. -/

variable {size : Nat} {moved : List (Block Key Value)}

def CountsMoved (hash : Key → Nat) (stamp : Value → Int) (now : Int) (size : Nat)
    (moved : List (Block Key Value)) (table : HashTable Key Value) : Prop :=
  table.collisions = crowding size fun i => gathered stamp now (bucket hash size moved i)

theorem counts_one (moving : Moved hash stamp now size moved table) (positive : 0 < size)
    (fuel : Nat) {block : Block Key Value} {link : Ptr}
    (live : table.heap block.1 = some ⟨block.2, link⟩) (apart : block.1 ∉ pointers moved)
    (unknown : ∀ earlier ∈ moved, earlier.2.key ≠ block.2.key)
    (room : 20 * (table.collisions + crosses hash size moved block) ≤ size)
    (counts : CountsMoved hash stamp now size moved table)
    (ended : htInsertHe hash stamp now fuel table block.1 = some after) :
    CountsMoved hash stamp now size (moved ++ [block]) after := by
  have placed := ((move_placed moving positive fuel live apart room).1 after ended).2
  have positive' : 0 < table.arraySize := by rwa [moving.sized]
  have exact' : table.collisions =
      crowding table.arraySize fun i => gathered stamp now (bucket hash size moved i) := by
    rw [moving.sized]
    exact counts
  have one := (placed_exact positive' exact' placed).mpr (gathered_calm stamp now _)
  rw [placed.size, moving.sized] at one
  rw [CountsMoved, gathered_putIn hash stamp now table moving.sized block unknown]
  exact one

theorem counts_chain (rest : List (Block Key Value))
    (moving : Moved hash stamp now size moved table) (positive : 0 < size) (inner fuel : Nat)
    (p : Ptr) (linked : Chain table.heap p rest) (distinct : Distinct (moved ++ rest))
    (room : 20 * (table.collisions + crossings hash size moved rest) ≤ size)
    (counts : CountsMoved hash stamp now size moved table)
    (ended : moveChain (htInsertHe hash stamp now inner) fuel table p = some after) :
    CountsMoved hash stamp now size (moved ++ rest) after := by
  induction rest generalizing moved table fuel p with
  | nil =>
      cases fuel with
      | zero => nomatch ended
      | succ fuel =>
          have null : p = 0 := linked
          rw [moveChain, if_pos null] at ended
          cases ended
          rw [List.append_nil]
          exact counts
  | cons block rest ih =>
      cases fuel with
      | zero => nomatch ended
      | succ fuel =>
          obtain ⟨rfl, nonnull, next, live, along⟩ := linked
          have later := crossings_nonneg hash size (moved ++ [block]) rest
          obtain ⟨apart, unknown⟩ := distinct.next
          rw [crossings] at room
          rw [moveChain, if_neg nonnull, live] at ended
          simp only [Option.bind_eq_bind, Option.bind_some] at ended
          obtain ⟨middle, inserted, onward⟩ := Option.bind_eq_some_iff.mp ended
          -- the load stays low, so an entry that is moved makes the new table grow no further
          have moves := (move_one moving positive inner live apart unknown (by omega)).1 middle
              inserted
          have counted := counts_one moving positive inner live apart unknown (by omega) counts
              inserted
          have light := moves.light
          simp only [crossings] at light
          have split : moved ++ block :: rest = moved ++ [block] ++ rest := by simp
          rw [split] at distinct ⊢
          exact ih moves.all fuel next
            (along.frame fun q member => moves.frame q (distinct.away q member)) distinct
            (by omega) counted onward

theorem counts_chains (chains : Nat → List (Block Key Value)) (heads : Nat → Ptr)
    (indices : List Nat) (moving : Moved hash stamp now size moved table) (positive : 0 < size)
    (inner fuel : Nat) (linked : ∀ i ∈ indices, Chain table.heap (heads i) (chains i))
    (distinct : Distinct (moved ++ indices.flatMap chains))
    (room : 20 * (table.collisions + crossings hash size moved (indices.flatMap chains)) ≤ size)
    (counts : CountsMoved hash stamp now size moved table)
    (ended : indices.foldlM
      (fun newTable i => moveChain (htInsertHe hash stamp now inner) fuel newTable (heads i))
      table =
      some after) : CountsMoved hash stamp now size (moved ++ indices.flatMap chains) after := by
  induction indices generalizing moved table with
  | nil =>
      cases ended
      simpa using counts
  | cons i indices ih =>
      rw [List.flatMap_cons] at distinct room ⊢
      rw [crossings_append] at room
      have later := crossings_nonneg hash size (moved ++ chains i) (indices.flatMap chains)
      rw [← List.append_assoc] at distinct ⊢
      rw [List.foldlM_cons] at ended
      obtain ⟨middle, first, onward⟩ := Option.bind_eq_some_iff.mp ended
      have here := linked i List.mem_cons_self
      have moves := (move_chain (chains i) moving positive inner fuel (heads i) here distinct.first
          (by omega)).1 middle first
      have counted := counts_chain (chains i) moving positive inner fuel (heads i) here
          distinct.first (by omega) counts first
      have light := moves.light
      refine ih moves.all (fun j member => (linked j (List.mem_cons_of_mem _ member)).frame fun q
        within => moves.frame q ?_)
        distinct (by omega) counted onward
      refine distinct.away q (List.map_subset _ (fun block inside => ?_) within)
      exact List.mem_flatMap.mpr ⟨j, member, inside⟩

theorem counts_resized (stored : Stored hash table chains) (positive : 0 < size) (inner fuel : Nat)
    (room : 20 * crossings hash size [] (entries table chains) ≤ size)
    (ended : htResize (htInsertHe hash stamp now inner) fuel table size = some after) :
    CountsMoved hash stamp now size (entries table chains) after := by
  have empty : Moved hash stamp now size [] (htInit size table.heap : HashTable Key Value) :=
    moved_init stored size
  have start : (htInit size table.heap : HashTable Key Value).collisions = 0 := rfl
  apply counts_chains chains table.array (List.range table.arraySize) empty positive inner fuel
    (fun i member => stored.chain i (List.mem_range.mp member)) (entries_distinct stored) _ _ ended
  · rw [start, Int.zero_add]
    exact room
  · simp [CountsMoved, crowding, gathered, bucket, htInit]

end

end

/-! A run of insertions and removals. -/

section
variable {Key Value : Type}

/-- A call with what it meets: the memory that `malloc` returns, the clock, and how many passes its
loops may make. -/
inductive Call (Key Value : Type) where
  | insert (entry : Ptr) (key : Key) (value : Value) (now : Int) (fuel : Nat)
  | remove (key : Key) (fuel : Nat)

/-- A table beside the entry that `he_create` has filled in. -/
def withEntry (table : HashTable Key Value) (entry : Ptr) (key : Key) (value : Value) :
    HashTable Key Value :=
  { table with heap := Function.update table.heap entry (some ⟨⟨key, value⟩, 0⟩) }

variable [DecidableEq Key] (hash : Key → Nat) (stamp : Value → Int)

def perform (table : HashTable Key Value) : Call Key Value → Option (HashTable Key Value)
  | .insert entry key value now fuel => htInsert hash stamp now (fuel + 1) table entry key value
  | .remove key fuel => htRemove hash fuel table key

def next (table : HashTable Key Value) (call : Call Key Value) : HashTable Key Value :=
  (perform hash stamp table call).getD table

def compared (table : HashTable Key Value) : Call Key Value → Option (HashTable Key Value)
  | .insert entry key value now fuel =>
    (place hash stamp now fuel (withEntry table entry key value) entry).map Prod.fst
  | .remove _ _ => none

/-- The call comes to its end, and `malloc` returns memory that is not in use. -/
def Ends (table : HashTable Key Value) (call : Call Key Value) : Prop :=
  (perform hash stamp table call).isSome ∧ match call with
    | .insert entry _ _ _ _ => entry ≠ 0 ∧ table.heap entry = none
    | .remove _ _ => True

/-- After the call `collisions` is the sum over the buckets. It is so when the load is compared,
too, and the table only grows when that sum is above the bound. -/
structure Counts (table : HashTable Key Value) (call : Call Key Value) : Prop where
  exact : Exact hash (next hash stamp table call)
  compared : ∀ middle, compared hash stamp table call = some middle → Exact hash middle
  doubled : (next hash stamp table call).arraySize ≠ table.arraySize →
    ∃ middle chains, CollisionCount.compared hash stamp table call = some middle ∧
      Stored hash middle chains ∧
      table.arraySize < 20 * crowding table.arraySize chains

/-- The call takes no entry from the front of a chain that goes on behind it. -/
def Tidy (table : HashTable Key Value) (call : Call Key Value) : Prop :=
  ∀ chains, Stored hash table chains → match call with
    | .insert _ key _ now _ => ¬ DropsHead stamp now (chains (htIndex hash table key))
    | .remove key _ => ¬ RemovesHead key (chains (htIndex hash table key))

variable {hash stamp} {table after : HashTable Key Value} {chains : Nat → List (Block Key Value)}

theorem counts_iff {call : Call Key Value} {middle : HashTable Key Value}
    (load : compared hash stamp table call = some middle)
    (kept : Exact hash middle → Exact hash (next hash stamp table call))
    (doubled : Exact hash middle → (next hash stamp table call).arraySize ≠ table.arraySize →
      ∃ chains, Stored hash middle chains ∧
        table.arraySize < 20 * crowding table.arraySize chains) :
    Counts hash stamp table call ↔ Exact hash middle := by
  constructor
  · intro counts
    exact counts.compared middle load
  · intro counted
    constructor
    · exact kept counted
    · intro other found
      rw [load] at found
      exact Option.some.inj found ▸ counted
    · intro larger
      obtain ⟨chains, stored, heavy⟩ := doubled counted larger
      exact ⟨middle, chains, load, stored, heavy⟩

theorem insert_counts (sound : Sound hash table chains)
    (exact' : table.collisions = crowding table.arraySize chains) {entry : Ptr}
    (nonnull : entry ≠ 0) (new : table.heap entry = none) (key : Key) (value : Value) (now : Int)
    (fuel : Nat) (ended : htInsert hash stamp now (fuel + 1) table entry key value = some after) :
    (∃ grown, Sound hash after grown) ∧
      (Counts hash stamp table (.insert entry key value now fuel) ↔
        ¬ DropsHead stamp now (chains (htIndex hash table key))) := by
  -- an insertion into a table that counts right
  have positive : 0 < table.arraySize := Nat.lt_of_lt_of_le (by decide) sound.large
  have outside := (created sound nonnull new ⟨key, value⟩).1
  have made : Sound hash (withEntry table entry key value) chains :=
    (created sound nonnull new ⟨key, value⟩).2
  have live : (withEntry table entry key value).heap entry = some ⟨⟨key, value⟩, 0⟩ :=
    Function.update_self ..
  have used : (withEntry table entry key value).heap entry ≠ none := by simp [live]
  obtain ⟨out, putting, -, placed, ends⟩ := insertHe_placed made live outside fuel ended
  have stored := stored_insert made.toStored positive used outside placed
  have middle : Exact hash out.1 ↔ ¬ DropsHead stamp now (chains (htIndex hash table key)) := by
    have before : (withEntry table entry key value).collisions =
        crowding (withEntry table entry key value).arraySize chains := exact'
    have larger : 0 < (withEntry table entry key value).arraySize := positive
    have one := placed_exact larger before placed
    rw [exact_iff stored]
    exact one
  have result : next hash stamp table (.insert entry key value now fuel) = after := by
    rw [next, perform, ended]
    rfl
  have load : compared hash stamp table (.insert entry key value now fuel) = some out.1 := by
    rw [compared, putting]
    rfl
  rw [← middle]
  rcases ends with ⟨calm, same⟩ | ⟨heavy, grown⟩
  · constructor
    · exact ⟨_, same ▸ sound_placed made used outside placed calm⟩
    · apply counts_iff load
      · intro counted
        rw [result, same]
        exact counted
      · intro _ larger
        rw [result, same] at larger
        exact absurd placed.size larger
  · have larger : 0 < out.1.arraySize * 2 := by
      rw [placed.size]
      exact Nat.mul_pos positive (by decide)
    have room := room_to_grow made used outside placed
    obtain ⟨moved, light⟩ := (resize_moved stored larger fuel fuel room).1 after grown
    have anew := counts_resized stored larger fuel fuel room grown
    constructor
    · exact ⟨_, sound_moved (placed.size ▸ sound.large) moved light⟩
    · apply counts_iff load
      · intro _
        rw [result, exact_iff moved.stored, moved.sized]
        exact anew
      · intro counted _
        have real := (exact_iff stored).mp counted
        rw [placed.size] at real
        have heavy' : (table.arraySize : Int) < 20 * out.1.collisions := by
          rw [placed.collided]
          have asked : ((withEntry table entry key value).arraySize : Int) < _ := heavy
          change (table.arraySize : Int) < _ at asked
          omega
        rw [real] at heavy'
        exact ⟨_, stored, heavy'⟩

theorem call_counts (sound : Sound hash table chains)
    (exact' : table.collisions = crowding table.arraySize chains) (call : Call Key Value)
    (ends : Ends hash stamp table call) :
    (∃ grown, Sound hash (next hash stamp table call) grown) ∧
      (Counts hash stamp table call ↔ Tidy hash stamp table call) := by
  have positive : 0 < table.arraySize := Nat.lt_of_lt_of_le (by decide) sound.large
  obtain ⟨returns, fresh'⟩ := ends
  obtain ⟨after, ended⟩ := Option.isSome_iff_exists.mp returns
  have result : next hash stamp table call = after := by
    rw [next, ended]
    rfl
  have known (index : Nat) (below : index < table.arraySize)
      (chains' : Nat → List (Block Key Value))
      (stored : Stored hash table chains') : chains' index = chains index :=
    (stored.chain index below).unique (sound.chain index below)
  cases call with
  | insert entry key value now fuel =>
      obtain ⟨sound', counts⟩ :=
        insert_counts sound exact' fresh'.1 fresh'.2 key value now fuel ended
      constructor
      · rw [result]
        exact sound'
      · rw [counts]
        constructor
        · intro calm chains' stored
          simp only
          rw [known _ (index_lt hash positive key) chains' stored]
          exact calm
        · intro tidy
          exact tidy chains sound.toStored
  | remove key fuel =>
      obtain ⟨size, sound'⟩ := sound_remove sound key fuel ended
      have counted := removed_exact sound exact' key fuel ended
      rw [← exact_iff sound'.toStored] at counted
      constructor
      · rw [result]
        exact ⟨_, sound'⟩
      · constructor
        · intro counts chains' stored
          simp only
          rw [known _ (index_lt hash positive key) chains' stored]
          have exact' := counts.exact
          rw [result] at exact'
          exact counted.mp exact'
        · intro tidy
          constructor
          · rw [result]
            exact counted.mpr (tidy chains sound.toStored)
          · nofun
          · intro larger
            rw [result] at larger
            exact absurd size larger

theorem run_counts (calls : List (Call Key Value)) (table : HashTable Key Value)
    (sound : ∃ chains, Sound hash table chains) (exact' : Exact hash table)
    (ends : Allowed (next hash stamp) (Ends hash stamp) table calls) :
    Allowed (next hash stamp) (Counts hash stamp) table calls ↔
      Allowed (next hash stamp) (Tidy hash stamp) table calls := by
  induction calls generalizing table with
  | nil => exact Iff.rfl
  | cons call calls ih =>
      obtain ⟨chains, sound⟩ := sound
      obtain ⟨sound', counts⟩ :=
        call_counts sound ((exact_iff sound.toStored).mp exact') call ends.1
      rw [Allowed, Allowed, ← counts]
      apply and_congr_right
      intro here
      exact ih _ sound' here.exact ends.2

/-- From an empty table on, `collisions` stands for the chains after every call of a run, and
whenever the load is compared, exactly if no call takes an entry from the front of a chain that goes
on behind it. -/
theorem collisions_count (hash : Key → Nat) (stamp : Value → Int)
    (heap : Heap (HashEntry Key Value)) (null : heap 0 = none) (calls : List (Call Key Value))
    (ends : Allowed (next hash stamp) (Ends hash stamp) (htInit initialSize heap) calls) :
    Allowed (next hash stamp) (Counts hash stamp) (htInit initialSize heap) calls ↔
      Allowed (next hash stamp) (Tidy hash stamp) (htInit initialSize heap) calls := by
  have sound := sound_init hash heap null
  apply run_counts calls _ ⟨_, sound⟩ _ ends
  exact ⟨_, sound.toStored, by simp [htInit, crowding]⟩

def firstRemoved : List (Call Nat Int) :=
  [.insert 1 10 100 100 5, .insert 2 20 100 100 5, .remove 10 5]

theorem firstRemoved_ends :
    Allowed (next (fun _ => 3) id) (Ends (fun _ => 3) id) (htInit initialSize fun _ => none)
      firstRemoved :=
  ⟨⟨rfl, by decide, rfl⟩, ⟨rfl, by decide, rfl⟩, ⟨rfl, trivial⟩, trivial⟩

theorem collisions_count_first :
    Allowed (next (fun _ => 3) id) (Counts (fun _ => 3) id) (htInit initialSize fun _ => none)
      firstRemoved ↔
      Allowed (next (fun _ => 3) id) (Tidy (fun _ => 3) id) (htInit initialSize fun _ => none)
        firstRemoved :=
  collisions_count (fun _ => 3) id (fun _ => none) rfl firstRemoved firstRemoved_ends

/-- One entry is left, alone in its bucket, and one collision is still counted. -/
theorem collision_remains :
    Allowed (next (fun _ => 3) id) (Ends (fun _ => 3) id) (htInit initialSize fun _ => none)
      firstRemoved ∧
      ¬ Allowed (next (fun _ => 3) id) (Counts (fun _ => 3) id) (htInit initialSize fun _ => none)
        firstRemoved := by
  constructor
  · exact firstRemoved_ends
  · rintro ⟨-, -, last, -⟩
    obtain ⟨chains, stored, counted⟩ := last.exact
    -- one bucket holds one entry, and the others none
    have lone : ∀ i ∈ Finset.range 64, (((chains i).length - 1 : Nat) : Int) = 0 := by
      intro i member
      have linked := stored.chain i (Finset.mem_range.mp member)
      by_cases here : i = 3
      · subst here
        have alone : chains 3 = [(2, ⟨20, 100⟩)] := linked.unique ⟨rfl, by decide, 0, rfl, rfl⟩
        simp [alone]
      · have null : Function.update (Function.update (fun _ => 0) 3 1) 3 2 i = 0 := by simp [here]
        have none : chains i = [] := linked.unique null
        simp [none]
    have zero : crowding 64 chains = 0 := Finset.sum_eq_zero lone
    have one : (1 : Int) = crowding 64 chains := counted
    rw [zero] at one
    exact absurd one (by decide)

end

end LazyAS.CollisionCount

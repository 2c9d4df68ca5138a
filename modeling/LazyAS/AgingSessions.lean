import LazyAS.AgingResize

/-! An insertion with aging, with the growing of the table that it may lead to. It keeps the map of
the entries that have not timed out exactly if it never works behind an entry that was destroyed. -/
namespace LazyAS.AgingSessions
open LinkedChain AgingHash AgingWalk AgingInsert AgingTable AgingResize

section
variable {Key Value : Type} (hash : Key → Nat) (stamp : Value → Int) (now : Int)

theorem sound_init (heap : Heap (HashEntry Key Value)) (null : heap 0 = none) :
    Sound hash (htInit initialSize heap) fun _ => [] where
  null := null
  chain := fun _ _ => rfl
  placed := fun _ _ _ member => nomatch member
  unique := fun _ _ => List.nodup_nil
  large := Nat.le_refl _
  counted := by simp [htInit]
  collided := by simp [htInit]
  light := rfl

variable {hash stamp now} {table after : HashTable Key Value}
    {chains : Nat → List (Block Key Value)}

theorem created (sound : Sound hash table chains) {entry : Ptr} (nonnull : entry ≠ 0)
    (new : table.heap entry = none) (data : HashEntry Key Value) :
    (∀ i < table.arraySize, entry ∉ pointers (chains i)) ∧
      Sound hash { table with heap := Function.update table.heap entry (some ⟨data, 0⟩) }
        chains := by
  have outside : ∀ i < table.arraySize, entry ∉ pointers (chains i) := by
    intro i below member
    obtain ⟨block, listed, rfl⟩ := List.mem_map.mp member
    obtain ⟨next, live⟩ := (sound.chain i below).live block listed
    rw [new] at live
    cases live
  refine ⟨outside, { sound with
    null := ?_, chain := fun i below => (sound.chain i below).frame fun q member => ?_ }⟩
  · exact (Function.update_of_ne nonnull.symm ..).trans sound.null
  · have other : q ≠ entry := fun same => outside i below (same ▸ member)
    exact Function.update_of_ne other ..

theorem quiet_entries (stored : Stored hash table chains) (positive : 0 < table.arraySize)
    (grown : List (Block Key Value)) (index : Nat)
    (all : ∀ block ∈ grown, timedOut stamp now block.2.value = false)
    (later : Stored hash after (Function.update chains index grown))
    (sized : after.arraySize = table.arraySize) :
    (∀ j, Quiet stamp now (bucket hash (table.arraySize * 2)
      (entries after (Function.update chains index grown)) j)) ↔
      ∀ i < table.arraySize, i ≠ index →
        ∀ j, Quiet stamp now (bucket hash (table.arraySize * 2) (chains i) j) := by
  -- only the chains that the insertion did not walk can be in the way of the growing
  have each : ∀ j, bucket hash (table.arraySize * 2)
      (entries after (Function.update chains index grown)) j =
      bucket hash (table.arraySize * 2) (Function.update chains index grown (j % table.arraySize))
          j := by
    intro j
    rw [← sized]
    exact bucket_entries later (sized ▸ positive) j
  constructor
  · intro quiet i below other j
    by_cases home : j % table.arraySize = i
    · have one := quiet j
      rwa [each, home, Function.update_of_ne other] at one
    · have none : bucket hash (table.arraySize * 2) (chains i) j = [] := by
        refine List.filter_eq_nil_iff.mpr fun block member same => home ?_
        have both := congrArg (· % table.arraySize) (of_decide_eq_true same)
        simp only [Nat.mod_mul_right_mod] at both
        exact both.symm.trans (stored.placed i below block member)
      rw [none]
      exact fun block wrong => nomatch wrong
  · intro quiet j
    rw [each]
    by_cases home : j % table.arraySize = index
    · rw [home, Function.update_self]
      exact quiet_fresh stamp now _ fun block member =>
        all block (List.filter_sublist.subset member)
    · rw [Function.update_of_ne home]
      exact quiet _ (Nat.mod_lt _ positive) home j

theorem sound_moved (large : initialSize ≤ table.arraySize)
    (moved : Moved hash stamp now (table.arraySize * 2) (entries table chains) after)
    (light : 20 * after.collisions ≤ (table.arraySize * 2 : Nat)) :
    Sound hash after fun i =>
      gathered stamp now (bucket hash (table.arraySize * 2) (entries table chains) i) := by
  refine ⟨moved.stored, ?_, moved.counted, moved.spare, ?_⟩
  · rw [moved.sized]
    omega
  · rw [tooFull, moved.sized]
    exact decide_eq_false (Int.not_lt.mpr light)

theorem gathered_chain (stored : Stored hash table chains) (positive : 0 < table.arraySize)
    (key : Key) :
    gathered stamp now (bucket hash (table.arraySize * 2) (entries table chains)
      (hash key % (table.arraySize * 2))) =
      gathered stamp now (bucket hash (table.arraySize * 2) (chains (htIndex hash table key))
        (hash key % (table.arraySize * 2))) := by
  rw [bucket_entries stored positive, Nat.mod_mul_right_mod, htIndex]

end

section
variable {Key Value : Type} [DecidableEq Key] (hash : Key → Nat) (stamp : Value → Int) (now : Int)

def resizes (table : HashTable Key Value) (key : Key) (chain : List (Block Key Value)) : Prop :=
  table.arraySize <
    20 * (table.collisions - timedOuts stamp now (fromFresh stamp now chain) +
      collided stamp now key chain)

instance (table : HashTable Key Value) (key : Key) (chain : List (Block Key Value)) :
    Decidable (resizes stamp now table key chain) := inferInstanceAs (Decidable (_ < _))

structure Kept (table after : HashTable Key Value) (key : Key) (value : Value) : Prop where
  found : Finds hash after key value
  others : ∀ other kept, other ≠ key → timedOut stamp now kept = false →
    Finds hash table other kept →
    Finds hash after other kept
  sound : ∃ chains, Sound hash after chains ∧
    ∀ block ∈ chains (htIndex hash after key), timedOut stamp now block.2.value = false

structure Smooth (table : HashTable Key Value) (chains : Nat → List (Block Key Value)) (key : Key)
    (value : Value) : Prop where
  new : timedOut stamp now value = false
  walkable : Walkable stamp now key (chains (htIndex hash table key))
  quiet : resizes stamp now table key (chains (htIndex hash table key)) →
    ∀ i < table.arraySize, i ≠ htIndex hash table key →
      ∀ j, Quiet stamp now (bucket hash (table.arraySize * 2) (chains i) j)

variable {hash stamp now} {table after : HashTable Key Value}
    {chains : Nat → List (Block Key Value)}

theorem finds_created (sound : Sound hash table chains) {entry : Ptr} (nonnull : entry ≠ 0)
    (new : table.heap entry = none) (data : HashEntry Key Value) (key : Key) (value : Value) :
    Finds hash { table with heap := Function.update table.heap entry (some ⟨data, 0⟩) } key value ↔
      Finds hash table key value := by
  have positive : 0 < table.arraySize := Nat.lt_of_lt_of_le (by decide) sound.large
  have made := (created sound nonnull new data).2
  exact (finds_iff made.toStored positive key value).trans
    (finds_iff sound.toStored positive key value).symm

theorem finds_placed (stored : Stored hash table chains) (positive : 0 < table.arraySize)
    {entry : Ptr} {data : HashEntry Key Value} (live : table.heap entry ≠ none)
    (outside : ∀ i < table.arraySize, entry ∉ pointers (chains i))
    (placed : Placed stamp now table (htIndex hash table data.key) entry data
      (chains (htIndex hash table data.key)) after) :
    Finds hash after data.key data.value ∧ ∀ other kept, other ≠ data.key →
      (Finds hash after other kept ↔
      Finds hash table other kept ∧
        (htIndex hash table other = htIndex hash table data.key →
          timedOut stamp now kept = false)) := by
  -- the entries after an insertion, before the table grows
  have later := stored_insert stored positive live outside placed
  have positive' : 0 < after.arraySize := by rwa [placed.size]
  have same : ∀ key, htIndex hash after key =
      htIndex hash table key := fun key => by rw [htIndex, placed.size, htIndex]
  refine ⟨?_, fun other kept different => ?_⟩
  · rw [finds_iff later positive', same, Function.update_self]
    exact putIn_new stamp now entry data _
  · rw [finds_iff later positive', finds_iff stored positive, same]
    by_cases here : htIndex hash table other = htIndex hash table data.key
    · rw [here, Function.update_self]
      constructor
      · rintro ⟨p, member⟩
        rcases mem_putIn stamp now entry data _ _ member with wrong | ⟨old, _⟩
        · exact absurd (congrArg HashEntry.key wrong) different
        · obtain ⟨listed, new⟩ := (mem_fresh stamp now _ _).mp old
          exact ⟨⟨p, listed⟩, fun _ => new⟩
      · rintro ⟨⟨p, member⟩, new⟩
        exact ⟨p, putIn_old stamp now entry data
          _ _ ((mem_fresh stamp now _ _).mpr ⟨member, new rfl⟩) different⟩
    · rw [Function.update_of_ne here]
      exact ⟨fun found => ⟨found, fun wrong => absurd wrong here⟩, And.left⟩

theorem putIn_fresh (entry : Ptr) (data : HashEntry Key Value) (chain : List (Block Key Value))
    (new : timedOut stamp now data.value = false) :
    ∀ block ∈ putIn stamp now entry data chain, timedOut stamp now block.2.value = false := by
  intro block member
  rcases mem_putIn stamp now entry data chain block member with given | old
  · rw [given]
    exact new
  · exact ((mem_fresh stamp now chain block).mp old.1).2

theorem sound_placed (sound : Sound hash table chains) {entry : Ptr} {data : HashEntry Key Value}
    (live : table.heap entry ≠ none) (outside : ∀ i < table.arraySize, entry ∉ pointers (chains i))
    (placed : Placed stamp now table (htIndex hash table data.key) entry data
      (chains (htIndex hash table data.key)) after)
    (light : ¬ resizes stamp now table data.key (chains (htIndex hash table data.key))) :
    Sound hash after
      (Function.update chains (htIndex hash table data.key)
        (putIn stamp now entry data (chains (htIndex hash table data.key)))) := by
  have positive : 0 < table.arraySize := Nat.lt_of_lt_of_le (by decide) sound.large
  refine ⟨stored_insert sound.toStored positive live outside placed, placed.size ▸ sound.large,
    counted_insert positive sound.counted placed,
      collided_insert positive sound.collided placed, ?_⟩
  rw [resizes] at light
  rw [tooFull, placed.size, placed.collided]
  exact decide_eq_false (by omega)

theorem finds_moved (stored : Stored hash table chains) (positive : 0 < table.arraySize)
    (moved : Moved hash stamp now (table.arraySize * 2) (entries table chains) after) (key : Key)
    (value : Value)
    (fresh : timedOut stamp now value = false) (found : Finds hash table key value) :
    Finds hash after key value := by
  have positive' : 0 < after.arraySize := by
    rw [moved.sized]
    omega
  obtain ⟨p, member⟩ := (finds_iff stored positive key value).mp found
  rw [finds_iff moved.stored positive']
  refine ⟨p, fresh_subset_gathered stamp now _ ((mem_fresh stamp now _ _).mpr ⟨?_, fresh⟩)⟩
  refine List.mem_filter.mpr
    ⟨List.mem_flatMap.mpr ⟨_, List.mem_range.mpr (index_lt hash positive key), member⟩, ?_⟩
  rw [htIndex, moved.sized]
  exact decide_eq_true rfl

theorem tested_iff (sound : Sound hash table chains) {entry : Ptr} {data : HashEntry Key Value}
    {out : HashTable Key Value × Bool}
    (placed : Placed stamp now table (htIndex hash table data.key) entry data
      (chains (htIndex hash table data.key)) out.1)
    (tested : out.2 = false →
      collided stamp now data.key (chains (htIndex hash table data.key)) = 0) :
    (out.2 && tooFull out.1) = true ↔
      resizes stamp now table data.key (chains (htIndex hash table data.key)) := by
  have light : ¬ (20 * table.collisions > table.arraySize) := of_decide_eq_false sound.light
  rw [Bool.and_eq_true, tooFull, placed.size, placed.collided, decide_eq_true_iff, resizes]
  cases flag : out.2 with
  | true => 
      simp only [true_and]
      omega
  | false =>
      have none := tested flag
      simp only [Bool.false_eq_true, false_and, false_iff, none]
      omega

theorem room_to_grow (sound : Sound hash table chains) {entry : Ptr} {data : HashEntry Key Value}
    (live : table.heap entry ≠ none) (outside : ∀ i < table.arraySize, entry ∉ pointers (chains i))
    (placed : Placed stamp now table (htIndex hash table data.key) entry data
      (chains (htIndex hash table data.key)) after) :
    20 * crossings hash (after.arraySize * 2) []
      (entries after (Function.update chains (htIndex hash table data.key)
      (putIn stamp now entry data (chains (htIndex hash table data.key))))) ≤
        (after.arraySize * 2 : Nat) := by
  have positive : 0 < table.arraySize := Nat.lt_of_lt_of_le (by decide) sound.large
  have bound := (crossings_double (stored_insert sound.toStored positive live outside placed)).trans
    (collided_insert positive sound.collided placed)
  have light : ¬ (20 * table.collisions > table.arraySize) := of_decide_eq_false sound.light
  have one : collided stamp now data.key (chains (htIndex hash table data.key)) ≤ 1 := by
    rw [collided]
    split <;> decide
  have large : 64 ≤ table.arraySize := sound.large
  rw [placed.collided] at bound
  have size := placed.size
  omega

theorem insertHe_placed (sound : Sound hash table chains) {entry : Ptr} {data : HashEntry Key Value}
    {link : Ptr} (live : table.heap entry = some ⟨data, link⟩)
    (outside : ∀ i < table.arraySize, entry ∉ pointers (chains i)) (fuel : Nat)
    (ended : htInsertHe hash stamp now (fuel + 1) table entry = some after) :
    ∃ out, place hash stamp now fuel table entry = some out ∧
      Walkable stamp now data.key (chains (htIndex hash table data.key)) ∧
      Placed stamp now table (htIndex hash table data.key) entry data
        (chains (htIndex hash table data.key)) out.1 ∧
      (¬ resizes stamp now table data.key (chains (htIndex hash table data.key)) ∧ after = out.1 ∨
        resizes stamp now table data.key (chains (htIndex hash table data.key)) ∧
        htResize (htInsertHe hash stamp now fuel) fuel out.1 (out.1.arraySize * 2) =
          some after) := by
  have positive : 0 < table.arraySize := Nat.lt_of_lt_of_le (by decide) sound.large
  have inside := index_lt hash positive data.key
  obtain ⟨out, putting, rest⟩ := Option.bind_eq_some_iff.mp ended
  obtain ⟨walkable, placed, tested⟩ :=
    (place_leaves hash stamp now table _ fuel entry data link (sound.chain _ inside)
    (chain_distinct sound.toStored inside) (sound.unique _ inside) sound.null live
      (outside _ inside)).1 out putting
  refine ⟨out, putting, walkable, placed, ?_⟩
  by_cases load : resizes stamp now table data.key (chains (htIndex hash table data.key))
  · rw [if_pos ((tested_iff sound placed tested).mpr load)] at rest
    exact Or.inr ⟨load, rest⟩
  · rw [if_neg fun tests => load ((tested_iff sound placed tested).mp tests)] at rest
    exact Or.inl ⟨load, (Option.some.inj rest).symm⟩

theorem insertHe_cases (sound : Sound hash table chains) {entry : Ptr} {data : HashEntry Key Value}
    {link : Ptr} (live : table.heap entry = some ⟨data, link⟩)
    (outside : ∀ i < table.arraySize, entry ∉ pointers (chains i)) (fuel : Nat)
    (ended : htInsertHe hash stamp now fuel table entry = some after) :
    Walkable stamp now data.key (chains (htIndex hash table data.key)) ∧ ∃ middle,
      Placed stamp now table (htIndex hash table data.key) entry data
        (chains (htIndex hash table data.key)) middle ∧
      (¬ resizes stamp now table data.key (chains (htIndex hash table data.key)) ∧ after = middle ∨
        resizes stamp now table data.key (chains (htIndex hash table data.key)) ∧
        Moved hash stamp now (middle.arraySize * 2)
          (entries middle (Function.update chains (htIndex hash table data.key)
          (putIn stamp now entry data (chains (htIndex hash table data.key))))) after ∧
        20 * after.collisions ≤ (middle.arraySize * 2 : Nat)) := by
  -- what an insertion has done when it comes to its end
  have positive : 0 < table.arraySize := Nat.lt_of_lt_of_le (by decide) sound.large
  have used : table.heap entry ≠ none := by simp [live]
  cases fuel with
  | zero => nomatch ended
  | succ fuel =>
      obtain ⟨out, _, walkable, placed, calm | ⟨load, grown⟩⟩ :=
        insertHe_placed sound live outside fuel ended
      · exact ⟨walkable, out.1, placed, Or.inl calm⟩
      · have stored := stored_insert sound.toStored positive used outside placed
        have larger : 0 < out.1.arraySize * 2 := by
          rw [placed.size]
          omega
        exact ⟨walkable, out.1, placed,
          Or.inr ⟨load, (resize_moved stored larger fuel fuel
            (room_to_grow sound used outside placed)).1 after grown⟩⟩

theorem insertHe_keeps (sound : Sound hash table chains) {entry : Ptr} {data : HashEntry Key Value}
    {link : Ptr} (live : table.heap entry = some ⟨data, link⟩)
    (outside : ∀ i < table.arraySize, entry ∉ pointers (chains i)) :
    (∃ fuel after, htInsertHe hash stamp now fuel table entry = some after ∧
      Kept hash stamp now table after data.key data.value) ↔
        Smooth hash stamp now table chains data.key data.value := by
  -- an insertion for an entry that has been created
  have positive : 0 < table.arraySize := Nat.lt_of_lt_of_le (by decide) sound.large
  have used : table.heap entry ≠ none := by simp [live]
  constructor
  · rintro ⟨fuel, after, ended, kept⟩
    obtain ⟨final, sound', fresh⟩ := kept.sound
    have positive' : 0 < after.arraySize := Nat.lt_of_lt_of_le (by decide) sound'.large
    obtain ⟨p, member⟩ := (finds_iff sound'.toStored positive' data.key data.value).mp kept.found
    obtain ⟨walkable, middle, placed, ⟨same, _⟩ | ⟨_, moved, _⟩⟩ :=
      insertHe_cases sound live outside fuel ended
    · exact ⟨fresh _ member, walkable, fun load => absurd load same⟩
    · refine ⟨fresh _ member, walkable, fun _ => ?_⟩
      refine (quiet_entries sound.toStored positive _ _ (putIn_fresh entry data _ (fresh _ member))
        (stored_insert sound.toStored positive used outside placed) placed.size).mp ?_
      rw [← placed.size]
      exact moved.quiet
  · intro smooth
    have inside := index_lt hash positive data.key
    let grown := Function.update chains (htIndex hash table data.key)
      (putIn stamp now entry data (chains (htIndex hash table data.key)))
    let fuel := (chains (htIndex hash table data.key)).length + (entries table grown).length + 2
    obtain ⟨runs, total⟩ := place_leaves hash stamp now table _ fuel entry data link
        (sound.chain _ inside)
      (chain_distinct sound.toStored inside) (sound.unique _ inside) sound.null live
        (outside _ inside)
    obtain ⟨out, putting⟩ := Option.isSome_iff_exists.mp (total smooth.walkable (by omega))
    obtain ⟨_, placed, tested⟩ := runs out putting
    obtain ⟨found, others⟩ := finds_placed sound.toStored positive used outside placed
    have stored : Stored hash out.1 grown :=
      stored_insert sound.toStored positive used outside placed
    have ending : htInsertHe hash stamp now (fuel + 1) table entry = if out.2 && tooFull out.1 then
        htResize (htInsertHe hash stamp now fuel) fuel out.1 (out.1.arraySize * 2)
            else some out.1 := by
      rw [htInsertHe, putting]
      rfl
    have home : htIndex hash out.1 data.key =
        htIndex hash table data.key := by rw [htIndex, placed.size, htIndex]
    have own : grown (htIndex hash out.1 data.key) =
        putIn stamp now entry data (chains (htIndex hash table data.key)) := by
      rw [home]
      exact Function.update_self ..
    by_cases load : resizes stamp now table data.key (chains (htIndex hash table data.key))
    · have larger : 0 < out.1.arraySize * 2 := by
        rw [placed.size]
        omega
      have quiet := (quiet_entries sound.toStored positive _ _ (putIn_fresh entry data _ smooth.new)
          stored
        placed.size).mpr (smooth.quiet load)
      have same : entries out.1 grown = entries table grown := by rw [entries, placed.size, entries]
      obtain ⟨moves, grows⟩ := resize_moved stored larger fuel fuel
          (room_to_grow sound used outside placed)
      obtain ⟨after, grew⟩ := Option.isSome_iff_exists.mp
        (grows (by rw [placed.size]; exact quiet) (by rw [same]; omega) (by rw [same]; omega))
      obtain ⟨moved, light⟩ := moves after grew
      have positive' : 0 < out.1.arraySize := by rwa [placed.size]
      have keeps := finds_moved stored positive' moved
      refine ⟨fuel + 1, after, ?_, keeps _ _ smooth.new found, fun other kept different new finds =>
        keeps other kept new ((others other kept different).mpr ⟨finds, fun _ => new⟩), _,
          sound_moved (placed.size ▸ sound.large) moved light, ?_⟩
      · rw [ending, if_pos ((tested_iff sound placed tested).mpr load)]
        exact grew
      · rw [htIndex, moved.sized, gathered_chain stored positive', own]
        exact fun block member => putIn_fresh entry data _ smooth.new block
          (List.filter_sublist.subset (gathered_subset stamp now _ member))
    · refine ⟨fuel + 1, out.1, ?_, found, fun other kept different new finds =>
        (others other kept different).mpr ⟨finds, fun _ => new⟩, grown,
          sound_placed sound used outside placed load, ?_⟩
      · rw [ending, if_neg (fun tests => load ((tested_iff sound placed tested).mp tests))]
      · rw [own]
        exact putIn_fresh entry data _ smooth.new

/-- An insertion keeps the map exactly under these conditions. -/
theorem insertion_keeps (hash : Key → Nat) (stamp : Value → Int) (now : Int)
    (table : HashTable Key Value) (chains : Nat → List (Block Key Value))
    (sound : Sound hash table chains) (entry : Ptr) (nonnull : entry ≠ 0)
    (new : table.heap entry = none) (key : Key) (value : Value) :
    (∃ fuel after, htInsert hash stamp now fuel table entry key value = some after ∧
      Kept hash stamp now table after key value) ↔
        Smooth hash stamp now table chains key value := by
  let made : HashTable Key Value :=
    { table with heap := Function.update table.heap entry (some ⟨⟨key, value⟩, 0⟩) }
  obtain ⟨outside, created⟩ := created sound nonnull new ⟨key, value⟩
  have same : ∀ other kept, Finds hash made other kept ↔ Finds hash table other kept :=
    finds_created sound nonnull new ⟨key, value⟩
  have keeps : (∃ fuel after, htInsertHe hash stamp now fuel made entry = some after ∧
      Kept hash stamp now made after key value) ↔
      Smooth hash stamp now made chains key value :=
        insertHe_keeps created (Function.update_self ..) outside
  constructor
  · rintro ⟨fuel, after, ended, kept⟩
    have smooth := keeps.mp ⟨fuel, after, ended, kept.found, fun other value different new finds =>
      kept.others other value different new ((same other value).mp finds), kept.sound⟩
    exact ⟨smooth.new, smooth.walkable, smooth.quiet⟩
  · intro smooth
    obtain ⟨fuel, after, ended, kept⟩ := keeps.mpr ⟨smooth.new, smooth.walkable, smooth.quiet⟩
    exact ⟨fuel, after, ended, kept.found, fun other value different new finds =>
      kept.others other value different new ((same other value).mpr finds), kept.sound⟩

end

def quietSecond : HashTable Nat Int where
  arraySize := initialSize
  array := fun i => if i = 0 then 1 else 0
  keyCount := 2
  collisions := 1
  heap := fun p => if p = 1 then some ⟨⟨1, 90⟩, 2⟩ else if p = 2 then some ⟨⟨2, 10⟩, 0⟩ else none

def quietChains (i : Nat) : List (Block Nat Int) :=
  if i = 0 then [(1, ⟨1, 90⟩), (2, ⟨2, 10⟩)] else []

theorem quietSecond_sound : Sound (fun _ : Nat => 0) quietSecond quietChains where
  null := rfl
  chain := by
    intro i below
    by_cases here : i = 0
    · subst here
      exact ⟨rfl, by decide, 2, rfl, rfl, by decide, 0, rfl, rfl⟩
    · simp only [quietSecond, quietChains, if_neg here]
      rfl
  placed := by
    intro i below block member
    by_cases here : i = 0
    · rw [here]
      rfl
    · rw [quietChains, if_neg here] at member
      nomatch member
  unique := by
    intro i below
    by_cases here : i = 0
    · subst here
      decide
    · rw [quietChains, if_neg here]
      exact List.nodup_nil
  large := Nat.le_refl _
  counted := by decide +kernel
  collided := by decide +kernel
  light := by decide

/-- The first session is seen once more: its entry is replaced, and the other one, which is expired,
is destroyed. -/
theorem insertion_keeps_known : ∃ fuel after,
    htInsert (fun _ : Nat => 0) (fun value : Int => value) 100 fuel quietSecond 3 1 100 =
      some after ∧
      Kept (fun _ : Nat => 0) (fun value : Int => value) 100 quietSecond after 1 100 :=
  (insertion_keeps (fun _ : Nat => 0) (fun value : Int => value) 100 quietSecond quietChains
    quietSecond_sound 3
    (by decide) rfl 1 100).mpr
    ⟨by decide, ⟨by decide, fun new => absurd new (by decide)⟩, fun load => absurd load (by decide)⟩

/-- A third session finds no last entry: the expired one behind the first was destroyed, and `prev`
is null. -/
theorem third_session_crashes : Sound (fun _ : Nat => 0) quietSecond quietChains ∧
    quietSecond.heap 3 = none ∧
    ∀ fuel, htInsert (fun _ : Nat => 0) (fun value : Int => value) 100 fuel quietSecond 3 3 100 =
      none := by
  refine ⟨quietSecond_sound, rfl, fun fuel => ?_⟩
  obtain ⟨outside, made⟩ := created quietSecond_sound (by decide : 3 ≠ 0) rfl ⟨3, 100⟩
  have stuck : ¬ Walkable (fun value : Int => value) 100 3 (quietChains 0) := fun walkable =>
    absurd (walkable.2 (by decide) (2, ⟨2, 10⟩) rfl) (by decide)
  have lost : ∀ fuel, place (fun _ : Nat => 0) (fun value : Int => value) 100 fuel
      { quietSecond with heap := Function.update quietSecond.heap 3 (some ⟨⟨3, 100⟩, 0⟩) } 3 =
          none := by
    intro fuel
    refine Option.eq_none_iff_forall_ne_some.mpr fun out putting => stuck ?_
    exact ((place_leaves _ _ _ _ (quietChains 0) fuel 3 ⟨3, 100⟩ 0 (made.chain 0 (by decide))
      (chain_distinct made.toStored (by decide)) (made.unique 0 (by decide)) made.null rfl
      (outside 0 (by decide))).1 out putting).1
  cases fuel with
  | zero => rfl
  | succ fuel =>
      rw [htInsert, htInsertHe, lost]
      rfl

end LazyAS.AgingSessions

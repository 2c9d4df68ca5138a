import LazyAS.TableLedger

/-! The memory of the hash table: what aging, growing and removing free, and what `ht_destroy`
leaves. A run starts with a heap in which other parts of the program may have cells of their own. -/
namespace LazyAS.TableMemory
open LinkedChain AgingHash AgingWalk AgingInsert AgingTable AgingResize AgingSessions AgingRemove
  CollisionCount TableLedger Runs

/-! `ht_destroy` and `ht_clear`. -/

section
variable {Key Value : Type}

/-- The inner loop of `ht_destroy`. To destroy an entry once more ends it without a result. -/
def destroyChain : Nat → Heap (HashEntry Key Value) → Ptr → Option (Heap (HashEntry Key Value))
  | 0, _, _ => none
  | fuel + 1, heap, entry =>
      if entry = 0 then some heap
      else do
        let block ← heap entry
        destroyChain fuel (Function.update heap entry none) block.pNext

def htDestroy (fuel : Nat) (table : HashTable Key Value) : Option (HashTable Key Value) := do
  let heap ← (List.range table.arraySize).foldlM
      (fun heap i => destroyChain fuel heap (table.array i)) table.heap
  return { arraySize := 0, array := fun _ => 0, keyCount := 0, collisions := 0, heap := heap }

def htClear (fuel : Nat) (table : HashTable Key Value) : Option (HashTable Key Value) :=
  (htDestroy fuel table).map fun destroyed => htInit initialSize destroyed.heap

/-- The cells of the listed entries are free, and the others as they were. -/
def cleared (heap : Heap (HashEntry Key Value)) (freed : List Ptr) : Heap (HashEntry Key Value) :=
  fun q => if q ∈ freed then none else heap q

theorem cleared_none (heap : Heap (HashEntry Key Value)) : cleared heap [] = heap := by
  funext q
  exact if_neg List.not_mem_nil

theorem destroyChain_chain (chain : List (Block Key Value)) (heap : Heap (HashEntry Key Value))
    (p : Ptr) (linked : Chain heap p chain) (distinct : (pointers chain).Nodup) (fuel : Nat)
    (enough : chain.length < fuel) :
    destroyChain fuel heap p = some (cleared heap (pointers chain)) := by
  induction chain generalizing heap p fuel with
  | nil =>
      obtain ⟨fuel, rfl⟩ : ∃ less, fuel = less + 1 := ⟨fuel - 1, by omega⟩
      have null : p = 0 := linked
      rw [destroyChain, if_pos null, pointers_nil, cleared_none]
  | cons block rest ih =>
      rw [List.length_cons] at enough
      obtain ⟨fuel, rfl⟩ : ∃ less, fuel = less + 1 := ⟨fuel - 1, by omega⟩
      obtain ⟨rfl, nonnull, next, live, along⟩ := linked
      obtain ⟨apart, distinct⟩ := List.nodup_cons.mp distinct
      have onward : Chain (Function.update heap block.1 none) next rest := by
        apply along.frame
        intro q member
        have other : q ≠ block.1 := fun same => apart (same ▸ member)
        exact Function.update_of_ne other ..
      rw [destroyChain, if_neg nonnull, live]
      simp only [Option.bind_eq_bind, Option.bind_some]
      rw [ih _ next onward distinct fuel (by omega)]
      congr 1
      funext q
      by_cases here : q = block.1
      · simp [cleared, here]
      · simp [cleared, here]

theorem destroy_chains (heads : Nat → Ptr) (chains : Nat → List (Block Key Value)) (fuel : Nat)
    (indices : List Nat) (heap : Heap (HashEntry Key Value))
    (linked : ∀ i ∈ indices, Chain heap (heads i) (chains i))
    (distinct : (pointers (indices.flatMap chains)).Nodup)
    (enough : ∀ i ∈ indices, (chains i).length < fuel) :
    indices.foldlM (fun heap i => destroyChain fuel heap (heads i)) heap =
      some (cleared heap (pointers (indices.flatMap chains))) := by
  induction indices generalizing heap with
  | nil =>
      rw [List.flatMap_nil, pointers_nil, cleared_none]
      rfl
  | cons i indices ih =>
      rw [List.flatMap_cons, pointers_append] at distinct
      obtain ⟨first, others, apart⟩ := List.nodup_append.mp distinct
      rw [List.foldlM_cons, destroyChain_chain (chains i) heap _ (linked i List.mem_cons_self) first
        fuel (enough i List.mem_cons_self)]
      simp only [Option.bind_eq_bind, Option.bind_some]
      rw [ih]
      · congr 1
        funext q
        simp only [cleared, List.flatMap_cons, pointers_append, List.mem_append]
        by_cases here : q ∈ pointers (chains i) <;> by_cases there :
          q ∈ pointers (indices.flatMap chains) <;>
          simp [here, there]
      · intro j listed
        apply (linked j (List.mem_cons_of_mem _ listed)).frame
        intro q member
        have later : q ∈ pointers (indices.flatMap chains) :=
          List.map_subset _ (fun block inside => List.mem_flatMap.mpr ⟨j, listed, inside⟩) member
        exact if_neg fun wrong => apart q wrong q later rfl
      · exact others
      · exact fun j listed => enough j (List.mem_cons_of_mem _ listed)

theorem destroy_stored {hash : Key → Nat} {table : HashTable Key Value}
    {chains : Nat → List (Block Key Value)} (stored : Stored hash table chains) :
    ∃ fuel after, htDestroy fuel table = some after ∧
      after.heap = cleared table.heap (pointers (entries table chains)) := by
  refine ⟨(entries table chains).length + 1, ?_⟩
  rw [htDestroy, destroy_chains table.array chains]
  · exact ⟨_, rfl, rfl⟩
  · exact fun i listed => stored.chain i (List.mem_range.mp listed)
  · exact (entries_distinct stored).pointers
  · intro i listed
    apply Nat.lt_succ_of_le
    exact (List.sublist_flatten_of_mem (List.mem_map.mpr ⟨i, listed, rfl⟩)).length_le

end

/-! The cells that a table owns. -/

section
variable {Key Value : Type}

/-- The cells that are not listed are as they were at the start, when those that are listed were
free. -/
structure Owns (start heap : Heap (HashEntry Key Value)) (own : List Ptr) : Prop where
  others : ∀ q, q ∉ own → heap q = start q
  free : ∀ q ∈ own, start q = none

theorem Owns.shrinks {start heap after : Heap (HashEntry Key Value)} {own own' : List Ptr}
    (owns : Owns start heap own) (frame : ∀ q, q ∉ own → after q = heap q) (less : own' ⊆ own)
    (freed : ∀ q ∈ own, q ∉ own' → after q = none) :
    Owns start after own' where
  others := by
    intro q outside
    by_cases before : q ∈ own
    · rw [freed q before outside, owns.free q before]
    · rw [frame q before, owns.others q before]
  free := fun q member => owns.free q (less member)

theorem pointer_entries (table : HashTable Key Value) (chains : Nat → List (Block Key Value))
    (q : Ptr) :
    q ∈ pointers (entries table chains) ↔ ∃ i < table.arraySize, q ∈ pointers (chains i) := by
  constructor
  · intro member
    obtain ⟨block, listed, rfl⟩ := List.mem_map.mp member
    obtain ⟨i, below, inChain⟩ := List.mem_flatMap.mp listed
    exact ⟨i, List.mem_range.mp below, List.mem_map_of_mem inChain⟩
  · rintro ⟨i, below, member⟩
    obtain ⟨block, listed, rfl⟩ := List.mem_map.mp member
    exact List.mem_map_of_mem (List.mem_flatMap.mpr ⟨i, List.mem_range.mpr below, listed⟩)

theorem Owns.cleared {start heap : Heap (HashEntry Key Value)} {own : List Ptr}
    (owns : Owns start heap own) :
    TableMemory.cleared heap own = start := by
  funext q
  by_cases here : q ∈ own
  · rw [TableMemory.cleared, if_pos here, owns.free q here]
  · rw [TableMemory.cleared, if_neg here, owns.others q here]

end

section
variable {Key Value : Type}

theorem settle_frees (index : Nat) (entry : Ptr) (value : Value) (w : Walk Key Value)
    (out : HashTable Key Value × Bool) (ended : settle index entry value w = some out) :
    (∀ q, w.table.heap q = none → out.1.heap q = none) ∧
      (w.findRet ≠ 0 → out.1.heap entry = none) := by
  -- a cell is only written where it is live
  have write (q p : Ptr) (cell changed : Cell (HashEntry Key Value))
      (live : w.table.heap p = some cell)
      (none' : w.table.heap q = none) : Function.update w.table.heap p (some changed) q = none := by
    have other : q ≠ p := by
      rintro rfl
      rw [none'] at live
      cases live
    exact (Function.update_of_ne other ..).trans none'
  rw [settle] at ended
  by_cases hits : w.findRet = 0
  · rw [if_neg fun wrong => wrong hits] at ended
    dsimp only at ended
    refine ⟨?_, fun wrong => absurd hits wrong⟩
    split at ended
    · cases ended
      exact fun q none' => none'
    · obtain ⟨last, live, rfl⟩ := Option.map_eq_some_iff.mp ended
      exact fun q none' => write q _ last _ live none'
  · rw [if_pos hits] at ended
    obtain ⟨found, live, rfl⟩ := Option.map_eq_some_iff.mp ended
    constructor
    · intro q none'
      by_cases here : q = entry
      · rw [here]
        exact Function.update_self ..
      · exact (Function.update_of_ne here ..).trans (write q _ found _ live none')
    · intro _
      exact Function.update_self ..

variable [DecidableEq Key] (hash : Key → Nat) (stamp : Value → Int) (now : Int)

theorem walk_frees (key : Key) (index : Nat) (rest : List (Block Key Value)) (fuel : Nat)
    (w out : Walk Key Value) (tmp : Ptr) (along : Chain w.table.heap tmp rest)
    (distinct : (pointers rest).Nodup) (prev : w.prev = tmp ∨ w.prev ∉ pointers rest)
    (ended : walk stamp now key index fuel w tmp = some out) :
    (∀ q, w.table.heap q = none → out.table.heap q = none) ∧
      ∀ block ∈ rest, timedOut stamp now block.2.value = true → out.table.heap block.1 = none := by
  -- the walk frees every timed out entry that it comes to, and brings no freed cell back
  induction rest generalizing fuel w tmp with
  | nil =>
      cases fuel with
      | zero => exact absurd ended (by simp [walk])
      | succ fuel =>
          have null : tmp = 0 := along
          rw [walk, if_pos null] at ended
          cases ended
          exact ⟨fun _ same => same, fun _ wrong => absurd wrong List.not_mem_nil⟩
  | cons entry rest ih =>
      cases fuel with
      | zero => exact absurd ended (by simp [walk])
      | succ fuel =>
          have null := along.null_apart
          obtain ⟨rfl, nonnull, next, live, onward⟩ := along
          obtain ⟨apart, distinct⟩ := List.nodup_cons.mp distinct
          rw [walk, if_neg nonnull, live] at ended
          simp only [Option.bind_eq_bind, Option.bind_some] at ended
          -- what follows the freeing of this entry
          have after (w' : Walk Key Value) (gone : w'.table.heap entry.1 = none)
              (kept : ∀ q, w.table.heap q = none → w'.table.heap q = none)
              (rests : (∀ q, w'.table.heap q = none → out.table.heap q = none) ∧
                ∀ block ∈ rest, timedOut stamp now block.2.value = true →
                  out.table.heap block.1 = none) :
              (∀ q, w.table.heap q = none → out.table.heap q = none) ∧
                ∀ block ∈ entry :: rest, timedOut stamp now block.2.value = true →
                    out.table.heap block.1 = none := by
            constructor
            · exact fun q none' => rests.1 q (kept q none')
            · intro block member old
              rcases List.mem_cons.mp member with rfl | later
              · exact rests.1 _ gone
              · exact rests.2 block later old
          by_cases old : timedOut stamp now entry.2.value = true
          · rw [if_pos old] at ended
            by_cases head : w.prev = 0
            · rw [if_pos head] at ended
              have freed : ∀ q, q ≠ entry.1 →
                  (unlinkHead index w entry.1 next).table.heap q = w.table.heap q :=
                fun q other => Function.update_of_ne other ..
              have gone : (unlinkHead index w entry.1 next).table.heap entry.1 = none :=
                Function.update_self ..
              apply after (unlinkHead index w entry.1 next) gone
              · intro q none'
                by_cases here : q = entry.1
                · rw [here, gone]
                · rw [freed q here, none']
              · apply ih fuel (unlinkHead index w entry.1 next) next _ distinct _ ended
                · exact onward.frame fun q member => freed q fun same => apart (same ▸ member)
                · right
                  have stays : (unlinkHead index w entry.1 next).prev = w.prev := rfl
                  rw [stays, head]
                  exact onward.null_apart
            · rw [if_neg head] at ended
              obtain ⟨w', unlinked, walked⟩ := Option.bind_eq_some_iff.mp ended
              obtain ⟨before, found, rfl⟩ := Option.map_eq_some_iff.mp unlinked
              have other : w.prev ≠ entry.1 := by
                intro same
                simp [destroyed, same] at found
              have behind : w.prev ∉ pointers rest := by
                intro member
                exact (prev.resolve_left other) (List.mem_cons_of_mem _ member)
              have linked : w.table.heap w.prev = some before :=
                (Function.update_of_ne other ..).symm.trans found
              let w' : Walk Key Value := { w with
                table := { destroyed w.table entry.1 with
                  collisions := (destroyed w.table entry.1).collisions - 1
                  heap := Function.update (destroyed w.table entry.1).heap w.prev
                    (some { before with pNext := next }) }
                prev := next }
              -- the cell that is written is not free
              have freed : ∀ q, q ≠ w.prev → q ≠ entry.1 →
                  w'.table.heap q = w.table.heap q := fun q first second =>
                (Function.update_of_ne first ..).trans (Function.update_of_ne second ..)
              have gone : w'.table.heap entry.1 = none :=
                (Function.update_of_ne other.symm ..).trans (Function.update_self ..)
              apply after w' gone
              · intro q none'
                have unwritten : q ≠ w.prev := by
                  rintro rfl
                  rw [none'] at linked
                  cases linked
                by_cases here : q = entry.1
                · rw [here]
                  exact gone
                · exact (freed q unwritten here).trans none'
              · apply ih fuel w' next _ distinct (Or.inl rfl) walked
                apply onward.frame
                intro q member
                exact freed q (fun same => behind (same ▸ member)) fun same => apart (same ▸ member)
          · rw [if_neg old] at ended
            obtain ⟨kept, rests⟩ := ih fuel ⟨w.table, entry.1, _⟩ next onward distinct
                (Or.inr apart) ended
            constructor
            · exact kept
            · intro block member timed
              rcases List.mem_cons.mp member with rfl | later
              · exact absurd timed old
              · exact rests block later timed

theorem pointers_putIn (entry : Ptr) (data : HashEntry Key Value) (chain : List (Block Key Value)) :
    pointers (putIn stamp now entry data chain) =
      if known stamp now data.key chain then pointers (fresh stamp now chain)
      else pointers (fresh stamp now chain) ++ [entry] := by
  have stays (block : Block Key Value) : (replaced data block).1 = block.1 := by
    rw [replaced]
    split <;> rfl
  rw [putIn]
  split
  · simp only [pointers, List.map_map]
    exact List.map_congr_left fun block _ => stays block
  · rw [pointers_append]
    rfl

theorem place_frees (table : HashTable Key Value) (chain : List (Block Key Value)) (fuel : Nat)
    (entry : Ptr) (data : HashEntry Key Value) (link : Ptr)
    (linked : Chain table.heap (table.array (htIndex hash table data.key)) chain)
    (distinct : (pointers chain).Nodup) (unique : (chain.map fun block => block.2.key).Nodup)
    (live : table.heap entry = some ⟨data, link⟩) (outside : entry ∉ pointers chain)
    (out : HashTable Key Value × Bool)
    (ended : place hash stamp now fuel table entry = some out) :
    ∀ q ∈ entry :: pointers chain, q ∉ pointers (putIn stamp now entry data chain) →
      out.1.heap q = none := by
  -- every cell of the chain that is in no entry afterwards is free, and so is the new one
  intro q member missing
  let index := htIndex hash table data.key
  let fixed : HashTable Key Value :=
    { table with heap := Function.update table.heap entry (some ⟨data, 0⟩) }
  have placing : place hash stamp now fuel table entry = if table.array index = 0 then
      some ({ fixed with
        array := Function.update table.array index entry, keyCount := table.keyCount + 1 }, false)
      else (walk stamp now data.key index fuel ⟨fixed, 0, 0⟩ (table.array index)).bind
          (settle index entry data.value) := by
    rw [place, live]
    rfl
  have prepared : Chain fixed.heap (table.array index) chain := by
    apply linked.frame
    intro p inside
    have other : p ≠ entry := fun same => outside (same ▸ inside)
    exact Function.update_of_ne other ..
  rw [placing] at ended
  rw [pointers_putIn] at missing
  by_cases start : table.array index = 0
  · have empty : chain = [] := linked.unique start
    subst empty
    simp [known, fresh] at missing member
    exact absurd member missing
  · rw [if_neg start] at ended
    obtain ⟨w, walked, settled⟩ := Option.bind_eq_some_iff.mp ended
    have found := ((walk_chain stamp now data.key index chain fuel ⟨fixed, 0, 0⟩ prepared distinct
        rfl).1 w walked).2.2.2
    obtain ⟨_, timed⟩ := walk_frees stamp now data.key index chain fuel ⟨fixed, 0, 0⟩ w _ prepared
        distinct
      (Or.inr prepared.null_apart) walked
    obtain ⟨kept, own⟩ := settle_frees index entry data.value w out settled
    -- an entry of the chain that is not there any more had timed out
    have old (block : Block Key Value) (listed : block ∈ chain)
        (gone : block.1 ∉ pointers (fresh stamp now chain)) :
        out.1.heap block.1 = none := by
      apply kept
      apply timed block listed
      by_contra new
      apply gone
      exact List.mem_map.mpr ⟨block,
        (mem_fresh stamp now chain block).mpr ⟨listed, by simpa using new⟩, rfl⟩
    cases hits : known stamp now data.key chain with
    | true =>
        rw [hits, if_pos rfl] at missing
        rcases List.mem_cons.mp member with rfl | inside
        · apply own
          obtain ⟨block, fresh', same⟩ := List.any_eq_true.mp hits
          have hitting := hit_known stamp now chain 0 block fresh' unique
          rw [of_decide_eq_true same] at hitting
          rw [found, hitting]
          exact linked.nonnull block ((mem_fresh stamp now chain block).mp fresh').1
        · obtain ⟨block, listed, rfl⟩ := List.mem_map.mp inside
          exact old block listed missing
    | false =>
        rw [hits, if_neg Bool.false_ne_true, List.mem_append, not_or] at missing
        rcases List.mem_cons.mp member with rfl | inside
        · exact absurd (List.mem_singleton_self _) missing.2
        · obtain ⟨block, listed, rfl⟩ := List.mem_map.mp inside
          exact old block listed missing.1

variable {hash stamp now} {table after : HashTable Key Value}
    {chains : Nat → List (Block Key Value)}
  {start : Heap (HashEntry Key Value)}

theorem owns_placed (stored : Stored hash table chains) (positive : 0 < table.arraySize)
    (fuel : Nat) {entry : Ptr} {data : HashEntry Key Value} {link : Ptr}
    (live : table.heap entry = some ⟨data, link⟩)
    (outside : entry ∉ pointers (chains (htIndex hash table data.key)))
    {out : HashTable Key Value × Bool} (ended : place hash stamp now fuel table entry = some out)
    {others : List Ptr} (owns :
      Owns start table.heap (pointers (entries table chains) ++ entry :: others)) :
    Owns start out.1.heap (pointers
      (entries out.1 (Function.update chains (htIndex hash table data.key)
      (putIn stamp now entry data (chains (htIndex hash table data.key))))) ++ others) := by
  -- one entry is put into its chain, while `others` are still to come
  have inside := index_lt hash positive data.key
  have linked := stored.chain _ inside
  have distinct := chain_distinct stored inside
  have unique := stored.unique _ inside
  have placed := ((place_leaves hash stamp now table _ fuel entry data link linked distinct unique
      stored.null live
    outside).1 out ended).2.1
  have frees := place_frees hash stamp now table _ fuel entry data link linked distinct unique live
      outside out ended
  have covers : ∀ q ∈ pointers (putIn stamp now entry data (chains (htIndex hash table data.key))),
      q ∈ entry :: pointers (chains (htIndex hash table data.key)) := by
    intro q member
    rw [pointers_putIn] at member
    split at member
    · exact List.mem_cons_of_mem _ ((pointers_fresh stamp now _).subset member)
    · rcases List.mem_append.mp member with old | new
      · exact List.mem_cons_of_mem _ ((pointers_fresh stamp now _).subset old)
      · exact List.mem_cons.mpr (Or.inl (List.mem_singleton.mp new))
  apply owns.shrinks
  · intro q away
    apply placed.frame
    intro touched
    apply away
    rcases List.mem_cons.mp touched with rfl | member
    · exact List.mem_append_right _ List.mem_cons_self
    · exact List.mem_append_left _ ((pointer_entries table chains q).mpr ⟨_, inside, member⟩)
  · intro q member
    rcases List.mem_append.mp member with grown | later
    · obtain ⟨i, below, inChain⟩ := (pointer_entries out.1 _ q).mp grown
      rw [placed.size] at below
      by_cases here : i = htIndex hash table data.key
      · rw [here, Function.update_self] at inChain
        rcases List.mem_cons.mp (covers q inChain) with rfl | old
        · exact List.mem_append_right _ List.mem_cons_self
        · exact List.mem_append_left _ ((pointer_entries table chains q).mpr ⟨_, inside, old⟩)
      · rw [Function.update_of_ne here] at inChain
        exact List.mem_append_left _ ((pointer_entries table chains q).mpr ⟨i, below, inChain⟩)
    · exact List.mem_append_right _ (List.mem_cons_of_mem _ later)
  · intro q member missing
    rw [List.mem_append, not_or] at missing
    have away (i : Nat) (below : i < table.arraySize) : q ∉ pointers (Function.update chains
        (htIndex hash table data.key)
            (putIn stamp now entry data (chains (htIndex hash table data.key))) i) := by
      intro inChain
      exact missing.1 ((pointer_entries out.1 _ q).mpr ⟨i, by rwa [placed.size], inChain⟩)
    have own := away _ inside
    rw [Function.update_self] at own
    apply frees q _ own
    rcases List.mem_append.mp member with old | new
    · obtain ⟨i, below, inChain⟩ := (pointer_entries table chains q).mp old
      have still := away i below
      by_cases here : i = htIndex hash table data.key
      · rw [here] at inChain
        exact List.mem_cons_of_mem _ inChain
      · rw [Function.update_of_ne here] at still
        exact absurd inChain still
    · rcases List.mem_cons.mp new with rfl | later
      · exact List.mem_cons_self
      · exact absurd later missing.2

theorem insert_place (stored : Stored hash table chains) (positive : 0 < table.arraySize)
    (fuel : Nat) {entry : Ptr} {data : HashEntry Key Value} {link : Ptr}
    (live : table.heap entry = some ⟨data, link⟩)
    (outside : entry ∉ pointers (chains (htIndex hash table data.key)))
    (room : 20 * (table.collisions +
      collided stamp now data.key (chains (htIndex hash table data.key))) ≤ table.arraySize)
    (ended : htInsertHe hash stamp now fuel table entry = some after) :
    ∃ inner out, place hash stamp now inner table entry = some out ∧ out.1 = after := by
  cases fuel with
  | zero => nomatch ended
  | succ fuel =>
      have inside := index_lt hash positive data.key
      obtain ⟨out, putting, rest⟩ := Option.bind_eq_some_iff.mp ended
      have placed := ((place_leaves hash stamp now table _ fuel entry data link
          (stored.chain _ inside)
        (chain_distinct stored inside) (stored.unique _ inside) stored.null live outside).1 out
          putting).2.1
      have calm : tooFull out.1 = false := by
        rw [tooFull, placed.size, placed.collided]
        exact decide_eq_false (by omega)
      rw [calm, Bool.and_false, if_neg Bool.false_ne_true] at rest
      exact ⟨fuel, out, putting, Option.some.inj rest⟩

/-! The table grows. -/

variable {size : Nat} {moved : List (Block Key Value)}

variable (hash stamp now) in
def regrouped (size : Nat) (moved : List (Block Key Value)) (table : HashTable Key Value) :
    List Ptr :=
  pointers (entries table fun i => gathered stamp now (bucket hash size moved i))

theorem owns_one (moving : Moved hash stamp now size moved table) (positive : 0 < size) (fuel : Nat)
    {block : Block Key Value} {link : Ptr} (live : table.heap block.1 = some ⟨block.2, link⟩)
    (apart : block.1 ∉ pointers moved) (unknown : ∀ earlier ∈ moved, earlier.2.key ≠ block.2.key)
    (room : 20 * (table.collisions + crosses hash size moved block) ≤ size)
    (ended : htInsertHe hash stamp now fuel table block.1 = some after) {others : List Ptr}
    (owns : Owns start table.heap
      (regrouped hash stamp now size moved table ++ block.1 :: others)) :
    Owns start after.heap (regrouped hash stamp now size (moved ++ [block]) after ++ others) := by
  have positive' : 0 < table.arraySize := by rwa [moving.sized]
  have index : htIndex hash table block.2.key =
      hash block.2.key % size := by rw [htIndex, moving.sized]
  have outside := gathered_away hash stamp now size moved _ apart
  have cost := collided_crosses hash stamp now size moved block
  have light : 20 * (table.collisions + collided stamp now block.2.key
      (gathered stamp now (bucket hash size moved (htIndex hash table block.2.key)))) ≤
          table.arraySize := by
    rw [index, moving.sized]
    omega
  obtain ⟨inner, out, putting, rfl⟩ :=
    insert_place moving.stored positive' fuel live (outside _) light ended
  have placed := owns_placed moving.stored positive' inner live (outside _) putting owns
  rw [regrouped, gathered_putIn hash stamp now table moving.sized block unknown]
  exact placed

theorem owns_chain (rest : List (Block Key Value)) (moving : Moved hash stamp now size moved table)
    (positive : 0 < size) (inner fuel : Nat) (p : Ptr) (linked : Chain table.heap p rest)
    (distinct : Distinct (moved ++ rest))
    (room : 20 * (table.collisions + crossings hash size moved rest) ≤ size)
    (ended : moveChain (htInsertHe hash stamp now inner) fuel table p = some after)
    {others : List Ptr}
    (owns : Owns start table.heap
      (regrouped hash stamp now size moved table ++ (pointers rest ++ others))) :
    Owns start after.heap (regrouped hash stamp now size (moved ++ rest) after ++ others) := by
  induction rest generalizing moved table fuel p with
  | nil =>
      cases fuel with
      | zero => nomatch ended
      | succ fuel =>
          have null : p = 0 := linked
          rw [moveChain, if_pos null] at ended
          cases ended
          rw [List.append_nil]
          exact owns
  | cons block rest ih =>
      cases fuel with
      | zero => nomatch ended
      | succ fuel =>
          obtain ⟨rfl, nonnull, next, live, along⟩ := linked
          have later := crossings_nonneg hash size (moved ++ [block]) rest
          obtain ⟨apart, unknown⟩ := distinct.next
          rw [crossings] at room
          rw [moveChain, if_neg nonnull, live] at ended
          simp only [Option.bind_eq_bind, Option.bind_some] at ended
          obtain ⟨middle, inserted, onward⟩ := Option.bind_eq_some_iff.mp ended
          have moves := (move_one moving positive inner live apart unknown (by omega)).1 middle
              inserted
          have owned := owns_one moving positive inner live apart unknown (by omega) inserted owns
          have light := moves.light
          simp only [crossings] at light
          have split : moved ++ block :: rest = moved ++ [block] ++ rest := by simp
          rw [split] at distinct ⊢
          exact ih moves.all fuel next
            (along.frame fun q member => moves.frame q (distinct.away q member)) distinct
            (by omega) onward owned

theorem owns_chains (chains : Nat → List (Block Key Value)) (heads : Nat → Ptr) (indices : List Nat)
    (moving : Moved hash stamp now size moved table) (positive : 0 < size) (inner fuel : Nat)
    (linked : ∀ i ∈ indices, Chain table.heap (heads i) (chains i))
    (distinct : Distinct (moved ++ indices.flatMap chains))
    (room : 20 * (table.collisions + crossings hash size moved (indices.flatMap chains)) ≤ size)
    (ended : indices.foldlM
      (fun newTable i => moveChain (htInsertHe hash stamp now inner) fuel newTable (heads i))
      table =
      some after)
    (owns : Owns start table.heap
      (regrouped hash stamp now size moved table ++ pointers (indices.flatMap chains))) :
    Owns start after.heap (regrouped hash stamp now size (moved ++ indices.flatMap chains)
      after) := by
  induction indices generalizing moved table with
  | nil =>
      cases ended
      simpa using owns
  | cons i indices ih =>
      rw [List.flatMap_cons] at distinct room owns ⊢
      rw [crossings_append] at room
      rw [pointers_append] at owns
      have later := crossings_nonneg hash size (moved ++ chains i) (indices.flatMap chains)
      rw [← List.append_assoc] at distinct ⊢
      rw [List.foldlM_cons] at ended
      obtain ⟨middle, first, onward⟩ := Option.bind_eq_some_iff.mp ended
      have here := linked i List.mem_cons_self
      have moves := (move_chain (chains i) moving positive inner fuel (heads i) here distinct.first
          (by omega)).1 middle first
      have owned := owns_chain (chains i) moving positive inner fuel (heads i) here distinct.first
          (by omega) first owns
      have light := moves.light
      apply ih moves.all _ distinct (by omega) onward owned
      intro j listed
      apply (linked j (List.mem_cons_of_mem _ listed)).frame
      intro q within
      apply moves.frame
      apply distinct.away
      exact List.map_subset _ (fun block inside => List.mem_flatMap.mpr ⟨j, listed, inside⟩) within

theorem owns_resized (stored : Stored hash table chains) (positive : 0 < size) (inner fuel : Nat)
    (room : 20 * crossings hash size [] (entries table chains) ≤ size)
    (ended : htResize (htInsertHe hash stamp now inner) fuel table size = some after)
    (owns : Owns start table.heap (pointers (entries table chains))) :
    Owns start after.heap (regrouped hash stamp now size (entries table chains) after) := by
  have empty : Moved hash stamp now size [] (htInit size table.heap : HashTable Key Value) :=
    moved_init stored size
  have first : (htInit size table.heap : HashTable Key Value).collisions = 0 := rfl
  have nothing : regrouped hash stamp now size [] (htInit size table.heap : HashTable Key Value) =
      [] := by
    have none' : entries (htInit size table.heap : HashTable Key Value)
        (fun i => gathered stamp now (bucket hash size [] i)) = [] :=
          List.flatMap_eq_nil_iff.mpr fun _ _ => rfl
    rw [regrouped, none', pointers_nil]
  apply owns_chains chains table.array (List.range table.arraySize) empty positive inner fuel
    (fun i listed => stored.chain i (List.mem_range.mp listed)) (entries_distinct stored) _ ended
  · rw [nothing]
    exact owns
  · rw [first, Int.zero_add]
    exact room

/-! A removal. -/

theorem remove_frees (key : Key) (index : Nat) (chain : List (Block Key Value)) (fuel : Nat)
    (prev entry : Ptr) (linked : Chain table.heap entry chain)
    (ended : removeFrom key index fuel table prev entry = some after) :
    ∀ q ∈ pointers chain, q ∉ pointers (without key chain) → after.heap q = none := by
  induction chain generalizing fuel prev entry with
  | nil =>
      intro q wrong
      cases wrong
  | cons first rest ih =>
      intro q member missing
      cases fuel with
      | zero => nomatch ended
      | succ fuel =>
          obtain ⟨rfl, nonnull, next, live, onward⟩ := linked
          rw [removeFrom, if_neg nonnull, live] at ended
          simp only [Option.bind_eq_bind, Option.bind_some] at ended
          rw [without_cons] at missing
          by_cases hits : first.2.key = key
          · rw [if_pos hits] at missing ended
            have here : q = first.1 := (List.mem_cons.mp member).resolve_right missing
            split at ended
            · cases ended
              rw [here]
              exact Function.update_self ..
            · obtain ⟨before, _, same⟩ := Option.bind_eq_some_iff.mp ended
              cases same
              rw [here]
              exact Function.update_self ..
          · rw [if_neg hits] at missing ended
            rw [pointers_cons, List.mem_cons, not_or] at missing
            exact ih fuel first.1 next onward ended q
              ((List.mem_cons.mp member).resolve_left missing.1) missing.2

/-! Runs. -/

def Accounted (hash : Key → Nat) (start : Heap (HashEntry Key Value))
    (table : HashTable Key Value) : Prop :=
  ∃ chains, Sound hash table chains ∧ Owns start table.heap (pointers (entries table chains))

theorem insert_accounted (accounted : Accounted hash start table) {entry : Ptr}
    (nonnull : entry ≠ 0) (new : table.heap entry = none) (key : Key) (value : Value) (fuel : Nat)
    (ended : htInsert hash stamp now (fuel + 1) table entry key value = some after) :
    Accounted hash start after := by
  obtain ⟨chains, sound, owns⟩ := accounted
  have positive : 0 < table.arraySize := Nat.lt_of_lt_of_le (by decide) sound.large
  obtain ⟨outside, made⟩ := created sound nonnull new ⟨key, value⟩
  have live : (withEntry table entry key value).heap entry = some ⟨⟨key, value⟩, 0⟩ :=
    Function.update_self ..
  have used : (withEntry table entry key value).heap entry ≠ none := by simp [live]
  have away : entry ∉ pointers (entries table chains) := by
    intro member
    obtain ⟨i, below, inChain⟩ := (pointer_entries table chains entry).mp member
    exact outside i below inChain
  have owned : Owns start (withEntry table entry key value).heap
      (pointers (entries (withEntry table entry key value) chains) ++ entry :: []) := by
    constructor
    · intro q missing
      rw [List.mem_append, not_or] at missing
      have other : q ≠ entry := fun same => missing.2 (List.mem_singleton.mpr same)
      exact (Function.update_of_ne other ..).trans (owns.others q missing.1)
    · intro q member
      rcases List.mem_append.mp member with old | same
      · exact owns.free q old
      · rw [List.mem_singleton.mp same, ← owns.others entry away]
        exact new
  obtain ⟨out, putting, -, placed, ends⟩ := insertHe_placed made live outside fuel ended
  have stored := stored_insert made.toStored positive used outside placed
  have inside := index_lt hash positive key
  have kept := owns_placed made.toStored positive fuel live (outside _ inside) putting owned
  rw [List.append_nil] at kept
  rcases ends with ⟨calm, rfl⟩ | ⟨_, grown⟩
  · exact ⟨_, sound_placed made used outside placed calm, kept⟩
  · have larger : 0 < out.1.arraySize * 2 := by
      rw [placed.size]
      exact Nat.mul_pos positive (by decide)
    have room := room_to_grow made used outside placed
    obtain ⟨moved, light⟩ := (resize_moved stored larger fuel fuel room).1 after grown
    exact ⟨_, sound_moved (placed.size ▸ sound.large) moved light,
      owns_resized stored larger fuel fuel room grown kept⟩

theorem remove_accounted (accounted : Accounted hash start table) (key : Key) (fuel : Nat)
    (ended : htRemove hash fuel table key = some after) : Accounted hash start after := by
  obtain ⟨chains, sound, owns⟩ := accounted
  have positive : 0 < table.arraySize := Nat.lt_of_lt_of_le (by decide) sound.large
  have inside := index_lt hash positive key
  obtain ⟨size, sound'⟩ := sound_remove sound key fuel ended
  have leaves := remove_leaves hash table after key _ fuel (sound.chain _ inside)
      (chain_distinct sound.toStored inside) ended
  have frees := remove_frees key _ _ fuel 0 _ (sound.chain _ inside) ended
  have less : ∀ i, pointers (Function.update chains (htIndex hash table key)
      (without key (chains (htIndex hash table key))) i) ⊆ pointers (chains i) := by
    intro i
    by_cases here : i = htIndex hash table key
    · rw [here, Function.update_self]
      exact (List.eraseP_sublist.map _).subset
    · rw [Function.update_of_ne here]
      exact List.Subset.refl _
  refine ⟨_, sound', owns.shrinks ?_ ?_ ?_⟩
  · intro q away
    apply leaves.frame
    intro member
    exact away ((pointer_entries table chains q).mpr ⟨_, inside, member⟩)
  · intro q member
    obtain ⟨i, below, inChain⟩ := (pointer_entries after _ q).mp member
    exact (pointer_entries table chains q).mpr ⟨i, size ▸ below, less i inChain⟩
  · intro q member missing
    obtain ⟨i, below, inChain⟩ := (pointer_entries table chains q).mp member
    have gone : q ∉ pointers (Function.update chains (htIndex hash table key)
        (without key (chains (htIndex hash table key))) i) := by
      intro still
      exact missing ((pointer_entries after _ q).mpr ⟨i, size ▸ below, still⟩)
    by_cases here : i = htIndex hash table key
    · rw [here] at inChain gone
      rw [Function.update_self] at gone
      exact frees q inChain gone
    · rw [Function.update_of_ne here] at gone
      exact absurd inChain gone

theorem accounted_next (accounted : Accounted hash start table)
    (call : CollisionCount.Call Key Value) (ends : CollisionCount.Ends hash stamp table call) :
    Accounted hash start (CollisionCount.next hash stamp table call) := by
  obtain ⟨returns, fresh⟩ := ends
  obtain ⟨after, ended⟩ := Option.isSome_iff_exists.mp returns
  rw [CollisionCount.next, ended]
  cases call with
  | insert entry key value now fuel =>
      exact insert_accounted accounted fresh.1 fresh.2 key value fuel ended
  | remove key fuel => exact remove_accounted accounted key fuel ended

theorem run_accounted (calls : List (CollisionCount.Call Key Value)) (table : HashTable Key Value)
    (accounted : Accounted hash start table)
    (ends : Allowed (CollisionCount.next hash stamp) (CollisionCount.Ends hash stamp) table calls) :
    Accounted hash start (run (CollisionCount.next hash stamp) table calls) := by
  induction calls generalizing table with
  | nil => exact accounted
  | cons call calls ih => exact ih _ (accounted_next accounted call ends.1) ends.2

/-- Whatever a run has inserted, replaced, removed, aged and moved, `ht_destroy` comes to its end,
destroying no entry twice, and leaves the heap that the run began with; `ht_clear` leaves an empty
table beside that heap. -/
theorem destroy_restores (hash : Key → Nat) (stamp : Value → Int)
    (heap : Heap (HashEntry Key Value)) (null : heap 0 = none)
    (calls : List (CollisionCount.Call Key Value))
    (ends : Allowed (CollisionCount.next hash stamp) (CollisionCount.Ends hash stamp)
      (htInit initialSize heap) calls) :
    ∃ fuel after, htDestroy fuel
      (run (CollisionCount.next hash stamp) (htInit initialSize heap) calls) = some after ∧
      after.heap = heap ∧
      htClear fuel (run (CollisionCount.next hash stamp) (htInit initialSize heap) calls) =
        some (htInit initialSize heap) := by
  have empty : Accounted hash heap (htInit initialSize heap) := by
    refine ⟨_, sound_init hash heap null, fun _ _ => rfl, ?_⟩
    intro q member
    obtain ⟨i, _, inChain⟩ := (pointer_entries _ _ q).mp member
    cases inChain
  obtain ⟨chains, sound, owns⟩ := run_accounted calls _ empty ends
  obtain ⟨fuel, after, ended, left⟩ := destroy_stored sound.toStored
  rw [owns.cleared] at left
  refine ⟨fuel, after, ended, left, ?_⟩
  rw [htClear, ended, Option.map_some, left]

theorem destroy_restores_aged : ∃ fuel after,
    htDestroy fuel (run (CollisionCount.next (fun _ => 3) id) (htInit initialSize fun _ => none)
      firstAged) = some after ∧
      after.heap = (fun _ => none) ∧
      htClear fuel (run (CollisionCount.next (fun _ => 3) id) (htInit initialSize fun _ => none)
        firstAged) =
        some (htInit initialSize fun _ => none) :=
  destroy_restores (fun _ => 3) id (fun _ => none) rfl firstAged firstAged_ends

end

end LazyAS.TableMemory

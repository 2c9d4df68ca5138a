import Mathlib.Data.List.DropRight
import LazyAS.AgingTable

/-! A table grows. The entries are put into the new table one after the other, each by an insertion
that drops what has timed out in front of it, so a chain of the new table is told by the entries
that were put into it. It comes to its end exactly if in each chain no timed out entry stands
between one that has not and a later one. -/
namespace LazyAS.AgingResize
open LinkedChain AgingHash AgingWalk AgingInsert AgingTable

section
variable {Key Value : Type} (stamp : Value → Int) (now : Int)

def gathered (blocks : List (Block Key Value)) : List (Block Key Value) :=
  blocks.foldl (fun chain block => fresh stamp now chain ++ [block]) []

/-- But for the last entry, what follows one that has not timed out has not timed out either. -/
def Quiet (blocks : List (Block Key Value)) : Prop :=
  ∀ block ∈ fromFresh stamp now blocks.dropLast, timedOut stamp now block.2.value = false

theorem fresh_append (front back : List (Block Key Value)) :
    fresh stamp now (front ++ back) = fresh stamp now front ++ fresh stamp now back :=
  List.filter_append ..

theorem fresh_fresh (chain : List (Block Key Value)) :
    fresh stamp now (fresh stamp now chain) = fresh stamp now chain := by
  simp [fresh]

theorem fresh_all {chain : List (Block Key Value)}
    (all : ∀ block ∈ chain, timedOut stamp now block.2.value = false) :
    fresh stamp now chain = chain :=
  List.filter_eq_self.mpr fun block member => by rw [all block member]; rfl

theorem gathered_append (blocks : List (Block Key Value)) (block : Block Key Value) :
    gathered stamp now (blocks ++ [block]) = fresh stamp now (gathered stamp now blocks) ++
      [block] := by
  rw [gathered, List.foldl_append]
  rfl

theorem fresh_gathered (blocks : List (Block Key Value)) :
    fresh stamp now (gathered stamp now blocks) = fresh stamp now blocks := by
  induction blocks using List.reverseRecOn with
  | nil => rfl
  | append_singleton blocks block ih =>
      rw [gathered_append, fresh_append, fresh_fresh, ih, ← fresh_append]

theorem gathered_last (blocks : List (Block Key Value)) (block : Block Key Value) :
    gathered stamp now (blocks ++ [block]) = fresh stamp now blocks ++ [block] := by
  rw [gathered_append, fresh_gathered]

theorem gathered_subset (blocks : List (Block Key Value)) : gathered stamp now blocks ⊆ blocks := by
  rcases List.eq_nil_or_concat' blocks with rfl | ⟨before, last, rfl⟩
  · exact List.Subset.refl _
  · rw [gathered_last]
    intro block member
    rcases List.mem_append.mp member with kept | here
    · exact List.mem_append_left _ ((mem_fresh stamp now before block).mp kept).1
    · exact List.mem_append_right _ here

theorem length_gathered (blocks : List (Block Key Value)) :
    (gathered stamp now blocks).length ≤ blocks.length := by
  rcases List.eq_nil_or_concat' blocks with rfl | ⟨before, last, rfl⟩
  · exact Nat.le_refl _
  · rw [gathered_last, List.length_append, List.length_append]
    exact Nat.add_le_add_right (List.length_filter_le ..) _

theorem fresh_subset_gathered (blocks : List (Block Key Value)) :
    fresh stamp now blocks ⊆ gathered stamp now blocks := by
  rw [← fresh_gathered]
  exact List.filter_sublist.subset

theorem mem_gathered (blocks : List (Block Key Value)) (distinct : blocks.Nodup)
    (block : Block Key Value) :
    block ∈ gathered stamp now blocks ↔
      block ∈ blocks ∧ (block ∈ blocks.dropLast → timedOut stamp now block.2.value = false) := by
  rcases List.eq_nil_or_concat' blocks with rfl | ⟨before, last, rfl⟩
  · simp [gathered]
  · have apart : last ∉ before := fun member =>
        (List.nodup_append.mp distinct).2.2 last member last (by simp) rfl
    rw [gathered_last, List.dropLast_concat, List.mem_append, List.mem_append, mem_fresh,
      List.mem_singleton]
    constructor
    · rintro (⟨member, new⟩ | rfl)
      · exact ⟨Or.inl member, fun _ => new⟩
      · exact ⟨Or.inr rfl, fun wrong => absurd wrong apart⟩
    · rintro ⟨member | rfl, new⟩
      · exact Or.inl ⟨member, new member⟩
      · exact Or.inr rfl

theorem quiet_append (blocks : List (Block Key Value)) (block : Block Key Value) :
    Quiet stamp now (blocks ++ [block]) ↔
    ∀ earlier ∈ fromFresh stamp now blocks, timedOut stamp now earlier.2.value = false := by
  rw [Quiet, List.dropLast_concat]

theorem quiet_fresh (blocks : List (Block Key Value))
    (all : ∀ block ∈ blocks, timedOut stamp now block.2.value = false) :
    Quiet stamp now blocks := fun block member =>
  all block (List.dropLast_subset _ ((List.dropWhile_sublist _).subset member))

theorem fromFresh_append (front back : List (Block Key Value)) :
    fromFresh stamp now (front ++ back) =
    if (fromFresh stamp now front).isEmpty then fromFresh stamp now back
      else fromFresh stamp now front ++ back :=
  List.dropWhile_append

theorem fromFresh_gathered (blocks : List (Block Key Value)) (quiet : Quiet stamp now blocks) :
    fromFresh stamp now (gathered stamp now blocks) = fromFresh stamp now blocks := by
  -- the walk down a gathered chain meets what it would meet of the entries themselves
  rcases List.eq_nil_or_concat' blocks with rfl | ⟨before, last, rfl⟩
  · rfl
  · have all := (quiet_append stamp now before last).mp quiet
    have kept : fresh stamp now before = fromFresh stamp now before := by
      rw [← fresh_fromFresh, fresh_all stamp now all]
    have again : fromFresh stamp now (fromFresh stamp now before) = fromFresh stamp now before :=
      List.dropWhile_idempotent ..
    rw [gathered_last, kept, fromFresh_append, fromFresh_append, again]

theorem apart_fresh (chain : List (Block Key Value))
    (all : ∀ block ∈ chain, timedOut stamp now block.2.value = false) :
    Apart stamp now chain := by
  induction chain with
  | nil => exact List.isChain_nil
  | cons block rest ih =>
      refine (apart_cons stamp now block rest).mpr ⟨fun next _ both => ?_, ih fun later member =>
        all later (List.mem_cons_of_mem _ member)⟩
      rw [all block List.mem_cons_self] at both
      exact Bool.false_ne_true both.1

theorem walkable_gathered [DecidableEq Key] (blocks : List (Block Key Value))
    (block : Block Key Value) (quiet : Quiet stamp now blocks)
    (unknown : ∀ earlier ∈ blocks, earlier.2.key ≠ block.2.key) :
    Walkable stamp now block.2.key (gathered stamp now blocks) ↔
      Quiet stamp now (blocks ++ [block]) := by
  -- what the walk for one more entry asks of a gathered chain
  have missing : known stamp now block.2.key (gathered stamp now blocks) = false := by
    refine List.any_eq_false.mpr fun earlier member => ?_
    rw [fresh_gathered] at member
    simpa using unknown earlier ((mem_fresh stamp now blocks earlier).mp member).1
  rw [Walkable, missing, fromFresh_gathered stamp now blocks quiet, quiet_append]
  constructor
  · intro walkable earlier member
    rcases List.eq_nil_or_concat' blocks with rfl | ⟨before, last, rfl⟩
    · nomatch member
    · have ends := walkable.2 rfl
      rw [fromFresh_append] at ends member
      by_cases none : (fromFresh stamp now before).isEmpty = true
      · rw [if_pos none, fromFresh_cons] at member
        by_cases old : timedOut stamp now last.2.value
        · rw [if_pos old] at member
          nomatch member
        · rw [if_neg old] at member
          rw [List.mem_singleton.mp member]
          exact Bool.eq_false_iff.mpr old
      · rw [if_neg none] at ends member
        rcases List.mem_append.mp member with kept | here
        · exact (quiet_append stamp now before last).mp quiet earlier kept
        · exact ends earlier (by rw [List.mem_singleton.mp here]; simp)
  · intro all
    exact ⟨apart_fresh stamp now _ all, fun _ last member => all last
      (List.mem_of_mem_getLast? member)⟩

theorem quiet_of_all (blocks : List (Block Key Value))
    (all : ∀ block ∈ fromFresh stamp now blocks, timedOut stamp now block.2.value = false) :
    Quiet stamp now blocks := by
  rcases List.eq_nil_or_concat' blocks with rfl | ⟨before, last, rfl⟩
  · exact all
  · refine (quiet_append stamp now before last).mpr fun block member => all block ?_
    have some : (fromFresh stamp now before).isEmpty = false :=
      List.isEmpty_eq_false_iff.mpr (List.ne_nil_of_mem member)
    rw [fromFresh_append, some, if_neg Bool.false_ne_true]
    exact List.mem_append_left _ member

theorem quiet_prefix (front back : List (Block Key Value))
    (quiet : Quiet stamp now (front ++ back)) : Quiet stamp now front := by
  induction back using List.reverseRecOn with
  | nil => rwa [List.append_nil] at quiet
  | append_singleton back block ih =>
      rw [← List.append_assoc, quiet_append] at quiet
      exact ih (quiet_of_all stamp now _ quiet)

end

/-! The entries on their way. -/

section
variable {Key Value : Type} (hash : Key → Nat) (stamp : Value → Int) (now : Int)

def bucket (size : Nat) (blocks : List (Block Key Value)) (i : Nat) : List (Block Key Value) :=
  blocks.filter fun block => hash block.2.key % size = i

def crosses (size : Nat) (moved : List (Block Key Value)) (block : Block Key Value) : Int :=
  if bucket hash size moved (hash block.2.key % size) = [] then 0 else 1

def crossings (size : Nat) : List (Block Key Value) → List (Block Key Value) → Int
  | _, [] => 0
  | moved, block :: rest => crosses hash size moved block + crossings size (moved ++ [block]) rest

structure Moved (size : Nat) (moved : List (Block Key Value)) (table : HashTable Key Value) :
    Prop where
  quiet : ∀ i, Quiet stamp now (bucket hash size moved i)
  sized : table.arraySize = size
  stored : Stored hash table fun i => gathered stamp now (bucket hash size moved i)
  counted : table.keyCount = ∑ i ∈ Finset.range table.arraySize,
    ((gathered stamp now (bucket hash size moved i)).length : Int)
  spare : ∑ i ∈ Finset.range table.arraySize,
    (((gathered stamp now (bucket hash size moved i)).length - 1 : Nat) : Int) ≤
    table.collisions

structure Moves (size : Nat) (moved rest : List (Block Key Value))
    (table after : HashTable Key Value) : Prop where
  all : Moved hash stamp now size (moved ++ rest) after
  frame : ∀ q, q ∉ pointers (moved ++ rest) → after.heap q = table.heap q
  light : after.collisions ≤ table.collisions + crossings hash size moved rest

theorem bucket_append (size : Nat) (front back : List (Block Key Value)) (i : Nat) :
    bucket hash size (front ++ back) i = bucket hash size front i ++ bucket hash size back i :=
  List.filter_append ..

theorem crosses_nonneg (size : Nat) (moved : List (Block Key Value)) (block : Block Key Value) :
    0 ≤ crosses hash size moved block := by
  rw [crosses]
  split <;> decide

theorem crossings_nonneg (size : Nat) (moved rest : List (Block Key Value)) :
    0 ≤ crossings hash size moved rest := by
  induction rest generalizing moved with
  | nil => exact Int.le_refl 0
  | cons block rest ih => exact Int.add_nonneg (crosses_nonneg hash size moved block) (ih _)

theorem crossings_append (size : Nat) (moved front back : List (Block Key Value)) :
    crossings hash size moved (front ++ back) =
    crossings hash size moved front + crossings hash size (moved ++ front) back := by
  induction front generalizing moved with
  | nil => simp [crossings]
  | cons block front ih =>
      rw [List.cons_append, crossings, crossings, ih, List.append_assoc, List.singleton_append,
        Int.add_assoc]

theorem crossings_le (size : Nat) (moved rest : List (Block Key Value)) :
    crossings hash size moved rest ≤ rest.length := by
  induction rest generalizing moved with
  | nil => exact Int.le_refl 0
  | cons block rest ih =>
      have one : crosses hash size moved block ≤ 1 := by
        rw [crosses]
        split <;> decide
      have others := ih (moved ++ [block])
      rw [crossings, List.length_cons]
      omega

variable {hash stamp now} {size : Nat} {moved : List (Block Key Value)}
    {table : HashTable Key Value}

theorem bucket_one (size : Nat) (moved : List (Block Key Value)) (block : Block Key Value) :
    (fun i => gathered stamp now (bucket hash size (moved ++ [block]) i)) =
      Function.update (fun i => gathered stamp now (bucket hash size moved i))
        (hash block.2.key % size)
        (fresh stamp now (gathered stamp now (bucket hash size moved (hash block.2.key % size))) ++
          [block]) := by
  funext i
  rw [bucket_append]
  by_cases here : i = hash block.2.key % size
  · have own : bucket hash size [block] i = [block] := by simp [bucket, here]
    rw [own, gathered_append, here, Function.update_self]
  · have other : bucket hash size [block] i = [] := by simp [bucket, Ne.symm here]
    rw [other, List.append_nil, Function.update_of_ne here]

theorem Moves.then {middle after : HashTable Key Value} {first second : List (Block Key Value)}
    (front : Moves hash stamp now size moved first table middle)
    (back : Moves hash stamp now size (moved ++ first) second middle after) :
    Moves hash stamp now size moved (first ++ second) table after where
  all := List.append_assoc moved first second ▸ back.all
  frame := fun q away => by
    have later : q ∉ pointers (moved ++ first ++ second) := by rwa [List.append_assoc]
    refine (back.frame q later).trans (front.frame q fun member => later ?_)
    rw [pointers_append]
    exact List.mem_append_left _ member
  light := by
    have one := front.light
    have two := back.light
    rw [crossings_append]
    omega

theorem quiet_first (first second : List (Block Key Value))
    (quiet : ∀ i, Quiet stamp now (bucket hash size (moved ++ (first ++ second)) i)) :
    ∀ i, Quiet stamp now (bucket hash size (moved ++ first) i) := by
  intro i
  refine quiet_prefix stamp now _ (bucket hash size second i) ?_
  rw [← bucket_append, List.append_assoc]
  exact quiet i

/-- Entries that are told apart by their keys and by their addresses. -/
structure Distinct (blocks : List (Block Key Value)) : Prop where
  pointers : (pointers blocks).Nodup
  keys : (blocks.map fun block => block.2.key).Nodup

theorem Distinct.first {front back : List (Block Key Value)} (distinct : Distinct (front ++ back)) :
    Distinct front where
  pointers := (List.sublist_append_left ..).map _ |>.nodup distinct.pointers
  keys := (List.sublist_append_left ..).map _ |>.nodup distinct.keys

theorem Distinct.away {front back : List (Block Key Value)} (distinct : Distinct (front ++ back)) :
    ∀ q ∈ LinkedChain.pointers back, q ∉ LinkedChain.pointers front := by
  intro q member wrong
  have parts := distinct.pointers
  rw [pointers_append] at parts
  exact (List.nodup_append.mp parts).2.2 q wrong q member rfl

theorem Distinct.next {front back : List (Block Key Value)} {block : Block Key Value}
    (distinct : Distinct (front ++ block :: back)) :
    block.1 ∉ LinkedChain.pointers front ∧ ∀ earlier ∈ front, earlier.2.key ≠ block.2.key := by
  refine ⟨distinct.away block.1 (by simp), fun earlier member same => ?_⟩
  have keys := distinct.keys
  rw [List.map_append] at keys
  exact (List.nodup_append.mp keys).2.2 _ (List.mem_map_of_mem member) block.2.key (by simp) same

def entries (table : HashTable Key Value) (chains : Nat → List (Block Key Value)) :
    List (Block Key Value) :=
  (List.range table.arraySize).flatMap chains

theorem entries_distinct {chains : Nat → List (Block Key Value)}
    (stored : Stored hash table chains) :
    Distinct (entries table chains) := by
  have below : ∀ {i}, i ∈ List.range table.arraySize → i < table.arraySize := List.mem_range.mp
  have keys : ((entries table chains).map fun block => block.2.key).Nodup := by
    rw [entries, List.map_flatMap]
    refine List.nodup_flatMap.mpr ⟨fun i member => stored.unique i (below member), ?_⟩
    refine List.Pairwise.imp_of_mem ?_ List.nodup_range
    intro i j first second other key here there
    obtain ⟨left, member, rfl⟩ := List.mem_map.mp here
    obtain ⟨right, member', same⟩ := List.mem_map.mp there
    have same' : right.2.key = left.2.key := same
    exact other ((stored.placed i (below first) left member).symm.trans
      (same' ▸ stored.placed j (below second) right member'))
  refine ⟨List.Nodup.map_on (fun left here right there same => ?_) (List.Nodup.of_map _ keys), keys⟩
  obtain ⟨i, first, member⟩ := List.mem_flatMap.mp here
  obtain ⟨j, second, member'⟩ := List.mem_flatMap.mp there
  exact same_place stored (below first) (below second) member member' same

theorem crossings_double {chains : Nat → List (Block Key Value)}
    (stored : Stored hash table chains) :
    crossings hash (table.arraySize * 2) [] (entries table chains) ≤
      ∑ i ∈ Finset.range table.arraySize, (((chains i).length - 1 : Nat) : Int) := by
  -- in a table of twice the size the first entry of each chain finds no other
  have upTo : ∀ n ≤ table.arraySize,
      crossings hash (table.arraySize * 2) [] ((List.range n).flatMap chains) ≤
      ∑ i ∈ Finset.range n, (((chains i).length - 1 : Nat) : Int) := by
    intro n
    induction n with
    | zero => exact fun _ => Int.le_refl 0
    | succ n ih =>
        intro below
        rw [List.range_succ, List.flatMap_append, List.flatMap_singleton, crossings_append,
          Finset.sum_range_succ]
        refine Int.add_le_add (ih (Nat.le_of_succ_le below)) ?_
        cases chain : chains n with
        | nil => exact Int.le_refl 0
        | cons block rest =>
            have own := stored.placed n below block (by simp [chain])
            have alone : bucket hash (table.arraySize * 2) ([] ++ (List.range n).flatMap chains)
                (hash block.2.key % (table.arraySize * 2)) = [] := by
              refine List.filter_eq_nil_iff.mpr fun earlier member same => ?_
              obtain ⟨i, less, inside⟩ := List.mem_flatMap.mp member
              have other := stored.placed i ((List.mem_range.mp less).trans below) earlier inside
              have both := congrArg (· % table.arraySize) (of_decide_eq_true same)
              simp only [Nat.mod_mul_right_mod] at both
              rw [htIndex] at own other
              exact Nat.ne_of_lt (List.mem_range.mp less) (other.symm.trans (both.trans own))
            have rest := crossings_le hash (table.arraySize * 2)
                ([] ++ (List.range n).flatMap chains ++ [block]) rest
            rw [crossings, crosses, if_pos alone, List.length_cons, Nat.add_sub_cancel,
              Int.zero_add]
            exact rest
  exact upTo _ (Nat.le_refl _)

theorem bucket_entries {chains : Nat → List (Block Key Value)} (stored : Stored hash table chains)
    (positive : 0 < table.arraySize) (i : Nat) :
    bucket hash (table.arraySize * 2) (entries table chains) i =
      bucket hash (table.arraySize * 2) (chains (i % table.arraySize)) i := by
  -- the entries for a bucket of the larger table all come from one chain
  have others : ∀ j < table.arraySize, j ≠ i % table.arraySize →
      bucket hash (table.arraySize * 2) (chains j) i = [] := by
    intro j below other
    refine List.filter_eq_nil_iff.mpr fun block member same => other ?_
    have both := congrArg (· % table.arraySize) (of_decide_eq_true same)
    simp only [Nat.mod_mul_right_mod] at both
    exact (stored.placed j below block member).symm.trans both
  have upTo : ∀ n ≤ table.arraySize,
      bucket hash (table.arraySize * 2) ((List.range n).flatMap chains) i =
      if i % table.arraySize < n then
          bucket hash (table.arraySize * 2) (chains (i % table.arraySize)) i else [] := by
    intro n
    induction n with
    | zero => exact fun _ => rfl
    | succ n ih =>
        intro below
        rw [List.range_succ, List.flatMap_append, List.flatMap_singleton, bucket_append,
          ih (Nat.le_of_succ_le below)]
        rcases Nat.lt_trichotomy (i % table.arraySize) n with less | same | more
        · rw [if_pos less, if_pos (Nat.lt_succ_of_lt less), others n below (Nat.ne_of_gt less),
            List.append_nil]
        · rw [if_neg (Nat.not_lt.mpr same.ge), if_pos (same ▸ Nat.lt_succ_self _), List.nil_append,
            same]
        · rw [if_neg (Nat.not_lt.mpr more.le), if_neg (Nat.not_lt.mpr more),
            others n below (Nat.ne_of_lt more), List.append_nil]
  rw [entries, upTo _ (Nat.le_refl _), if_pos (Nat.mod_lt _ positive)]

theorem moved_init {chains : Nat → List (Block Key Value)} (stored : Stored hash table chains)
    (size : Nat) :
    Moved hash stamp now size [] (htInit size table.heap : HashTable Key Value) := by
  refine ⟨fun i block wrong => (nomatch wrong), rfl,
    ⟨stored.null, fun _ _ => rfl, fun i _ block wrong => (nomatch wrong),
    fun _ _ => List.nodup_nil⟩, ?_, ?_⟩
  · simp [htInit, gathered, bucket]
  · simp [htInit, gathered, bucket]

variable (hash stamp now) in
theorem gathered_listed (size : Nat) (moved : List (Block Key Value)) (i : Nat) :
    gathered stamp now (bucket hash size moved i) ⊆ moved := fun _ inside =>
  List.filter_sublist.subset (gathered_subset stamp now _ inside)

variable (hash stamp now) in
theorem gathered_away (size : Nat) (moved : List (Block Key Value)) (p : Ptr)
    (apart : p ∉ pointers moved) (i : Nat) :
    p ∉ pointers (gathered stamp now (bucket hash size moved i)) := fun member =>
  apart (List.map_subset _ (gathered_listed hash stamp now size moved i) member)

variable [DecidableEq Key]

theorem insert_light {chains : Nat → List (Block Key Value)} (stored : Stored hash table chains)
    (positive : 0 < table.arraySize) (fuel : Nat) {entry : Ptr} {data : HashEntry Key Value}
    {link : Ptr} (live : table.heap entry = some ⟨data, link⟩)
    (outside : entry ∉ pointers (chains (htIndex hash table data.key)))
    (room : 20 * (table.collisions +
      collided stamp now data.key (chains (htIndex hash table data.key))) ≤ table.arraySize) :
    (∀ after, htInsertHe hash stamp now fuel table entry = some after →
      Walkable stamp now data.key (chains (htIndex hash table data.key)) ∧
      Placed stamp now table (htIndex hash table data.key) entry data
        (chains (htIndex hash table data.key)) after) ∧
    (Walkable stamp now data.key (chains (htIndex hash table data.key)) →
      (chains (htIndex hash table data.key)).length + 1 < fuel →
        (htInsertHe hash stamp now fuel table entry).isSome) := by
  -- an insertion that leaves the load below its bound
  cases fuel with
  | zero =>
      exact ⟨fun after wrong => (nomatch wrong), fun _ wrong => absurd wrong (Nat.not_lt_zero _)⟩
  | succ fuel =>
      have inside := index_lt hash positive data.key
      obtain ⟨runs, total⟩ := place_leaves hash stamp now table _ fuel entry data link
          (stored.chain _ inside)
        (chain_distinct stored inside) (stored.unique _ inside) stored.null live outside
      have calm : ∀ out, place hash stamp now fuel table entry = some out →
          tooFull out.1 = false := by
        intro out ended
        obtain ⟨_, placed, _⟩ := runs out ended
        rw [tooFull, placed.size, placed.collided]
        exact decide_eq_false (by omega)
      have ending : htInsertHe hash stamp now (fuel + 1) table entry =
          (place hash stamp now fuel table entry).map Prod.fst := by
        rw [htInsertHe]
        cases ended : place hash stamp now fuel table entry with
        | none => rfl
        | some out =>
            simp only [Option.bind_eq_bind, Option.bind_some, calm out ended, Bool.and_false,
              Bool.false_eq_true, if_false]
            rfl
      rw [ending]
      refine ⟨fun after ended => ?_, fun walkable enough => ?_⟩
      · obtain ⟨out, placed, rfl⟩ := Option.map_eq_some_iff.mp ended
        exact ⟨(runs out placed).1, (runs out placed).2.1⟩
      · rw [Option.isSome_map]
        exact total walkable (Nat.lt_of_succ_lt_succ enough)

variable (hash stamp now) in
theorem collided_crosses (size : Nat) (moved : List (Block Key Value)) (block : Block Key Value) :
    collided stamp now block.2.key
      (gathered stamp now (bucket hash size moved (hash block.2.key % size))) ≤
      crosses hash size moved block := by
  rw [collided, crosses]
  by_cases empty : bucket hash size moved (hash block.2.key % size) = []
  · have none : fresh stamp now
        (gathered stamp now (bucket hash size moved (hash block.2.key % size))) = [] := by
      rw [empty]
      rfl
    rw [if_pos empty, if_pos (Or.inr none)]
  · rw [if_neg empty]
    split <;> decide

theorem move_placed (moving : Moved hash stamp now size moved table) (positive : 0 < size)
    (fuel : Nat) {block : Block Key Value} {link : Ptr}
    (live : table.heap block.1 = some ⟨block.2, link⟩) (apart : block.1 ∉ pointers moved)
    (room : 20 * (table.collisions + crosses hash size moved block) ≤ size) :
    (∀ after, htInsertHe hash stamp now fuel table block.1 = some after →
      Walkable stamp now block.2.key
        (gathered stamp now (bucket hash size moved (htIndex hash table block.2.key))) ∧
      Placed stamp now table (htIndex hash table block.2.key) block.1 block.2
        (gathered stamp now (bucket hash size moved (htIndex hash table block.2.key))) after) ∧
    (Walkable stamp now block.2.key
      (gathered stamp now (bucket hash size moved (htIndex hash table block.2.key))) →
      (gathered stamp now (bucket hash size moved (htIndex hash table block.2.key))).length + 1 <
        fuel →
      (htInsertHe hash stamp now fuel table block.1).isSome) := by
  -- an insertion into the new table leads to no further growing
  have cost : collided stamp now block.2.key
      (gathered stamp now (bucket hash size moved (hash block.2.key % size))) ≤
      crosses hash size moved block := collided_crosses hash stamp now size moved block
  have index : htIndex hash table block.2.key =
      hash block.2.key % size := by rw [htIndex, moving.sized]
  have light : 20 * (table.collisions + collided stamp now block.2.key
      (gathered stamp now (bucket hash size moved (htIndex hash table block.2.key)))) ≤
          table.arraySize := by
    rw [index, moving.sized]
    omega
  exact insert_light moving.stored (moving.sized ▸ positive) fuel live
    (gathered_away hash stamp now size moved _ apart _) light

variable (hash stamp now) in
theorem gathered_putIn (table : HashTable Key Value) (sized : table.arraySize = size)
    (block : Block Key Value) (unknown : ∀ earlier ∈ moved, earlier.2.key ≠ block.2.key) :
    (fun i => gathered stamp now (bucket hash size (moved ++ [block]) i)) =
      Function.update (fun i => gathered stamp now (bucket hash size moved i))
        (htIndex hash table block.2.key)
        (putIn stamp now block.1 block.2
          (gathered stamp now (bucket hash size moved (htIndex hash table block.2.key)))) := by
  have index : htIndex hash table block.2.key = hash block.2.key % size := by rw [htIndex, sized]
  have missing : known stamp now block.2.key
      (gathered stamp now (bucket hash size moved (hash block.2.key % size))) = false := by
    refine List.any_eq_false.mpr fun earlier member => ?_
    simpa using unknown earlier
      (gathered_listed hash stamp now size moved _ ((mem_fresh stamp now _ earlier).mp member).1)
  have added : putIn stamp now block.1 block.2
      (gathered stamp now (bucket hash size moved (hash block.2.key % size))) =
      fresh stamp now (gathered stamp now (bucket hash size moved (hash block.2.key % size))) ++
          [block] :=
    if_neg (by rw [missing]; exact Bool.false_ne_true)
  rw [index, added]
  exact bucket_one size moved block

theorem move_one (moving : Moved hash stamp now size moved table) (positive : 0 < size) (fuel : Nat)
    {block : Block Key Value} {link : Ptr} (live : table.heap block.1 = some ⟨block.2, link⟩)
    (apart : block.1 ∉ pointers moved) (unknown : ∀ earlier ∈ moved, earlier.2.key ≠ block.2.key)
    (room : 20 * (table.collisions + crosses hash size moved block) ≤ size) :
    (∀ after, htInsertHe hash stamp now fuel table block.1 = some after →
      Moves hash stamp now size moved [block] table after) ∧
    ((∀ i, Quiet stamp now (bucket hash size (moved ++ [block]) i)) → moved.length + 1 < fuel →
      (htInsertHe hash stamp now fuel table block.1).isSome) := by
  have index : htIndex hash table block.2.key =
      hash block.2.key % size := by rw [htIndex, moving.sized]
  have outside := gathered_away hash stamp now size moved block.1 apart
  have others : ∀ earlier ∈ bucket hash size moved (hash block.2.key % size), earlier.2.key ≠
      block.2.key :=
    fun earlier member => unknown earlier (List.filter_sublist.subset member)
  have walkable := walkable_gathered stamp now _ block (moving.quiet _) others
  have positive' : 0 < table.arraySize := by rwa [moving.sized]
  obtain ⟨runs, total⟩ := move_placed moving positive fuel live apart room
  have own : ∀ i, hash block.2.key % size ≠ i →
      bucket hash size (moved ++ [block]) i = bucket hash size moved i := by
    intro i other
    rw [bucket_append]
    simp [bucket, other]
  have here : bucket hash size (moved ++ [block]) (hash block.2.key % size) =
      bucket hash size moved (hash block.2.key % size) ++ [block] := by
    rw [bucket_append]
    simp [bucket]
  refine ⟨fun after ended => ?_, fun quiet enough => ?_⟩
  · obtain ⟨walks, placed⟩ := runs after ended
    simp only [index] at walks
    have quiet : ∀ i, Quiet stamp now (bucket hash size (moved ++ [block]) i) := by
      intro i
      by_cases same : hash block.2.key % size = i
      · rw [← same, here]
        exact walkable.mp walks
      · rw [own i same]
        exact moving.quiet i
    have same := gathered_putIn hash stamp now table moving.sized block unknown
    have each : ∀ i, gathered stamp now (bucket hash size (moved ++ [block]) i) =
        Function.update (fun i => gathered stamp now (bucket hash size moved i))
          (htIndex hash table block.2.key)
          (putIn stamp now block.1 block.2
              (gathered stamp now (bucket hash size moved (htIndex hash table block.2.key)))) i :=
      congrFun same
    refine ⟨⟨quiet, placed.size.trans moving.sized, ?_, ?_, ?_⟩, fun q away => placed.frame
      q fun member => away ?_, ?_⟩
    · rw [same]
      exact stored_insert moving.stored positive' (by simp [live]) (fun i _ => outside i) placed
    · simp only [each]
      exact counted_insert positive' moving.counted placed
    · simp only [each]
      exact collided_insert positive' moving.spare placed
    · rw [pointers_append]
      rcases List.mem_cons.mp member with rfl | within
      · exact List.mem_append_right _ (List.mem_singleton_self _)
      · exact List.mem_append_left
          _ (List.map_subset _ (gathered_listed hash stamp now size moved _) within)
    · have fewer := placed.collided
      have cost := collided_crosses hash stamp now size moved block
      simp only [index] at fewer
      simp only [crossings]
      omega
  · simp only [index] at total
    refine total (walkable.mpr (here ▸ quiet _)) (Nat.lt_of_le_of_lt (Nat.succ_le_succ ?_) enough)
    exact (length_gathered stamp now _).trans (List.length_filter_le ..)

theorem move_chain (rest : List (Block Key Value)) (moving : Moved hash stamp now size moved table)
    (positive : 0 < size) (inner fuel : Nat) (p : Ptr) (linked : Chain table.heap p rest)
    (distinct : Distinct (moved ++ rest))
    (room : 20 * (table.collisions + crossings hash size moved rest) ≤ size) :
    (∀ after, moveChain (htInsertHe hash stamp now inner) fuel table p = some after →
      Moves hash stamp now size moved rest table after) ∧
    ((∀ i, Quiet stamp now (bucket hash size (moved ++ rest) i)) →
      (moved ++ rest).length + 1 < inner → rest.length < fuel →
      (moveChain (htInsertHe hash stamp now inner) fuel table p).isSome) := by
  -- the rest of a chain is put into the new table
  induction rest generalizing moved table fuel p with
  | nil =>
      cases fuel with
      | zero =>
          exact ⟨fun after wrong => (nomatch wrong), fun _ _ wrong => absurd wrong
            (Nat.not_lt_zero _)⟩
      | succ fuel =>
          have null : p = 0 := linked
          rw [moveChain, if_pos null]
          refine ⟨fun after ended => ?_, fun _ _ _ => rfl⟩
          cases ended
          exact ⟨(List.append_nil moved).symm ▸ moving, fun _ _ => rfl, by simp [crossings]⟩
  | cons block rest ih =>
      cases fuel with
      | zero =>
          exact ⟨fun after wrong => (nomatch wrong), fun _ _ wrong => absurd wrong
            (Nat.not_lt_zero _)⟩
      | succ fuel =>
          obtain ⟨rfl, nonnull, next, live, along⟩ := linked
          have split : moved ++ block :: rest = moved ++ [block] ++ rest := by simp
          have later := crossings_nonneg hash size (moved ++ [block]) rest
          rw [crossings] at room
          obtain ⟨apart, unknown⟩ := distinct.next
          obtain ⟨runs, total⟩ := move_one moving positive inner live apart unknown (by omega)
          rw [moveChain, if_neg nonnull, live]
          simp only [Option.bind_eq_bind, Option.bind_some]
          -- what the rest of the chain finds
          have onward : ∀ middle, Moves hash stamp now size moved [block] table middle →
              (∀ after, moveChain (htInsertHe hash stamp now inner) fuel middle next = some after →
                Moves hash stamp now size (moved ++ [block]) rest middle after) ∧
              ((∀ i, Quiet stamp now (bucket hash size (moved ++ [block] ++ rest) i)) →
                (moved ++ [block] ++ rest).length + 1 < inner → rest.length < fuel →
                (moveChain (htInsertHe hash stamp now inner) fuel middle next).isSome) := by
            intro middle moves
            rw [split] at distinct
            have light := moves.light
            simp only [crossings] at light
            exact ih moves.all fuel next
              (along.frame fun q member => moves.frame q (distinct.away q member)) distinct
              (by omega)
          refine ⟨fun after ended => ?_, fun quiet enough short => ?_⟩
          · obtain ⟨middle, inserted, moves⟩ := Option.bind_eq_some_iff.mp ended
            exact (runs middle inserted).then ((onward middle (runs middle inserted)).1 after moves)
          · rw [split] at enough
            have sooner := quiet_first [block] rest quiet
            have small : moved.length + 1 < inner := by
              simp only [List.length_append] at enough
              omega
            obtain ⟨middle, inserted⟩ := Option.isSome_iff_exists.mp (total sooner small)
            rw [inserted, Option.bind_some]
            exact (onward middle (runs middle inserted)).2 (split ▸ quiet) enough
              (Nat.lt_of_succ_lt_succ short)

theorem move_chains (chains : Nat → List (Block Key Value)) (heads : Nat → Ptr) (indices : List Nat)
    (moving : Moved hash stamp now size moved table) (positive : 0 < size) (inner fuel : Nat)
    (linked : ∀ i ∈ indices, Chain table.heap (heads i) (chains i))
    (distinct : Distinct (moved ++ indices.flatMap chains))
    (room : 20 * (table.collisions + crossings hash size moved (indices.flatMap chains)) ≤ size) :
    (∀ after, indices.foldlM
      (fun newTable i => moveChain (htInsertHe hash stamp now inner) fuel newTable (heads i))
      table =
      some after → Moves hash stamp now size moved (indices.flatMap chains) table after) ∧
    ((∀ i, Quiet stamp now (bucket hash size (moved ++ indices.flatMap chains) i)) →
      (moved ++ indices.flatMap chains).length + 1 < inner →
        (moved ++ indices.flatMap chains).length < fuel →
      (indices.foldlM (fun newTable i => moveChain (htInsertHe hash stamp now inner) fuel newTable
        (heads i)) table).isSome) := by
  -- chain after chain is put into the new table
  induction indices generalizing moved table with
  | nil =>
      refine ⟨fun after ended => ?_, fun _ _ _ => rfl⟩
      cases ended
      exact ⟨by simpa using moving, fun _ _ => rfl, by simp [crossings]⟩
  | cons i indices ih =>
      rw [List.flatMap_cons] at distinct room ⊢
      rw [crossings_append] at room
      have split : moved ++ (chains i ++ indices.flatMap chains) = moved ++ chains i ++
          indices.flatMap chains :=
        (List.append_assoc ..).symm
      have later := crossings_nonneg hash size (moved ++ chains i) (indices.flatMap chains)
      rw [split] at distinct
      obtain ⟨runs, total⟩ := move_chain (chains i) moving positive inner fuel (heads i)
          (linked i List.mem_cons_self)
        distinct.first (by omega)
      rw [List.foldlM_cons]
      have onward : ∀ middle, Moves hash stamp now size moved (chains i) table middle →
          (∀ after, indices.foldlM
            (fun newTable i => moveChain (htInsertHe hash stamp now inner) fuel newTable (heads i))
            middle = some after → Moves hash stamp now size (moved ++ chains i)
              (indices.flatMap chains) middle after) ∧
          ((∀ j, Quiet stamp now (bucket hash size (moved ++ chains i ++ indices.flatMap chains)
            j)) →
            (moved ++ chains i ++ indices.flatMap chains).length + 1 < inner →
            (moved ++ chains i ++ indices.flatMap chains).length < fuel →
            (indices.foldlM (fun newTable i => moveChain (htInsertHe hash stamp now inner) fuel
              newTable (heads i))
              middle).isSome) := by
        intro middle moves
        have light := moves.light
        refine ih moves.all (fun j member => (linked j (List.mem_cons_of_mem _ member)).frame fun q
          within => moves.frame q ?_)
          distinct (by omega)
        refine distinct.away q (List.map_subset _ (fun block inside => ?_) within)
        exact List.mem_flatMap.mpr ⟨j, member, inside⟩
      refine ⟨fun after ended => ?_, fun quiet enough short => ?_⟩
      · obtain ⟨middle, first, second⟩ := Option.bind_eq_some_iff.mp ended
        exact (runs middle first).then ((onward middle (runs middle first)).1 after second)
      · rw [split] at enough short
        have front : (moved ++ chains i).length ≤
            (moved ++ chains i ++ indices.flatMap chains).length :=
          (List.sublist_append_left ..).length_le
        have part : (chains i).length ≤ (moved ++ chains i).length :=
          (List.sublist_append_right ..).length_le
        obtain ⟨middle, first⟩ := Option.isSome_iff_exists.mp
          (total (quiet_first (chains i) _ quiet) (by omega) (by omega))
        rw [first]
        exact (onward middle (runs middle first)).2 (split ▸ quiet) enough short

theorem resize_moved {chains : Nat → List (Block Key Value)} (stored : Stored hash table chains)
    (positive : 0 < size) (inner fuel : Nat)
    (room : 20 * crossings hash size [] (entries table chains) ≤ size) :
    (∀ after, htResize (htInsertHe hash stamp now inner) fuel table size = some after →
      Moved hash stamp now size (entries table chains) after ∧ 20 * after.collisions ≤ size) ∧
    ((∀ i, Quiet stamp now (bucket hash size (entries table chains) i)) →
      (entries table chains).length + 1 < inner →
      (entries table chains).length < fuel →
        (htResize (htInsertHe hash stamp now inner) fuel table size).isSome) := by
  have empty : Moved hash stamp now size [] (htInit size table.heap : HashTable Key Value) :=
    moved_init stored size
  have start : (htInit size table.heap : HashTable Key Value).collisions = 0 := rfl
  obtain ⟨runs, total⟩ := move_chains chains table.array (List.range table.arraySize) empty positive
      inner fuel
    (fun i member => stored.chain i (List.mem_range.mp member)) (entries_distinct stored)
      (by rw [start, Int.zero_add]; exact room)
  refine ⟨fun after ended => ?_, total⟩
  have moves := runs after ended
  have light := moves.light
  rw [start, Int.zero_add] at light
  exact ⟨moves.all, (Int.mul_le_mul_of_nonneg_left light (by decide)).trans room⟩

end

end LazyAS.AgingResize

import LazyAS.AgingHash

/-! The walk of an insertion down its chain. It comes to its end exactly if, from the first entry
that has not timed out, no two timed out ones follow each other: behind the first of the two `prev`
is the second one, which is destroyed next. What it leaves is told for the chain as a list. -/
namespace LazyAS.AgingWalk
open LinkedChain AgingHash

section
variable {Key Value : Type} (stamp : Value → Int) (now : Int)

/-- Whether the walk survives an entry and what follows; `gap` says that the entry in front was
destroyed. -/
def Survives (gap : Bool) : List (Block Key Value) → Prop
  | [] => True
  | block :: rest =>
      if timedOut stamp now block.2.value then gap = false ∧
        Survives true rest else Survives false rest

/-- Whether `prev` is the last entry in the end, and not a null pointer. -/
def endsAtLast (gap : Bool) : List (Block Key Value) → Bool
  | [] => !gap
  | block :: rest => endsAtLast (timedOut stamp now block.2.value) rest

def hit [DecidableEq Key] (key : Key) (chain : List (Block Key Value)) (findRet : Ptr) : Ptr :=
  chain.foldl (fun found block =>
    if timedOut stamp now block.2.value = false ∧ block.2.key = key then block.1 else found) findRet

def timedOuts (chain : List (Block Key Value)) : Nat :=
  chain.countP fun block => timedOut stamp now block.2.value

def lastPtr (chain : List (Block Key Value)) : Ptr := (chain.getLast?.map Prod.fst).getD 0

/-- What the walk leaves: the chain without some entries, and nothing else changed. -/
structure Leaves (table : HashTable Key Value) (index : Nat) (kept : List (Block Key Value))
    (touched : List Ptr) (removed inner : Int) (after : HashTable Key Value) : Prop where
  size : after.arraySize = table.arraySize
  others : ∀ j, j ≠ index → after.array j = table.array j
  linked : Chain after.heap (after.array index) kept
  frame : ∀ q, q ∉ touched → after.heap q = table.heap q
  counted : after.keyCount = table.keyCount - removed
  collided : after.collisions = table.collisions - inner

theorem fresh_cons (block : Block Key Value) (rest : List (Block Key Value)) :
    fresh stamp now (block :: rest) =
    if timedOut stamp now block.2.value then fresh stamp now rest
      else block :: fresh stamp now rest := by
  by_cases old : timedOut stamp now block.2.value <;> simp [fresh, old]

theorem timedOuts_cons (block : Block Key Value) (rest : List (Block Key Value)) :
    timedOuts stamp now (block :: rest) =
    timedOuts stamp now rest + if timedOut stamp now block.2.value then 1 else 0 := by
  simp only [timedOuts, List.countP_cons]

theorem hit_cons [DecidableEq Key] (key : Key) (block : Block Key Value)
    (rest : List (Block Key Value)) (findRet : Ptr) :
    hit stamp now key (block :: rest) findRet = hit stamp now key rest
      (if timedOut stamp now block.2.value = false ∧ block.2.key = key then block.1 else findRet) :=
        rfl

theorem lastPtr_cons (block next : Block Key Value) (rest : List (Block Key Value)) :
    lastPtr (block :: next :: rest) = lastPtr (next :: rest) := by
  rw [lastPtr, lastPtr, List.getLast?_cons_cons]

theorem behind_apart {before rest : List (Block Key Value)} {block entry : Block Key Value}
    (distinct : (pointers (before ++ block :: entry :: rest)).Nodup) :
    entry.1 ∉ pointers (before ++ block :: rest) ∧ (pointers (before ++ block :: rest)).Nodup ∧
      block.1 ∉ pointers (entry :: rest) := by
  have parts : (pointers before ++ [block.1] ++ entry.1 ::
      pointers rest).Nodup := by simpa using distinct
  have swapped := List.nodup_cons.mp (List.perm_middle.nodup_iff.mp parts)
  have onward := (List.nodup_append.mp
      (by simpa using distinct : (pointers before ++ pointers (block :: entry :: rest)).Nodup)).2.1
  exact ⟨by simpa using swapped.1, by simpa using swapped.2, (List.nodup_cons.mp onward).1⟩

theorem unlinkInner_behind (w : Walk Key Value) (index : Nat) (before rest : List (Block Key Value))
    (block entry : Block Key Value) (next : Ptr)
    (linked : Chain w.table.heap (w.table.array index) (before ++ block :: entry :: rest))
    (distinct : (pointers (before ++ block :: entry :: rest)).Nodup)
    (along : Chain w.table.heap next rest)
    (prev : w.prev = block.1) : ∃ after, unlinkInner w entry.1 next = some after ∧
      after.prev = next ∧
      after.findRet = w.findRet ∧ Chain after.table.heap next rest ∧
      Leaves w.table index (before ++ block :: rest) [block.1, entry.1] 1 1 after.table := by
  -- an entry behind one that stays is taken out of the chain
  obtain ⟨entryApart, _, blockApart⟩ := behind_apart distinct
  obtain ⟨link, live⟩ := linked.live block (by simp)
  have other : block.1 ≠ entry.1 := fun same => blockApart (same ▸ List.mem_cons_self)
  have relinked := linked.relink distinct along fun member =>
      blockApart (List.mem_cons_of_mem _ member)
  have found : (destroyed w.table entry.1).heap w.prev = some ⟨block.2, link⟩ := by
    rw [prev]
    exact (Function.update_of_ne other ..).trans live
  have unlinked : unlinkInner w entry.1 next = some { w with
      table := { destroyed w.table entry.1 with
        collisions := w.table.collisions - 1
        heap := Function.update (destroyed w.table entry.1).heap w.prev (some ⟨block.2, next⟩) }
      prev := next } := by
    simp only [unlinkInner, found, Option.map_some]
    rfl
  refine ⟨_, unlinked, rfl, rfl, along.frame fun q member => ?_, rfl, fun _ _ => rfl,
    ?_, fun q outside => ?_, rfl, rfl⟩
  · have first : q ≠ block.1 := fun same => blockApart (List.mem_cons_of_mem _ (same ▸ member))
    have second : q ≠ entry.1 := fun same => entryApart (by simp [← same, member])
    simp only [prev, destroyed]
    rw [Function.update_of_ne first, Function.update_of_ne second]
  · refine relinked.frame fun q member => ?_
    have second : q ≠ entry.1 := fun same => entryApart (same ▸ member)
    simp only [prev, destroyed]
    by_cases first : q = block.1
    · rw [first, Function.update_self, Function.update_self]
    · rw [Function.update_of_ne first, Function.update_of_ne first, Function.update_of_ne second]
  · simp only [List.mem_cons, List.not_mem_nil, or_false, not_or] at outside
    simp only [prev, destroyed]
    rw [Function.update_of_ne outside.1, Function.update_of_ne outside.2]

theorem unlinkInner_gap (w : Walk Key Value) (tmp next : Ptr) (prev : w.prev = tmp) :
    unlinkInner w tmp next = none := by
  simp [unlinkInner, destroyed, prev]

theorem Leaves.then {table middle after : HashTable Key Value} {index : Nat}
    {kept kept' : List (Block Key Value)} {touched touched' : List Ptr}
    {removed removed' inner inner' : Int}
    (first : Leaves table index kept touched removed inner middle)
    (second : Leaves middle index kept' touched' removed' inner' after) (all : List Ptr)
    (covers : touched ⊆ all) (covers' : touched' ⊆ all) :
    Leaves table index kept' all (removed + removed') (inner + inner') after where
  size := second.size.trans first.size
  others := fun j other => (second.others j other).trans (first.others j other)
  linked := second.linked
  frame := fun q outside => (second.frame q fun member => outside (covers' member)).trans
    (first.frame q fun member => outside (covers member))
  counted := by
    rw [second.counted, first.counted]
    omega
  collided := by
    rw [second.collided, first.collided]
    omega

/-- The walk behind an entry that stays. It is an induction on what is still to come, in which the
entry behind which the next one is linked moves along. -/
theorem walk_behind [DecidableEq Key] (key : Key) (index : Nat) (rest : List (Block Key Value))
    (fuel : Nat) (gap : Bool) (w : Walk Key Value) (before : List (Block Key Value))
    (block : Block Key Value) (tmp : Ptr)
    (linked : Chain w.table.heap (w.table.array index) (before ++ block :: rest))
    (distinct : (pointers (before ++ block :: rest)).Nodup) (along : Chain w.table.heap tmp rest)
    (prev : w.prev = if gap then tmp else block.1) :
    (∀ out, walk stamp now key index fuel w tmp = some out → Survives stamp now gap rest ∧
      Leaves w.table index (before ++ block :: fresh stamp now rest) (pointers (block :: rest))
        (timedOuts stamp now rest) (timedOuts stamp now rest) out.table ∧
      out.prev = (if endsAtLast stamp now gap rest then lastPtr (block :: fresh stamp now rest)
        else 0) ∧
      out.findRet = hit stamp now key rest w.findRet) ∧
    (Survives stamp now gap rest → rest.length < fuel →
      (walk stamp now key index fuel w tmp).isSome) := by
  induction rest generalizing fuel gap w before block tmp with
  | nil =>
      cases fuel with
      | zero =>
          exact ⟨fun out wrong => (nomatch wrong), fun _ wrong => absurd wrong (Nat.not_lt_zero _)⟩
      | succ fuel =>
          have null : tmp = 0 := along
          rw [walk, if_pos null]
          refine ⟨fun out ended => ?_, fun _ _ => rfl⟩
          cases ended
          refine ⟨trivial, ⟨rfl, fun _ _ => rfl,
            linked, fun _ _ => rfl, by simp [timedOuts], by simp [timedOuts]⟩, ?_, rfl⟩
          rw [prev, null]
          cases gap <;> rfl
  | cons entry rest ih =>
      cases fuel with
      | zero =>
          exact ⟨fun out wrong => (nomatch wrong), fun _ wrong => absurd wrong (Nat.not_lt_zero _)⟩
      | succ fuel =>
          obtain ⟨rfl, nonnull, next, live, onward⟩ := along
          obtain ⟨entryApart, restDistinct, blockApart⟩ := behind_apart distinct
          rw [walk, if_neg nonnull, live, fresh_cons, timedOuts_cons, hit_cons]
          simp only [Option.bind_eq_bind, Option.bind_some, Survives, endsAtLast]
          by_cases old : timedOut stamp now entry.2.value = true
          · simp only [old, if_true]
            cases gap with
            | true =>
                rw [if_neg (prev ▸ nonnull), unlinkInner_gap w entry.1 next prev]
                exact ⟨fun out wrong => (nomatch wrong), fun wrong => (nomatch wrong.1)⟩
            | false =>
                have blockNonnull := linked.nonnull block (by simp)
                obtain ⟨after, unlinked, link, same, along, leaves⟩ :=
                  unlinkInner_behind w index before rest block entry next linked distinct onward
                    prev
                rw [if_neg (by rw [prev]; exact blockNonnull), unlinked, Option.bind_some]
                obtain ⟨runs, total⟩ := ih fuel true after before block next leaves.linked
                    restDistinct along link
                refine ⟨fun out ended => ?_, fun survives enough => total survives.2
                  (Nat.lt_of_succ_lt_succ enough)⟩
                obtain ⟨survives, rests, last, found⟩ := runs out ended
                refine ⟨⟨rfl, survives⟩, ?_, last, ?_⟩
                · have both := leaves.then rests (pointers (block :: entry :: rest)) (by simp)
                      (by simp)
                  rw [Nat.add_comm]
                  exact both
                · rw [found, same]
                  rfl
          · have new := Bool.eq_false_iff.mpr old
            simp only [new, Bool.false_eq_true, if_false, true_and]
            obtain ⟨runs, total⟩ := ih fuel false { w with
                prev := entry.1, findRet := if entry.2.key = key then entry.1 else w.findRet }
              (before ++ [block]) entry next (by simpa using linked) (by simpa using distinct)
                onward rfl
            refine ⟨fun out ended => ?_, fun survives enough => total survives
              (Nat.lt_of_succ_lt_succ enough)⟩
            obtain ⟨survives, rests, last, found⟩ := runs out ended
            refine ⟨survives, ?_, ?_, found⟩
            · have chain := rests.linked
              exact { rests with
                linked := by simpa using chain
                frame := fun q outside => rests.frame q fun member =>
                  outside (List.mem_cons_of_mem _ member) }
            · rw [last, lastPtr_cons]

theorem fromFresh_cons (block : Block Key Value) (rest : List (Block Key Value)) :
    fromFresh stamp now (block :: rest) =
    if timedOut stamp now block.2.value then fromFresh stamp now rest else block :: rest := by
  rw [fromFresh, List.dropWhile_cons]
  rfl

theorem unlinkHead_leaves (w : Walk Key Value) (index : Nat) (rest : List (Block Key Value))
    (entry : Block Key Value) (next : Ptr) (along : Chain w.table.heap next rest)
    (distinct : (pointers (entry :: rest)).Nodup) :
    Leaves w.table index rest [entry.1] 1 0 (unlinkHead index w entry.1 next).table := by
  refine ⟨rfl, fun j other => Function.update_of_ne other .., ?_, fun q outside => ?_,
    rfl, by simp [unlinkHead, destroyed]⟩
  · have start : (unlinkHead index w entry.1 next).table.array index = next :=
      Function.update_self ..
    rw [start]
    refine along.frame fun q member => ?_
    have other : q ≠ entry.1 := fun same => (List.nodup_cons.mp distinct).1 (same ▸ member)
    exact Function.update_of_ne other ..
  · exact Function.update_of_ne (fun same => outside (List.mem_singleton.mpr same)) ..

theorem walk_chain [DecidableEq Key] (key : Key) (index : Nat) (chain : List (Block Key Value))
    (fuel : Nat) (w : Walk Key Value) (linked : Chain w.table.heap (w.table.array index) chain)
    (distinct : (pointers chain).Nodup) (prev : w.prev = 0) :
    (∀ out, walk stamp now key index fuel w (w.table.array index) = some out →
      Survives stamp now false (fromFresh stamp now chain) ∧
      Leaves w.table index (fresh stamp now chain) (pointers chain) (timedOuts stamp now chain)
        (timedOuts stamp now (fromFresh stamp now chain)) out.table ∧
      out.prev = (if endsAtLast stamp now false (fromFresh stamp now chain) then
        lastPtr (fresh stamp now chain) else 0) ∧
      out.findRet = hit stamp now key chain w.findRet) ∧
    (Survives stamp now false (fromFresh stamp now chain) → chain.length < fuel →
      (walk stamp now key index fuel w (w.table.array index)).isSome) := by
  induction chain generalizing fuel w with
  | nil =>
      cases fuel with
      | zero =>
          exact ⟨fun out wrong => (nomatch wrong), fun _ wrong => absurd wrong (Nat.not_lt_zero _)⟩
      | succ fuel =>
          have null : w.table.array index = 0 := linked
          rw [walk, if_pos null]
          refine ⟨fun out ended => ?_, fun _ _ => rfl⟩
          cases ended
          exact ⟨trivial, ⟨rfl, fun _ _ => rfl,
            linked, fun _ _ => rfl, by simp [timedOuts], by simp [timedOuts, fromFresh]⟩,
            prev, rfl⟩
  | cons entry rest ih =>
      cases fuel with
      | zero =>
          exact ⟨fun out wrong => (nomatch wrong), fun _ wrong => absurd wrong (Nat.not_lt_zero _)⟩
      | succ fuel =>
          obtain ⟨here, nonnull, next, live, onward⟩ := linked
          rw [walk, if_neg nonnull, live, fromFresh_cons, fresh_cons, timedOuts_cons, hit_cons]
          simp only [Option.bind_eq_bind, Option.bind_some]
          by_cases old : timedOut stamp now entry.2.value = true
          · simp only [old, if_true]
            rw [if_pos prev, here]
            have leaves := unlinkHead_leaves w index rest entry next onward distinct
            have start : (unlinkHead index w entry.1 next).table.array index = next :=
              Function.update_self ..
            obtain ⟨runs, total⟩ := ih fuel (unlinkHead index w entry.1 next) leaves.linked
                (List.nodup_cons.mp distinct).2 prev
            rw [start] at runs total
            refine ⟨fun out ended => ?_, fun survives enough => total survives
              (Nat.lt_of_succ_lt_succ enough)⟩
            obtain ⟨survives, rests, last, found⟩ := runs out ended
            refine ⟨survives, ?_, last, found⟩
            have both := leaves.then rests (pointers (entry :: rest)) (by simp) (by simp)
            rw [Int.zero_add] at both
            rw [Nat.add_comm]
            exact both
          · have new := Bool.eq_false_iff.mpr old
            simp only [new, Bool.false_eq_true, if_false, true_and]
            have whole : Chain w.table.heap (w.table.array index) ([] ++ entry :: rest) :=
              ⟨here, nonnull, next, live, onward⟩
            obtain ⟨runs, total⟩ := walk_behind stamp now key index rest fuel false { w with
                prev := entry.1, findRet := if entry.2.key = key then entry.1 else w.findRet }
              [] entry next whole distinct onward rfl
            rw [here]
            simp only [Survives, endsAtLast, new, Bool.false_eq_true, if_false]
            refine ⟨fun out ended => ?_, fun survives enough => total survives
              (Nat.lt_of_succ_lt_succ enough)⟩
            obtain ⟨survives, rests, last, found⟩ := runs out ended
            refine ⟨survives, ?_, last, found⟩
            rw [timedOuts_cons, if_neg (by rw [new]; exact Bool.false_ne_true)]
            exact rests

/-! The same conditions without the walk. -/

theorem apart_cons (block : Block Key Value) (rest : List (Block Key Value)) :
    Apart stamp now (block :: rest) ↔
    (∀ next ∈ rest.head?, ¬ (timedOut stamp now block.2.value = true ∧
      timedOut stamp now next.2.value = true)) ∧
      Apart stamp now rest := List.isChain_cons

theorem survives_iff (gap : Bool) (chain : List (Block Key Value)) : Survives stamp now gap chain ↔
    Apart stamp now chain ∧
      (gap = true → ∀ block ∈ chain.head?, timedOut stamp now block.2.value = false) := by
  induction chain generalizing gap with
  | nil => simp [Survives, Apart]
  | cons block rest ih =>
      rw [Survives, ih, ih, apart_cons]
      by_cases old : timedOut stamp now block.2.value = true
      · simp only [old, if_true, true_and, List.head?_cons, Option.mem_some_iff, forall_eq',
          Bool.true_eq_false, imp_false, Bool.not_eq_true, true_implies]
        exact ⟨fun both => ⟨⟨both.2.2, both.2.1⟩, both.1⟩, fun both => ⟨both.2, both.1.2, both.1.1⟩⟩
      · simp [old]

theorem endsAtLast_iff (gap : Bool) (chain : List (Block Key Value)) :
    endsAtLast stamp now gap chain = true ↔
    (chain = [] → gap = false) ∧ EndsFresh stamp now chain := by
  induction chain generalizing gap with
  | nil => simp [endsAtLast, EndsFresh]
  | cons block rest ih =>
      rw [endsAtLast, ih]
      cases rest with
      | nil => simp [EndsFresh]
      | cons next rest => simp [EndsFresh]

theorem mem_fresh (chain : List (Block Key Value)) (block : Block Key Value) :
    block ∈ fresh stamp now chain ↔ block ∈ chain ∧ timedOut stamp now block.2.value = false := by
  simp [fresh]

theorem hit_unknown [DecidableEq Key] (key : Key) (chain : List (Block Key Value)) (findRet : Ptr)
    (unknown : ∀ block ∈ fresh stamp now chain, block.2.key ≠ key) :
    hit stamp now key chain findRet = findRet := by
  induction chain generalizing findRet with
  | nil => rfl
  | cons block rest ih =>
      have other : ¬ (timedOut stamp now block.2.value = false ∧ block.2.key = key) := fun both =>
        unknown block ((mem_fresh stamp now _ block).mpr ⟨List.mem_cons_self, both.1⟩) both.2
      rw [hit_cons, if_neg other]
      exact ih findRet fun later member => unknown later
        ((mem_fresh stamp now _ later).mpr
          ⟨List.mem_cons_of_mem _ ((mem_fresh stamp now rest later).mp member).1,
          ((mem_fresh stamp now rest later).mp member).2⟩)

theorem hit_known [DecidableEq Key] (chain : List (Block Key Value)) (findRet : Ptr)
    (block : Block Key Value) (member : block ∈ fresh stamp now chain)
    (unique : (chain.map fun block => block.2.key).Nodup) :
    hit stamp now block.2.key chain findRet = block.1 := by
  induction chain generalizing findRet with
  | nil => nomatch member
  | cons first rest ih =>
      obtain ⟨listed, new⟩ := (mem_fresh stamp now _ block).mp member
      obtain ⟨absent, unique⟩ := List.nodup_cons.mp unique
      rw [hit_cons]
      rcases List.mem_cons.mp listed with rfl | later
      · rw [if_pos ⟨new, rfl⟩]
        refine hit_unknown stamp now _ rest block.1 fun other inside same => absent ?_
        exact List.mem_map.mpr ⟨other, ((mem_fresh stamp now rest other).mp inside).1, same⟩
      · exact ih _ ((mem_fresh stamp now rest block).mpr ⟨later, new⟩) unique

end

end LazyAS.AgingWalk

import LazyAS.AgingWalk

/-! One insertion into a table that stores some chains, up to the test of the load: when it comes to
its end and what it makes of the chain of the key. -/
namespace LazyAS.AgingInsert
open LinkedChain AgingHash AgingWalk

section
variable {Key Value : Type}

theorem settle_empty (w : Walk Key Value) (index : Nat) (entry : Ptr) (data : HashEntry Key Value)
    (linked : Chain w.table.heap (w.table.array index) ([] : List (Block Key Value)))
    (found : w.findRet = 0)
    (live : w.table.heap entry = some ⟨data, 0⟩) (nonnull : entry ≠ 0) : ∃ after,
    settle index entry data.value w = some (after, true) ∧
      Leaves w.table index [(entry, data)] [entry] (-1) 0 after := by
  have null : w.table.array index = 0 := linked
  have settled : settle index entry data.value w = some ({ w.table with
      keyCount := w.table.keyCount + 1, array := Function.update w.table.array index entry },
          true) := by
    rw [settle, if_neg (by rw [found]; exact fun wrong => wrong rfl)]
    exact if_pos null
  refine ⟨_, settled, rfl, fun j other => Function.update_of_ne other .., ?_, fun _ _ => rfl, ?_,
    (Int.sub_zero _).symm⟩
  · simp only [Function.update_self]
    exact ⟨rfl, nonnull, 0, live, rfl⟩
  · simp

theorem settle_behind (w : Walk Key Value) (index : Nat) (entry : Ptr) (data : HashEntry Key Value)
    (before : List (Block Key Value)) (last : Block Key Value)
    (linked : Chain w.table.heap (w.table.array index) (before ++ [last]))
    (distinct : (pointers (before ++ [last])).Nodup)
    (found : w.findRet = 0) (live : w.table.heap entry = some ⟨data, 0⟩) (nonnull : entry ≠ 0)
    (outside : entry ∉ pointers (before ++ [last])) (prev : w.prev = last.1) : ∃ after,
    settle index entry data.value w = some (after, true) ∧
      Leaves w.table index (before ++ [last] ++ [(entry, data)]) [last.1] (-1) (-1) after := by
  -- the new entry is linked behind the last one, if `prev` is that
  obtain ⟨next, liveLast⟩ := linked.live last (by simp)
  have start : w.table.array index ≠ 0 := by
    cases before with
    | nil => exact linked.2.1
    | cons first before => exact linked.2.1
  have apart : last.1 ∉ pointers [(entry, data)] := by
    intro member
    have same : last.1 = entry := List.mem_singleton.mp member
    exact outside (same ▸ by simp)
  have along : Chain w.table.heap entry [(entry, data)] := ⟨rfl, nonnull, 0, live, rfl⟩
  have relinked := linked.relink distinct along apart
  have settled : settle index entry data.value w = some ({ w.table with
      keyCount := w.table.keyCount + 1
      collisions := w.table.collisions + 1
      heap := Function.update w.table.heap last.1 (some ⟨last.2, entry⟩) }, true) := by
    rw [settle, if_neg (by rw [found]; exact fun wrong => wrong rfl)]
    dsimp only
    rw [if_neg start, prev, liveLast, Option.map_some]
  refine ⟨_, settled, rfl, fun _ _ =>
    rfl, by simpa using relinked, fun q away => ?_, by simp, by simp⟩
  have other : q ≠ last.1 := fun wrong => away (List.mem_singleton.mpr wrong)
  exact Function.update_of_ne other ..

variable (hash : Key → Nat) (stamp : Value → Int) (now : Int)

theorem fresh_fromFresh (chain : List (Block Key Value)) :
    fresh stamp now (fromFresh stamp now chain) = fresh stamp now chain := by
  induction chain with
  | nil => rfl
  | cons block rest ih =>
      rw [fromFresh_cons, fresh_cons]
      by_cases old : timedOut stamp now block.2.value
      · rw [if_pos old, if_pos old, ih]
      · rw [if_neg old, if_neg old, fresh_cons, if_neg old]

theorem fromFresh_empty (chain : List (Block Key Value)) (none : fresh stamp now chain = []) :
    fromFresh stamp now chain = [] := by
  induction chain with
  | nil => rfl
  | cons block rest ih =>
      rw [fresh_cons] at none
      rw [fromFresh_cons]
      by_cases old : timedOut stamp now block.2.value
      · rw [if_pos old] at none ⊢
        exact ih none
      · rw [if_neg old] at none
        cases none

theorem pointers_fresh (chain : List (Block Key Value)) :
    (pointers (fresh stamp now chain)).Sublist (pointers chain) :=
  List.filter_sublist.map _

variable [DecidableEq Key]

def known (key : Key) (chain : List (Block Key Value)) : Bool :=
  (fresh stamp now chain).any fun block => block.2.key = key

def replaced (data : HashEntry Key Value) (block : Block Key Value) : Block Key Value :=
  if block.2.key = data.key then (block.1, data) else block

def putIn (entry : Ptr) (data : HashEntry Key Value) (chain : List (Block Key Value)) :
    List (Block Key Value) :=
  if known stamp now data.key chain then (fresh stamp now chain).map (replaced data)
  else fresh stamp now chain ++ [(entry, data)]

/-- The walk of an insertion follows no null pointer and no destroyed entry. -/
def Walkable (key : Key) (chain : List (Block Key Value)) : Prop :=
  Apart stamp now (fromFresh stamp now chain) ∧
    (known stamp now key chain = false → EndsFresh stamp now (fromFresh stamp now chain))

def added (key : Key) (chain : List (Block Key Value)) : Int :=
  if known stamp now key chain then 0 else 1

def collided (key : Key) (chain : List (Block Key Value)) : Int :=
  if known stamp now key chain ∨ fresh stamp now chain = [] then 0 else 1

/-- What an insertion leaves of a table when the load is not tested. -/
abbrev Placed (table : HashTable Key Value) (index : Nat) (entry : Ptr) (data : HashEntry Key Value)
    (chain : List (Block Key Value)) (after : HashTable Key Value) : Prop :=
  Leaves table index (putIn stamp now entry data chain) (entry :: pointers chain)
    (timedOuts stamp now chain - added stamp now data.key chain)
    (timedOuts stamp now (fromFresh stamp now chain) - collided stamp now data.key chain) after

theorem map_replaced (data : HashEntry Key Value) (before rest : List (Block Key Value))
    (block : Block Key Value) (same : block.2.key = data.key)
    (unique : ((before ++ block :: rest).map fun block => block.2.key).Nodup) :
    (before ++ block :: rest).map (replaced data) = before ++ (block.1, data) :: rest := by
  have others : ∀ other ∈ before ++ rest, replaced data other = other := by
    intro other member
    refine if_neg fun wrong => ?_
    have moved := (List.perm_middle.map fun block : Block Key Value => block.2.key).nodup_iff.mp
        unique
    exact (List.nodup_cons.mp moved).1 (List.mem_map.mpr ⟨other, member, wrong.trans same.symm⟩)
  rw [List.map_append, List.map_cons]
  have first : before.map (replaced data) = before :=
    (List.map_congr_left fun other member => others other (List.mem_append_left _ member)).trans
      (List.map_id _)
  have last : rest.map (replaced data) = rest :=
    (List.map_congr_left fun other member => others other (List.mem_append_right _ member)).trans
      (List.map_id _)
  rw [first, last, replaced, if_pos same]

theorem settle_known (w : Walk Key Value) (index : Nat) (entry : Ptr) (data : HashEntry Key Value)
    (kept : List (Block Key Value)) (block : Block Key Value)
    (linked : Chain w.table.heap (w.table.array index) kept)
    (unique : (kept.map fun block => block.2.key).Nodup) (distinct : (pointers kept).Nodup)
    (member : block ∈ kept) (same : block.2.key = data.key) (found : w.findRet = block.1)
    (outside : entry ∉ pointers kept) :
    ∃ after, settle index entry data.value w = some (after, false) ∧
      Leaves w.table index (kept.map (replaced data)) (entry :: pointers kept) 0 0 after := by
  -- the entry with the key is set and the new one destroyed
  obtain ⟨before, rest, rfl⟩ := List.append_of_mem member
  obtain ⟨next, live, changed⟩ := linked.rewrite distinct data
  have nonnull := linked.nonnull block member
  have settled : settle index entry data.value w = some ({ w.table with
      heap := Function.update (Function.update w.table.heap block.1 (some ⟨data, next⟩)) entry none
          }, false) := by
    rw [settle, if_pos (by rw [found]; exact nonnull), found, live, Option.map_some]
    simp only [same]
  refine ⟨_, settled, rfl, fun _ _ => rfl, ?_, fun q away => ?_, (Int.sub_zero _).symm,
    (Int.sub_zero _).symm⟩
  · rw [map_replaced data before rest block same unique]
    refine changed.frame fun q member => ?_
    have other : q ≠ entry := by
      rintro rfl
      exact outside (by simpa using member)
    exact Function.update_of_ne other ..
  · obtain ⟨first, second⟩ := not_or.mp fun wrong => away (List.mem_cons.mpr wrong)
    have other : q ≠ block.1 := fun wrong => second (by rw [wrong]; simp)
    exact (Function.update_of_ne first ..).trans (Function.update_of_ne other ..)

theorem unknown_keys (key : Key) (chain : List (Block Key Value))
    (unknown : known stamp now key chain = false) :
    ∀ block ∈ fresh stamp now chain, block.2.key ≠ key := by
  intro block member same
  have found : known stamp now key chain = true :=
    List.any_eq_true.mpr ⟨block, member, decide_eq_true same⟩
  rw [unknown] at found
  exact Bool.false_ne_true found

theorem settle_leaves (table : HashTable Key Value) (index : Nat) (chain : List (Block Key Value))
    (entry : Ptr) (data : HashEntry Key Value) (w : Walk Key Value)
    (walked : Leaves table index (fresh stamp now chain) (entry :: pointers chain)
      (timedOuts stamp now chain)
      (timedOuts stamp now (fromFresh stamp now chain)) w.table)
    (prev : w.prev = if endsAtLast stamp now false (fromFresh stamp now chain) then
      lastPtr (fresh stamp now chain) else 0)
    (found : w.findRet = hit stamp now data.key chain 0)
    (apart : Apart stamp now (fromFresh stamp now chain))
    (distinct : (pointers chain).Nodup) (unique : (chain.map fun block => block.2.key).Nodup)
    (null : w.table.heap 0 = none) (live : w.table.heap entry = some ⟨data, 0⟩)
    (outside : entry ∉ pointers chain) :
    (∀ out, settle index entry data.value w = some out → Walkable stamp now data.key chain ∧
      Placed stamp now table index entry data chain out.1 ∧
        (out.2 = false → collided stamp now data.key chain = 0)) ∧
    (Walkable stamp now data.key chain → (settle index entry data.value w).isSome) := by
  -- what is done after the walk, and when it is done at all
  have nonnull : entry ≠ 0 := by
    rintro rfl
    rw [null] at live
    cases live
  have keptDistinct := (pointers_fresh stamp now chain).nodup distinct
  have keptOutside : entry ∉ pointers (fresh stamp now chain) := fun member =>
    outside ((pointers_fresh stamp now chain).subset member)
  have covers : pointers (fresh stamp now chain) ⊆ entry :: pointers chain := fun q member =>
    List.mem_cons_of_mem _ ((pointers_fresh stamp now chain).subset member)
  -- every case comes down to one way to end
  have ends : ∀ after tested, settle index entry data.value w = some (after, tested) →
      Walkable stamp now data.key chain →
      Placed stamp now table index entry data chain after →
        (tested = false → collided stamp now data.key chain = 0) →
      (∀ out, settle index entry data.value w = some out → Walkable stamp now data.key chain ∧
        Placed stamp now table index entry data chain out.1 ∧
          (out.2 = false → collided stamp now data.key chain = 0)) ∧
      (Walkable stamp now data.key chain → (settle index entry data.value w).isSome) := by
    intro after tested settled walkable placed quiet
    rw [settled]
    refine ⟨fun out same => ?_, fun _ => rfl⟩
    cases same
    exact ⟨walkable, placed, quiet⟩
  cases hits : known stamp now data.key chain with
  | true =>
      obtain ⟨block, member, same⟩ := List.any_eq_true.mp hits
      have hitting := hit_known stamp now chain 0 block member unique
      rw [of_decide_eq_true same, ← found] at hitting
      have keptUnique : ((fresh stamp now chain).map fun block => block.2.key).Nodup :=
        (List.filter_sublist.map _).nodup unique
      obtain ⟨after, settled, leaves⟩ :=
        settle_known w index entry data (fresh stamp now chain) block walked.linked
        keptUnique keptDistinct member (of_decide_eq_true same) hitting keptOutside
      have all := walked.then leaves (entry :: pointers chain) (List.Subset.refl _)
        (List.cons_subset.mpr ⟨List.mem_cons_self, covers⟩)
      have none : collided stamp now data.key chain = 0 := if_pos (Or.inl hits)
      refine ends after false settled ⟨apart, fun wrong => ?_⟩ ?_ fun _ => none
      · rw [hits] at wrong
        cases wrong
      · rw [Placed, putIn, if_pos hits, added, if_pos hits, none]
        exact all
  | false =>
      have missing := found.trans
          (hit_unknown stamp now data.key chain 0 (unknown_keys stamp now data.key chain hits))
      have one : added stamp now data.key chain = 1 :=
        if_neg (by rw [hits]; exact Bool.false_ne_true)
      have behind : putIn stamp now entry data chain = fresh stamp now chain ++ [(entry, data)] :=
        if_neg (by rw [hits]; exact Bool.false_ne_true)
      rcases List.eq_nil_or_concat' (fresh stamp now chain) with empty | ⟨before, last, split⟩
      · rw [empty] at walked
        obtain ⟨after, settled, leaves⟩ :=
          settle_empty w index entry data walked.linked missing live nonnull
        have all := walked.then leaves (entry :: pointers chain) (List.Subset.refl _) (by simp)
        have none : collided stamp now data.key chain = 0 := if_pos (Or.inr empty)
        have rest := fromFresh_empty stamp now chain empty
        refine ends after true settled ⟨apart, fun _ => ?_⟩ ?_ fun wrong => nomatch wrong
        · rw [rest]
          exact fun block wrong => nomatch wrong
        · rw [Placed, behind, empty, one, none]
          exact all
      · have some : fresh stamp now chain ≠ [] := by simp [split]
        have collides : collided stamp now data.key chain = 1 := if_neg (by simp [hits, some])
        have ending := endsAtLast_iff stamp now false (fromFresh stamp now chain)
        rw [split] at walked keptDistinct keptOutside
        by_cases atLast : endsAtLast stamp now false (fromFresh stamp now chain) = true
        · rw [if_pos atLast, split] at prev
          obtain ⟨after, settled, leaves⟩ :=
            settle_behind w index entry data before last walked.linked keptDistinct missing
            live nonnull keptOutside (by simpa [lastPtr] using prev)
          have all := walked.then leaves (entry :: pointers chain) (List.Subset.refl _)
            (by simpa using covers (by simp [split] : last.1 ∈ pointers (fresh stamp now chain)))
          refine ends after true settled ⟨apart, fun _ => (ending.mp atLast).2⟩ ?_ fun wrong =>
            nomatch wrong
          rw [Placed, behind, split, one, collides]
          exact all
        · rw [if_neg atLast] at prev
          have start : w.table.array index ≠ 0 := fun wrong => by
            have chained := walked.linked
            cases before with
            | nil => exact chained.2.1 wrong
            | cons first before => exact chained.2.1 wrong
          have crashed : settle index entry data.value w = none := by
            rw [settle, if_neg (by rw [missing]; exact fun wrong => wrong rfl)]
            dsimp only
            rw [if_neg start, prev, null, Option.map_none]
          rw [crashed]
          exact ⟨fun out wrong => absurd wrong.symm (Option.some_ne_none out), fun walkable =>
            absurd (ending.mpr ⟨fun _ => rfl, walkable.2 hits⟩) atLast⟩

theorem place_leaves (table : HashTable Key Value) (chain : List (Block Key Value)) (fuel : Nat)
    (entry : Ptr) (data : HashEntry Key Value) (link : Ptr)
    (linked : Chain table.heap (table.array (htIndex hash table data.key)) chain)
    (distinct : (pointers chain).Nodup) (unique : (chain.map fun block => block.2.key).Nodup)
    (null : table.heap 0 = none)
    (live : table.heap entry = some ⟨data, link⟩) (outside : entry ∉ pointers chain) :
    (∀ out, place hash stamp now fuel table entry = some out → Walkable stamp now data.key chain ∧
      Placed stamp now table (htIndex hash table data.key) entry data chain out.1 ∧
      (out.2 = false → collided stamp now data.key chain = 0)) ∧
    (Walkable stamp now data.key chain → chain.length < fuel →
      (place hash stamp now fuel table entry).isSome) := by
  -- what is done up to the test of the load, and when it is done at all
  have nonnull : entry ≠ 0 := by
    rintro rfl
    rw [null] at live
    cases live
  let index := htIndex hash table data.key
  let fixed : HashTable Key Value :=
    { table with heap := Function.update table.heap entry (some ⟨data, 0⟩) }
  have placing : place hash stamp now fuel table entry = if table.array index = 0 then
      some ({ fixed with
        array := Function.update table.array index entry, keyCount := table.keyCount + 1 }, false)
      else (walk stamp now data.key index fuel ⟨fixed, 0, 0⟩ (table.array index)).bind
          (settle index entry data.value) := by
    rw [place, live]
    rfl
  have prepared : Leaves table index chain [entry] 0 0 fixed := by
    refine ⟨rfl, fun _ _ => rfl,
      linked.frame fun q member => ?_, fun q away => ?_, by simp [fixed], by simp [fixed]⟩
    · have other : q ≠ entry := fun same => outside (same ▸ member)
      exact Function.update_of_ne other ..
    · exact Function.update_of_ne (fun same => away (List.mem_singleton.mpr same)) ..
  rw [placing]
  by_cases start : table.array index = 0
  · have empty : chain = [] := linked.unique start
    subst empty
    have none : collided stamp now data.key ([] : List (Block Key Value)) = 0 := if_pos (Or.inr rfl)
    rw [if_pos start]
    refine ⟨fun out same => ?_, fun _ _ => rfl⟩
    cases same
    refine ⟨⟨List.isChain_nil, fun _ block wrong => nomatch wrong⟩, ?_, fun _ => none⟩
    refine ⟨rfl, fun j other => Function.update_of_ne other .., ?_, fun q away => ?_, ?_, ?_⟩
    · change Chain fixed.heap (Function.update table.array index entry index) [(entry, data)]
      rw [Function.update_self]
      exact ⟨rfl, nonnull, 0, Function.update_self .., rfl⟩
    · exact Function.update_of_ne (fun same => away (by simp [same])) ..
    · simp [timedOuts, added, known, fresh]
    · rw [none]
      simp [timedOuts, fromFresh, fixed]
  · rw [if_neg start]
    obtain ⟨runs, total⟩ := walk_chain stamp now data.key index chain fuel
        ⟨fixed, 0, 0⟩ prepared.linked distinct rfl
    have settles : ∀ w, walk stamp now data.key index fuel ⟨fixed, 0, 0⟩ (table.array index) =
        some w →
        (∀ out, settle index entry data.value w = some out → Walkable stamp now data.key chain ∧
          Placed stamp now table index entry data chain out.1 ∧
            (out.2 = false → collided stamp now data.key chain = 0)) ∧
        (Walkable stamp now data.key chain → (settle index entry data.value w).isSome) := by
      intro w walked
      obtain ⟨survives, leaves, prev, found⟩ := runs w walked
      have all := prepared.then leaves (entry :: pointers chain) (by simp)
          (List.subset_cons_self ..)
      rw [Int.zero_add, Int.zero_add] at all
      refine settle_leaves stamp now table index chain entry data w all prev found
        ((survives_iff stamp now false _).mp survives).1 distinct unique ?_ ?_ outside
      · have away : 0 ∉ entry :: pointers chain :=
          List.not_mem_cons_of_ne_of_not_mem nonnull.symm linked.null_apart
        exact (all.frame 0 away).trans null
      · exact (leaves.frame entry outside).trans (Function.update_self ..)
    refine ⟨fun out ended => ?_, fun walkable enough => ?_⟩
    · obtain ⟨w, walked, settled⟩ := Option.bind_eq_some_iff.mp ended
      exact (settles w walked).1 out settled
    · have survives := (survives_iff stamp now false _).mpr
          ⟨walkable.1, fun wrong => absurd wrong Bool.false_ne_true⟩
      obtain ⟨w, walked⟩ := Option.isSome_iff_exists.mp (total survives enough)
      have same : walk stamp now data.key index fuel ⟨fixed, 0, 0⟩ (table.array index) = some w :=
        walked
      rw [same, Option.bind_some]
      exact (settles w walked).2 walkable

end

end LazyAS.AgingInsert

import LazyAS.LinkedChain
import Mathlib.Data.BitVec
import Mathlib.Data.Finset.Card
import Mathlib.Data.Finset.Lattice.Fold
import Mathlib.Data.Fintype.Card

/-! The AP's table of the stations it serves (`fnii_roam.c`): 32 buckets of linked blocks
and a counter. The loops follow pointers, so they are defined with fuel, and an access to a
block that is not live ends a call without a result. A call returns when some fuel is enough.
The table is shown to be a finite set of pairs of a station and a BSSID. -/
namespace LazyAS.DenseStationHash
open LinkedChain

abbrev Mac := Vector UInt8 6

structure CmdMsg where
  bssid : Mac
  stamac : Mac
  deriving DecidableEq

structure Entry where
  station : Mac
  ap : Mac
  deriving DecidableEq

inductive Ret where
  | ok | err
  deriving DecidableEq, Repr

inductive SocketStatus where
  | enable | disable
  deriving DecidableEq, Repr

/-- `g_dense_station_hash` and the blocks `os_malloc` has given for it. -/
structure Memory where
  station : Fin 32 → Ptr
  stationUsed : BitVec 32
  heap : Heap Entry

def Memory.initial : Memory where
  station := fun _ => 0
  stationUsed := 0
  heap := fun _ => none

def hashIdx (stamac : Mac) : Fin 32 := ⟨stamac[0].toNat % 32, Nat.mod_lt _ (by decide)⟩

/-- The handlers take an address for unset by its first and last byte. -/
def firstByte (addr : Mac) : UInt8 := addr[0]

def lastByte (addr : Mac) : UInt8 := addr[5]

def hits (entry : Entry) (addr : CmdMsg) : Bool :=
  entry.station = addr.stamac ∧ entry.ap = addr.bssid

def entryOf (addr : CmdMsg) : Entry := ⟨addr.stamac, addr.bssid⟩

def fniiInitDenseStationHash (memory : Memory) : Memory × Ret :=
  let reset := { memory with stationUsed := 0 }
  ((List.finRange 32).foldl (fun m i => { m with station := Function.update m.station i 0 }) reset,
    .ok)

/-- The inner loop of the reset: the blocks are given back one after the other. -/
def freeStations : Nat → Heap Entry → Ptr → Option (Heap Entry)
  | 0, _, _ => none
  | fuel + 1, heap, station =>
      if station = 0 then some heap
      else do
        let block ← heap station
        freeStations fuel (Function.update heap station none) block.pNext

def resetBucket (fuel : Nat) (memory : Memory) (i : Fin 32) : Option Memory := do
  let cleared := { memory with station := Function.update memory.station i 0 }
  let heap ← freeStations fuel cleared.heap (memory.station i)
  return { cleared with heap := heap }

/-- `fnii_reset_dense_station_hash`; `iface` is false for a null pointer. -/
def fniiResetDenseStationHash (fuel : Nat) (memory : Memory) (iface : Bool) :
    Option (Memory × Ret) :=
  if iface then do
    let after ← (List.finRange 32).foldlM (resetBucket fuel) { memory with stationUsed := 0 }
    return (after, .ok)
  else some (memory, .err)

/-- The search both `find` and `add` make in a bucket. -/
def lookFor (heap : Heap Entry) (addr : CmdMsg) : Nat → Ptr → Option Bool
  | 0, _ => none
  | fuel + 1, stationTmp =>
      if stationTmp = 0 then some false
      else do
        let block ← heap stationTmp
        if hits block.data addr then some true else lookFor heap addr fuel block.pNext

def fniiDenseStationFind (fuel : Nat) (memory : Memory) (status : SocketStatus) :
    Option CmdMsg → Option (Memory × Ret)
  | none => some (memory, .err)
  | some addr =>
      if status ≠ .enable then some (memory, .err)
      else do
        let found ← lookFor memory.heap addr fuel (memory.station (hashIdx addr.stamac))
        return (memory, if found then .ok else .err)

/-- `fnii_dense_station_add`; `block` is what `os_malloc` returns. -/
def fniiDenseStationAdd (fuel : Nat) (memory : Memory) (block : Ptr) :
    Option CmdMsg → Option (Memory × Ret)
  | none => some (memory, .err)
  | some addr => do
      let i := hashIdx addr.stamac
      let found ← lookFor memory.heap addr fuel (memory.station i)
      if found then return (memory, .err)
      -- the result of the allocation is not checked
      else if block = 0 then none
      else return (
        { station := Function.update memory.station i block
          stationUsed := memory.stationUsed + 1
          heap := Function.update memory.heap block (some ⟨entryOf addr, memory.station i⟩) }, .ok)

/-- The block before the deleted one, or the bucket, is linked to what follows. -/
def unlink (memory : Memory) (i : Fin 32) (previous next : Ptr) : Option Memory :=
  if previous = 0 then some { memory with station := Function.update memory.station i next }
  else do
    let before ← memory.heap previous
    return { memory with
      heap := Function.update memory.heap previous (some { before with pNext := next }) }

def delFrom (memory : Memory) (addr : CmdMsg) : Nat → Ptr → Ptr → Option (Memory × Ret)
  | 0, _, _ => none
  | fuel + 1, stationTmpP, stationTmp =>
      if stationTmp = 0 then some (memory, .err)
      else do
        let block ← memory.heap stationTmp
        if hits block.data addr then
          let unlinked ← unlink memory (hashIdx addr.stamac) stationTmpP block.pNext
          return ({ unlinked with
            heap := Function.update unlinked.heap stationTmp none
            stationUsed := unlinked.stationUsed - 1 }, .ok)
        else delFrom memory addr fuel stationTmp block.pNext

def fniiDenseStationDel (fuel : Nat) (memory : Memory) : Option CmdMsg → Option (Memory × Ret)
  | none => some (memory, .err)
  | some addr => delFrom memory addr fuel 0 (memory.station (hashIdx addr.stamac))

/-- The calls, with what the system contributes to them. -/
inductive Call where
  | init
  | reset (iface : Bool)
  | find (status : SocketStatus) (addr : Option CmdMsg)
  | add (block : Ptr) (addr : Option CmdMsg)
  | del (addr : Option CmdMsg)

def exec (fuel : Nat) (memory : Memory) : Call → Option (Memory × Ret)
  | .init => some (fniiInitDenseStationHash memory)
  | .reset iface => fniiResetDenseStationHash fuel memory iface
  | .find status addr => fniiDenseStationFind fuel memory status addr
  | .add block addr => fniiDenseStationAdd fuel memory block addr
  | .del addr => fniiDenseStationDel fuel memory addr

def Returns (memory : Memory) (call : Call) (result : Memory × Ret) : Prop :=
  ∃ fuel, exec fuel memory call = some result

/-! The set the table stands for. -/

def onSet (entries : Finset Entry) : Call → Finset Entry × Ret
  | .init => (∅, .ok)
  | .reset iface => if iface then (∅, .ok) else (entries, .err)
  | .find _ none | .add _ none | .del none => (entries, .err)
  | .find status (some addr) =>
      (entries, if status = .enable ∧ entryOf addr ∈ entries then .ok else .err)
  | .add _ (some addr) =>
      if entryOf addr ∈ entries then (entries, .err) else (insert (entryOf addr) entries, .ok)
  | .del (some addr) =>
      if entryOf addr ∈ entries then (entries.erase (entryOf addr), .ok) else (entries, .err)

/-- `sizeof(struct _fnii_dense_station_s)` with four-byte pointers. -/
def blockSize : Nat := 16

def Apart (p q : Nat) : Prop := p + blockSize ≤ q ∨ q + blockSize ≤ p

/-- A successful `os_malloc`: a block in the 32-bit address space beside the live ones. -/
def Fresh (heap : Heap Entry) (block : Nat) : Prop :=
  block ≠ 0 ∧ block + blockSize ≤ 2 ^ 32 ∧ ∀ p, heap p ≠ none → Apart p block

def Allocates (memory : Memory) : Call → Prop
  | .add block (some _) => Fresh memory.heap block
  | _ => True

/-- The runs from the zeroed globals, with every call and what it returned. -/
inductive Run : Memory → List (Call × Ret) → Prop where
  | start : Run .initial []
  | call {memory next : Memory} {history : List (Call × Ret)} {ret : Ret}
      (before : Run memory history)
      (call : Call) (allocated : Allocates memory call)
      (returns : Returns memory call (next, ret)) :
      Run next (history ++ [(call, ret)])

/-! More fuel does not change a result. -/

theorem lookFor_mono (heap : Heap Entry) (addr : CmdMsg) (fuel more : Nat) (p : Ptr) (found : Bool)
    (enough : fuel ≤ more) (result : lookFor heap addr fuel p = some found) :
    lookFor heap addr more p = some found := by
  induction fuel generalizing more p with
  | zero => cases result
  | succ fuel ih =>
      obtain ⟨more, rfl⟩ : ∃ n, more = n + 1 := ⟨more - 1, by omega⟩
      rw [lookFor] at result ⊢
      split
      · rename_i null
        simpa [null] using result
      · rename_i live
        rw [if_neg live] at result
        cases block : heap p with
        | none => simp [block] at result
        | some cell =>
            simp only [block, Option.bind_eq_bind, Option.bind_some] at result ⊢
            split
            · rename_i hit
              simpa [hit] using result
            · rename_i miss
              rw [if_neg miss] at result
              exact ih more cell.pNext (by omega) result

theorem freeStations_mono (fuel more : Nat) (heap after : Heap Entry) (p : Ptr)
    (enough : fuel ≤ more) (result : freeStations fuel heap p = some after) :
    freeStations more heap p = some after := by
  induction fuel generalizing more heap p with
  | zero => cases result
  | succ fuel ih =>
      obtain ⟨more, rfl⟩ : ∃ n, more = n + 1 := ⟨more - 1, by omega⟩
      rw [freeStations] at result ⊢
      split
      · rename_i null
        simpa [null] using result
      · rename_i live
        rw [if_neg live] at result
        cases block : heap p with
        | none => simp [block] at result
        | some cell =>
            simp only [block, Option.bind_eq_bind, Option.bind_some] at result ⊢
            exact ih more _ cell.pNext (by omega) result

theorem resetBucket_mono (fuel more : Nat) (memory after : Memory) (i : Fin 32)
    (enough : fuel ≤ more) (result : resetBucket fuel memory i = some after) :
    resetBucket more memory i = some after := by
  unfold resetBucket at result ⊢
  cases freed : freeStations fuel memory.heap (memory.station i) with
  | none => simp [freed] at result
  | some heap => simpa [freed, freeStations_mono fuel more _ heap _ enough freed] using result

theorem resetBuckets_mono (fuel more : Nat) (memory after : Memory) (todo : List (Fin 32))
    (enough : fuel ≤ more) (result : todo.foldlM (resetBucket fuel) memory = some after) :
    todo.foldlM (resetBucket more) memory = some after := by
  induction todo generalizing memory with
  | nil => exact result
  | cons i todo ih =>
      rw [List.foldlM_cons] at result ⊢
      cases first : resetBucket fuel memory i with
      | none => simp [first] at result
      | some next =>
          simp only [first, Option.bind_eq_bind, Option.bind_some] at result
          simpa [resetBucket_mono fuel more memory next i enough first] using ih next result

theorem delFrom_mono (memory : Memory) (addr : CmdMsg) (fuel more : Nat) (previous p : Ptr)
    (result : Memory × Ret) (enough : fuel ≤ more)
    (done : delFrom memory addr fuel previous p = some result) :
    delFrom memory addr more previous p = some result := by
  induction fuel generalizing more previous p with
  | zero => cases done
  | succ fuel ih =>
      obtain ⟨more, rfl⟩ : ∃ n, more = n + 1 := ⟨more - 1, by omega⟩
      rw [delFrom] at done ⊢
      split
      · rename_i null
        simpa [null] using done
      · rename_i live
        rw [if_neg live] at done
        cases block : memory.heap p with
        | none => simp [block] at done
        | some cell =>
            simp only [block, Option.bind_eq_bind, Option.bind_some] at done ⊢
            split
            · rename_i hit
              simpa [hit] using done
            · rename_i miss
              rw [if_neg miss] at done
              exact ih more p cell.pNext (by omega) done

theorem exec_mono (fuel more : Nat) (memory : Memory) (call : Call) (result : Memory × Ret)
    (enough : fuel ≤ more) (done : exec fuel memory call = some result) :
    exec more memory call = some result := by
  cases call with
  | init => exact done
  | reset iface =>
      simp only [exec, fniiResetDenseStationHash] at done ⊢
      split
      · rename_i given
        rw [if_pos given] at done
        cases freed : (List.finRange 32).foldlM (resetBucket fuel) { memory with
          stationUsed := 0 } with
        | none =>
            rw [freed] at done
            cases done
        | some after =>
            rw [freed] at done
            rw [resetBuckets_mono fuel more _ after _ enough freed]
            exact done
      · rename_i missing
        simpa [missing] using done
  | find status addr =>
      cases addr with
      | none => exact done
      | some addr =>
          simp only [exec, fniiDenseStationFind] at done ⊢
          split
          · rename_i off
            rwa [if_pos off] at done
          · rename_i on
            rw [if_neg on] at done
            cases look : lookFor memory.heap addr fuel (memory.station (hashIdx addr.stamac)) with
            | none => simp [look] at done
            | some found =>
                simpa [look, lookFor_mono _ addr fuel more _ found enough look] using done
  | add block addr =>
      cases addr with
      | none => exact done
      | some addr =>
          simp only [exec, fniiDenseStationAdd] at done ⊢
          cases look : lookFor memory.heap addr fuel (memory.station (hashIdx addr.stamac)) with
          | none => simp [look] at done
          | some found => simpa [look, lookFor_mono _ addr fuel more _ found enough look] using done
  | del addr =>
      cases addr with
      | none => exact done
      | some addr => exact delFrom_mono memory addr fuel more 0 _ result enough done

theorem Returns.unique {memory : Memory} {call : Call} {left right : Memory × Ret}
    (first : Returns memory call left) (second : Returns memory call right) : left = right := by
  obtain ⟨fuel, done⟩ := first
  obtain ⟨more, finished⟩ := second
  have upper := exec_mono fuel (max fuel more) memory call left (Nat.le_max_left ..) done
  rw [exec_mono more (max fuel more) memory call right (Nat.le_max_right ..) finished] at upper
  exact (Option.some.inj upper).symm

/-! What the memory holds. -/

abbrev Buckets := Fin 32 → List (Ptr × Entry)

/-- Every bucket is a chain; an entry is in the bucket of its station, and there once. -/
structure Linked (memory : Memory) (buckets : Buckets) : Prop where
  chained : ∀ i, Chain memory.heap (memory.station i) (buckets i)
  placed : ∀ i, ∀ entry ∈ contents (buckets i), hashIdx entry.station = i
  distinct : ∀ i, (contents (buckets i)).Nodup

theorem Linked.pointers_nodup {memory : Memory} {buckets : Buckets} (linked : Linked memory buckets)
    (i : Fin 32) : (pointers (buckets i)).Nodup :=
  (linked.chained i).pointers_nodup (linked.distinct i)

theorem Linked.same_bucket {memory : Memory} {buckets : Buckets} (linked : Linked memory buckets)
    {i j : Fin 32} {q : Ptr} (left : q ∈ pointers (buckets i)) (right : q ∈ pointers (buckets j)) :
    i = j := by
  obtain ⟨first, inFirst, rfl⟩ := List.mem_map.mp left
  obtain ⟨second, inSecond, same⟩ := List.mem_map.mp right
  obtain ⟨next, live⟩ := (linked.chained i).live first inFirst
  obtain ⟨next', live'⟩ := (linked.chained j).live second inSecond
  rw [same, live] at live'
  have equal : first.2 = second.2 := (Cell.mk.inj (Option.some.inj live')).1
  rw [← linked.placed i first.2 (List.mem_map_of_mem inFirst),
    ← linked.placed j second.2 (List.mem_map_of_mem inSecond), equal]

theorem Linked.change {memory after : Memory} {buckets : Buckets} (linked : Linked memory buckets)
    (i : Fin 32) (blocks : List (Ptr × Entry)) (chained : Chain after.heap (after.station i) blocks)
    (placed : ∀ entry ∈ contents blocks, hashIdx entry.station = i)
    (distinct : (contents blocks).Nodup)
    (others : ∀ j, j ≠ i → after.station j = memory.station j)
    (kept : ∀ j, j ≠ i → ∀ q ∈ pointers (buckets j), after.heap q = memory.heap q) :
    Linked after (Function.update buckets i blocks) := by
  -- a change of one bucket that keeps the blocks of the others
  constructor
  · intro j
    by_cases same : j = i
    · subst same
      simpa using chained
    · rw [Function.update_of_ne same, others j same]
      exact (linked.chained j).frame (kept j same)
  · intro j
    by_cases same : j = i
    · subst same
      simpa using placed
    · simpa [Function.update_of_ne same] using linked.placed j
  · intro j
    by_cases same : j = i
    · subst same
      simpa using distinct
    · simpa [Function.update_of_ne same] using linked.distinct j

theorem linked_empty (memory : Memory) (null : ∀ i, memory.station i = 0) :
    Linked memory fun _ => [] :=
  ⟨fun i => null i, fun i entry member => by simp at member, fun i => by simp⟩

/-! The loops along a chain. -/

theorem hits_iff (entry : Entry) (addr : CmdMsg) :
    hits entry addr = true ↔ entry = entryOf addr := by
  cases entry
  simp [hits, entryOf]

theorem lookFor_eq (heap : Heap Entry) (addr : CmdMsg) (fuel : Nat) (p : Ptr)
    (blocks : List (Ptr × Entry)) (chain : Chain heap p blocks) (enough : blocks.length < fuel) :
    lookFor heap addr fuel p = some (decide (entryOf addr ∈ contents blocks)) := by
  induction blocks generalizing fuel p with
  | nil =>
      obtain ⟨fuel, rfl⟩ : ∃ n, fuel = n + 1 := ⟨fuel - 1, by simp at enough; omega⟩
      have null : p = 0 := chain
      simp [lookFor, null]
  | cons block rest ih =>
      obtain ⟨fuel, rfl⟩ : ∃ n, fuel = n + 1 := ⟨fuel - 1, by simp at enough; omega⟩
      obtain ⟨rfl, nonnull, next, live, along⟩ := chain
      have later := ih fuel next along (by simpa using enough)
      rw [lookFor, if_neg nonnull, live]
      simp only [Option.bind_eq_bind, Option.bind_some]
      split
      · rename_i hit
        simp [(hits_iff _ _).mp hit]
      · rename_i miss
        have other : entryOf addr ≠ block.2 := fun same => miss ((hits_iff _ _).mpr same.symm)
        simp only [later, contents_cons, List.mem_cons, other, false_or]

theorem freeStations_eq (fuel : Nat) (heap : Heap Entry) (p : Ptr) (blocks : List (Ptr × Entry))
    (chain : Chain heap p blocks) (distinct : (pointers blocks).Nodup)
    (enough : blocks.length < fuel) :
    freeStations fuel heap p = some fun q => if q ∈ pointers blocks then none else heap q := by
  induction blocks generalizing fuel heap p with
  | nil =>
      obtain ⟨fuel, rfl⟩ : ∃ n, fuel = n + 1 := ⟨fuel - 1, by simp at enough; omega⟩
      have null : p = 0 := chain
      simp [freeStations, null]
  | cons block rest ih =>
      obtain ⟨fuel, rfl⟩ : ∃ n, fuel = n + 1 := ⟨fuel - 1, by simp at enough; omega⟩
      obtain ⟨rfl, nonnull, next, live, along⟩ := chain
      obtain ⟨fresh, others⟩ := List.nodup_cons.mp distinct
      have framed : Chain (Function.update heap block.1 none) next rest := by
        refine along.frame ?_
        intro q member
        have other : q ≠ block.1 := by
          rintro rfl
          exact fresh member
        exact Function.update_of_ne other ..
      rw [freeStations, if_neg nonnull, live]
      simp only [Option.bind_eq_bind, Option.bind_some]
      rw [ih fuel _ next framed others (by simpa using enough)]
      congr 1
      funext q
      by_cases same : q = block.1
      · simp [same]
      · simp [same]

def lastPointer (previous : Ptr) (skipped : List (Ptr × Entry)) : Ptr :=
  (pointers skipped).getLastD previous

theorem delFrom_absent (memory : Memory) (addr : CmdMsg) (fuel : Nat) (previous p : Ptr)
    (blocks : List (Ptr × Entry)) (chain : Chain memory.heap p blocks)
    (absent : entryOf addr ∉ contents blocks) (enough : blocks.length < fuel) :
    delFrom memory addr fuel previous p = some (memory, .err) := by
  induction blocks generalizing fuel previous p with
  | nil =>
      obtain ⟨fuel, rfl⟩ : ∃ n, fuel = n + 1 := ⟨fuel - 1, by simp at enough; omega⟩
      have null : p = 0 := chain
      simp [delFrom, null]
  | cons block rest ih =>
      obtain ⟨fuel, rfl⟩ : ∃ n, fuel = n + 1 := ⟨fuel - 1, by simp at enough; omega⟩
      obtain ⟨rfl, nonnull, next, live, along⟩ := chain
      have miss : ¬ hits block.2 addr = true := by
        intro hit
        apply absent
        simp [(hits_iff _ _).mp hit]
      have later : entryOf addr ∉ contents rest := fun member =>
          absent (List.mem_cons_of_mem _ member)
      rw [delFrom, if_neg nonnull, live]
      simp only [Option.bind_eq_bind, Option.bind_some, miss, Bool.false_eq_true, if_false]
      exact ih fuel block.1 next along later (by simpa using enough)

theorem delFrom_found (memory : Memory) (addr : CmdMsg) (fuel : Nat) (previous p : Ptr)
    (skipped tail : List (Ptr × Entry)) (q : Ptr)
    (chain : Chain memory.heap p (skipped ++ (q, entryOf addr) :: tail))
    (first : entryOf addr ∉ contents skipped) (enough : skipped.length + 1 ≤ fuel) :
    ∃ next, Chain memory.heap next tail ∧
      delFrom memory addr fuel previous p =
        (unlink memory (hashIdx addr.stamac) (lastPointer previous skipped)
          next).map fun unlinked =>
          ({ unlinked with
            heap := Function.update unlinked.heap q none
            stationUsed := unlinked.stationUsed - 1 }, .ok) := by
  -- the loop stops at the first block with the entry, with the block before it at hand
  induction skipped generalizing fuel previous p with
  | nil =>
      obtain ⟨fuel, rfl⟩ : ∃ n, fuel = n + 1 := ⟨fuel - 1, by simp at enough; omega⟩
      obtain ⟨rfl, nonnull, next, live, along⟩ := chain
      have hit : hits (entryOf addr) addr = true := (hits_iff _ _).mpr rfl
      refine ⟨next, along, ?_⟩
      rw [delFrom, if_neg nonnull, live]
      simp only [Option.bind_eq_bind, Option.bind_some, hit, if_true, lastPointer, pointers_nil,
        List.getLastD_nil]
      cases unlink memory (hashIdx addr.stamac) previous next <;> rfl
  | cons block skipped ih =>
      obtain ⟨fuel, rfl⟩ : ∃ n, fuel = n + 1 := ⟨fuel - 1, by simp at enough; omega⟩
      obtain ⟨rfl, nonnull, next, live, along⟩ := chain
      have miss : ¬ hits block.2 addr = true := by
        intro hit
        apply first
        simp [(hits_iff _ _).mp hit]
      have later : entryOf addr ∉ contents skipped := fun member =>
          first (List.mem_cons_of_mem _ member)
      obtain ⟨onward, rest, result⟩ := ih fuel block.1 next along later (by simpa using enough)
      refine ⟨onward, rest, ?_⟩
      rw [delFrom, if_neg nonnull, live]
      simp only [Option.bind_eq_bind, Option.bind_some, miss, Bool.false_eq_true, if_false]
      rw [lastPointer, pointers_cons, List.getLastD_cons]
      exact result

theorem unlink_chain (memory : Memory) (i : Fin 32) (skipped tail : List (Ptr × Entry))
    (block : Ptr × Entry) (next : Ptr)
    (chain : Chain memory.heap (memory.station i) (skipped ++ block :: tail))
    (distinct : (pointers (skipped ++ block :: tail)).Nodup) (along : Chain memory.heap next tail) :
    ∃ unlinked, unlink memory i (lastPointer 0 skipped) next = some unlinked ∧
      Chain (Function.update unlinked.heap block.1 none) (unlinked.station i) (skipped ++ tail) ∧
      unlinked.stationUsed = memory.stationUsed ∧
      (∀ j, j ≠ i → unlinked.station j = memory.station j) ∧
      (∀ q, q ∉ pointers skipped → unlinked.heap q = memory.heap q) ∧
      ∀ q, (unlinked.heap q).isSome → (memory.heap q).isSome := by
  -- unlinking a block of a bucket leaves the chain of the others
  have gone : ∀ q ∈ pointers (skipped ++ tail), q ≠ block.1 := by
    rintro q member rfl
    have moved : (pointers (block :: (skipped ++ tail))).Nodup :=
      ((List.perm_middle.map Prod.fst).nodup_iff).mp distinct
    exact (List.nodup_cons.mp moved).1 member
  rcases List.eq_nil_or_concat' skipped with rfl | ⟨before, last, rfl⟩
  · -- the block was the first one of its bucket
    refine ⟨{ memory with station := Function.update memory.station i next }, by simp [unlink,
      lastPointer],
      ?_, rfl, fun j other => Function.update_of_ne other .., fun q _ => rfl, fun q live => live⟩
    simp only [Function.update_self]
    exact along.frame fun q member => Function.update_of_ne (gone q (by simpa using member)) ..
  · have inside : last ∈ (before ++ [last]) ++ block :: tail := by simp
    obtain ⟨old, live⟩ := chain.live last inside
    have nonnull : last.1 ≠ 0 := chain.nonnull last inside
    have apart : last.1 ∉ pointers tail := by
      intro member
      rw [pointers_append, List.nodup_append] at distinct
      exact distinct.2.2 last.1 (by simp) last.1 (by simp [member]) rfl
    have relinked : Chain (Function.update memory.heap last.1 (some ⟨last.2, next⟩))
        (memory.station i)
        (before ++ last :: tail) := by
      have linked : Chain memory.heap (memory.station i)
          (before ++ last :: block :: tail) := by simpa using chain
      have once : (pointers (before ++ last :: block :: tail)).Nodup := by simpa using distinct
      exact linked.relink once along apart
    refine ⟨{ memory with heap := Function.update memory.heap last.1 (some ⟨last.2, next⟩) },
      by simp [unlink, lastPointer, nonnull, live], ?_, rfl, fun j _ => rfl, ?_, ?_⟩
    · have same : (before ++ [last]) ++ tail = before ++ last :: tail := by simp
      rw [same]
      rw [same] at gone
      exact relinked.frame fun q member => Function.update_of_ne (gone q member) ..
    · intro q outside
      have other : q ≠ last.1 := by
        rintro rfl
        exact outside (by simp)
      exact Function.update_of_ne other ..
    · intro q there
      by_cases same : q = last.1
      · simp [same, live]
      · simpa [Function.update_of_ne same] using there

/-! The table and the set. -/

/-- The live blocks lie in the address space and do not overlap. -/
structure Spaced (heap : Heap Entry) : Prop where
  inside : ∀ p : Nat, (heap p).isSome → p + blockSize ≤ 2 ^ 32
  apart : ∀ p q, (heap p).isSome → (heap q).isSome → p ≠ q → Apart p q

theorem Spaced.shrink {heap after : Heap Entry} (spaced : Spaced heap)
    (fewer : ∀ q, (after q).isSome → (heap q).isSome) : Spaced after :=
  ⟨fun p live => spaced.inside p (fewer p live),
    fun p q left right => spaced.apart p q (fewer p left) (fewer q right)⟩

theorem Spaced.grow {heap : Heap Entry} (spaced : Spaced heap) (block : Ptr)
    (fresh : Fresh heap block) (cell : Cell Entry) :
    Spaced (Function.update heap block (some cell)) := by
  obtain ⟨_, inside, beside⟩ := fresh
  have old (p : Ptr) (other : p ≠ block)
      (live : (Function.update heap block (some cell) p).isSome) :
      (heap p).isSome := by
    rwa [Function.update_of_ne other] at live
  have away (p : Ptr) (live : (heap p).isSome) : Apart p block := by
    apply beside p
    intro none
    simp [none] at live
  constructor
  · intro p live
    by_cases same : p = block
    · rwa [same]
    · exact spaced.inside p (old p same live)
  · intro p q left right different
    by_cases first : p = block
    · subst first
      exact (away q (old q (Ne.symm different) right)).symm
    · by_cases second : q = block
      · subst second
        exact away p (old p first left)
      · exact spaced.apart p q (old p first left) (old q second right) different

/-- The entries of the buckets are the members of the set. -/
def Members (buckets : Buckets) (entries : Finset Entry) : Prop :=
  ∀ entry, entry ∈ entries ↔ entry ∈ contents (buckets (hashIdx entry.station))

structure Represents (memory : Memory) (buckets : Buckets) (entries : Finset Entry) : Prop where
  linked : Linked memory buckets
  members : Members buckets entries
  counted : memory.stationUsed = BitVec.ofNat 32 entries.card
  spaced : Spaced memory.heap

theorem Represents.card_le {memory : Memory} {buckets : Buckets} {entries : Finset Entry}
    (represents : Represents memory buckets entries) : entries.card ≤ 2 ^ 28 := by
  -- each entry takes a block, so there are at most 2²⁸ of them
  have block : ∀ entry ∈ entries, ∃ p next : Nat, memory.heap p = some ⟨entry, next⟩ := by
    intro entry member
    obtain ⟨listed, inside, rfl⟩ := List.mem_map.mp ((represents.members entry).mp member)
    obtain ⟨next, live⟩ := (represents.linked.chained _).live listed inside
    exact ⟨listed.1, next, live⟩
  choose! address link live using block
  -- blocks that do not overlap differ in their address divided by the block size
  have separate : ∀ left ∈ entries, ∀ right ∈ entries, address left / 16 = address right / 16 →
      left = right := by
    intro left first right second same
    have equal : address left = address right := by
      by_contra different
      have apart := represents.spaced.apart _ _ (by simp [live left first])
          (by simp [live right second])
        different
      unfold Apart blockSize at apart
      omega
    have cells := (live left first).symm.trans
        ((congrArg memory.heap equal).trans (live right second))
    exact (Cell.mk.inj (Option.some.inj cells)).1
  have bounded : ∀ entry ∈ entries, address entry / 16 ∈ Finset.range (2 ^ 28) := by
    intro entry member
    have inside := represents.spaced.inside (address entry) (by simp [live entry member])
    unfold blockSize at inside
    rw [Finset.mem_range]
    omega
  calc entries.card ≤ (Finset.range (2 ^ 28)).card :=
        Finset.card_le_card_of_injOn (fun entry => address entry / 16) bounded separate
    _ = 2 ^ 28 := Finset.card_range _

theorem Represents.stationUsed_eq {memory : Memory} {buckets : Buckets} {entries : Finset Entry}
    (represents : Represents memory buckets entries) : memory.stationUsed.toInt = entries.card := by
  have bound := represents.card_le
  have small : entries.card < 2 ^ 31 := by omega
  rw [represents.counted, BitVec.toInt_ofNat', Int.bmod_eq_of_le] <;> omega

theorem enough_fuel (buckets : Buckets) : ∃ fuel, ∀ i, (buckets i).length < fuel := by
  refine ⟨(Finset.univ.sup fun i => (buckets i).length) + 1, fun i => ?_⟩
  exact Nat.lt_succ_of_le (Finset.le_sup (f := fun i => (buckets i).length) (Finset.mem_univ i))

theorem empty_represents (memory : Memory) (null : ∀ i, memory.station i = 0)
    (zero : memory.stationUsed = 0) (spaced : Spaced memory.heap) :
    Represents memory (fun _ => []) ∅ :=
  ⟨linked_empty memory null, fun entry => by simp, by simp [zero], spaced⟩

theorem init_station (memory : Memory) (todo : List (Fin 32)) :
    let after := todo.foldl (fun m i => { m with station := Function.update m.station i 0 }) memory
    after.stationUsed = memory.stationUsed ∧ after.heap = memory.heap ∧
      (∀ i ∈ todo, after.station i = 0) ∧ ∀ i, memory.station i = 0 → after.station i = 0 := by
  induction todo generalizing memory with
  | nil =>
      refine ⟨rfl, rfl, ?_, fun i null => null⟩
      intro i member
      cases member
  | cons j todo ih =>
      obtain ⟨used, heap, cleared, kept⟩ :=
        ih { memory with station := Function.update memory.station j 0 }
      refine ⟨used, heap, ?_, ?_⟩
      · intro i member
        cases member with
        | head => exact kept j (by simp)
        | tail _ later => exact cleared i later
      · intro i null
        apply kept
        by_cases same : i = j
        · simp [same]
        · simpa [Function.update_of_ne same] using null

theorem init_represents (memory : Memory) (spaced : Spaced memory.heap) :
    Represents (fniiInitDenseStationHash memory).1 (fun _ => []) ∅ := by
  obtain ⟨used, heap, cleared, -⟩ :=
    init_station { memory with stationUsed := 0 } (List.finRange 32)
  exact empty_represents _ (fun i => cleared i (List.mem_finRange i)) used
    (by rwa [← heap] at spaced)

theorem resetBucket_linked (fuel : Nat) (memory : Memory) (buckets : Buckets) (i : Fin 32)
    (linked : Linked memory buckets) (enough : (buckets i).length < fuel) :
    ∃ after, resetBucket fuel memory i = some after ∧ Linked after (Function.update buckets i []) ∧
      after.stationUsed = memory.stationUsed ∧ ∀ q, (after.heap q).isSome →
        (memory.heap q).isSome := by
  have freed := freeStations_eq fuel memory.heap (memory.station i) (buckets i) (linked.chained i)
    (linked.pointers_nodup i) enough
  refine ⟨⟨Function.update memory.station i 0, memory.stationUsed,
    fun q => if q ∈ pointers (buckets i) then none else memory.heap q⟩, ?_, ?_, rfl, ?_⟩
  · rw [resetBucket, freed]
    rfl
  · refine linked.change i [] (by simp [Chain]) (by simp) (by simp) ?_ ?_
    · intro j other
      exact Function.update_of_ne other ..
    · intro j other q member
      have outside : q ∉ pointers (buckets i) := fun both => other (linked.same_bucket member both)
      simp [outside]
  · intro q live
    by_cases member : q ∈ pointers (buckets i)
    · simp [member] at live
    · simpa [member] using live

theorem resetBuckets_linked (fuel : Nat) (memory : Memory) (buckets : Buckets)
    (todo : List (Fin 32)) (linked : Linked memory buckets)
    (enough : ∀ i, (buckets i).length < fuel) :
    ∃ after left, todo.foldlM (resetBucket fuel) memory = some after ∧ Linked after left ∧
      (∀ i, left i = [] ∨ left i = buckets i) ∧ (∀ i ∈ todo, left i = []) ∧
      after.stationUsed = memory.stationUsed ∧ ∀ q, (after.heap q).isSome →
        (memory.heap q).isSome := by
  induction todo generalizing memory buckets with
  | nil =>
      refine ⟨memory, buckets, rfl, linked, fun i => .inr rfl, ?_, rfl, fun q live => live⟩
      intro i member
      cases member
  | cons j todo ih =>
      obtain ⟨next, first, still, used, fewer⟩ :=
        resetBucket_linked fuel memory buckets j linked (enough j)
      have short : ∀ i, (Function.update buckets j [] i).length < fuel := by
        intro i
        by_cases same : i = j
        · subst same
          simpa using Nat.zero_lt_of_lt (enough i)
        · simpa [Function.update_of_ne same] using enough i
      obtain ⟨after, left, rest, done, parts, cleared, count, shrunk⟩ := ih next _ still short
      refine ⟨after, left, ?_, done, ?_, ?_,
        count.trans used, fun q live => fewer q (shrunk q live)⟩
      · rw [List.foldlM_cons, first]
        exact rest
      · intro i
        by_cases same : i = j
        · subst same
          have gone := parts i
          simp at gone
          exact .inl gone
        · simpa [Function.update_of_ne same] using parts i
      · intro i member
        cases member with
        | head =>
            have gone := parts j
            simpa using gone
        | tail _ later => exact cleared i later

theorem reset_represents (memory : Memory) (buckets : Buckets) (entries : Finset Entry)
    (represents : Represents memory buckets entries) :
    ∃ fuel after, fniiResetDenseStationHash fuel memory true = some (after, .ok) ∧
      Represents after (fun _ => []) ∅ := by
  obtain ⟨fuel, enough⟩ := enough_fuel buckets
  have linked : Linked { memory with stationUsed := 0 } buckets :=
    ⟨represents.linked.chained, represents.linked.placed, represents.linked.distinct⟩
  obtain ⟨after, left, done, still, -, cleared, used, fewer⟩ :=
    resetBuckets_linked fuel _ buckets (List.finRange 32) linked enough
  refine ⟨fuel, after, by rw [fniiResetDenseStationHash, if_pos rfl, done]; rfl, ?_⟩
  refine empty_represents after ?_ used (represents.spaced.shrink fewer)
  intro i
  have chain := still.chained i
  rwa [cleared i (List.mem_finRange i)] at chain

theorem lookFor_represents (memory : Memory) (buckets : Buckets) (entries : Finset Entry)
    (represents : Represents memory buckets entries) (addr : CmdMsg) :
    ∃ fuel, lookFor memory.heap addr fuel (memory.station (hashIdx addr.stamac)) =
      some (decide (entryOf addr ∈ entries)) := by
  obtain ⟨fuel, enough⟩ := enough_fuel buckets
  refine ⟨fuel, ?_⟩
  rw [lookFor_eq memory.heap addr fuel _ _ (represents.linked.chained _) (enough _)]
  exact congrArg some (decide_eq_decide.mpr (represents.members (entryOf addr)).symm)

/-- A change of the bucket of `changed` changes the set as the bucket's contents. -/
theorem Members.change {buckets : Buckets} {entries after : Finset Entry}
    (members : Members buckets entries) (changed : Entry) (blocks : List (Ptr × Entry))
    (inside : ∀ entry, hashIdx entry.station = hashIdx changed.station →
      (entry ∈ after ↔ entry ∈ contents blocks))
    (outside : ∀ entry, entry ≠ changed → (entry ∈ after ↔ entry ∈ entries)) :
    Members (Function.update buckets (hashIdx changed.station) blocks) after := by
  intro entry
  by_cases same : hashIdx entry.station = hashIdx changed.station
  · rw [same, Function.update_self]
    exact inside entry same
  · rw [Function.update_of_ne same, ← members entry]
    apply outside
    rintro rfl
    exact same rfl

theorem add_represents (memory : Memory) (buckets : Buckets) (entries : Finset Entry)
    (represents : Represents memory buckets entries) (block : Ptr) (addr : CmdMsg)
    (fresh : Fresh memory.heap block) (absent : entryOf addr ∉ entries) :
    Represents
      { station := Function.update memory.station (hashIdx addr.stamac) block
        stationUsed := memory.stationUsed + 1
        heap := Function.update memory.heap block
          (some ⟨entryOf addr, memory.station (hashIdx addr.stamac)⟩) }
      (Function.update buckets (hashIdx addr.stamac)
        ((block, entryOf addr) :: buckets (hashIdx addr.stamac)))
      (insert (entryOf addr) entries) := by
  have free : memory.heap block = none := by
    by_contra live
    have beside := fresh.2.2 block live
    unfold Apart blockSize at beside
    omega
  have missing : entryOf addr ∉ contents (buckets (hashIdx addr.stamac)) := fun member =>
    absent ((represents.members (entryOf addr)).mpr member)
  have linked := represents.linked
  constructor
  · refine linked.change (hashIdx addr.stamac) _ ?_ ?_ ?_ ?_ ?_
    · simpa using (linked.chained (hashIdx addr.stamac)).push block fresh.1 free (entryOf addr)
    · intro entry member
      rcases List.mem_cons.mp member with rfl | old
      · rfl
      · exact linked.placed _ entry old
    · exact List.nodup_cons.mpr ⟨missing, linked.distinct _⟩
    · intro j other
      exact Function.update_of_ne other ..
    · intro j _ q member
      have other : q ≠ block := by
        rintro rfl
        obtain ⟨listed, inside, same⟩ := List.mem_map.mp member
        obtain ⟨next, live⟩ := (linked.chained j).live listed inside
        rw [same, free] at live
        cases live
      exact Function.update_of_ne other ..
  · refine represents.members.change (entryOf addr) _ ?_ ?_
    · intro entry same
      have old := represents.members entry
      rw [same] at old
      simp only [Finset.mem_insert, contents_cons, List.mem_cons, old]
      rfl
    · intro entry other
      simp [other]
  · rw [Finset.card_insert_of_notMem absent, BitVec.ofNat_add, represents.counted]
    rfl
  · exact represents.spaced.grow block fresh _

theorem split_at_entry (blocks : List (Ptr × Entry)) (entry : Entry)
    (distinct : (contents blocks).Nodup) (member : entry ∈ contents blocks) :
    ∃ skipped q tail, blocks = skipped ++ (q, entry) :: tail ∧ entry ∉ contents skipped ∧
      entry ∉ contents tail := by
  obtain ⟨block, inside, rfl⟩ := List.mem_map.mp member
  obtain ⟨skipped, tail, rfl⟩ := List.append_of_mem inside
  rw [contents_append, contents_cons, List.nodup_append] at distinct
  refine ⟨skipped, block.1, tail, rfl, ?_, (List.nodup_cons.mp distinct.2.1).1⟩
  intro early
  exact distinct.2.2 block.2 early block.2 (List.mem_cons_self ..) rfl

theorem del_represents (memory : Memory) (buckets : Buckets) (entries : Finset Entry)
    (represents : Represents memory buckets entries) (addr : CmdMsg)
    (present : entryOf addr ∈ entries) :
    ∃ fuel after blocks, fniiDenseStationDel fuel memory (some addr) = some (after, .ok) ∧
      Represents after (Function.update buckets (hashIdx addr.stamac) blocks)
        (entries.erase (entryOf addr)) := by
  have linked := represents.linked
  have listed : entryOf addr ∈ contents (buckets (hashIdx addr.stamac)) :=
    (represents.members (entryOf addr)).mp present
  obtain ⟨skipped, q, tail, parts, early, late⟩ := split_at_entry _ _ (linked.distinct _) listed
  have chain := linked.chained (hashIdx addr.stamac)
  have pointers := linked.pointers_nodup (hashIdx addr.stamac)
  rw [parts] at chain pointers
  obtain ⟨next, along, result⟩ :=
    delFrom_found memory addr (skipped.length + 1) 0 _ skipped tail q chain early
    (Nat.le_refl _)
  obtain ⟨unlinked, links, rest, used, others, kept, fewer⟩ :=
    unlink_chain memory (hashIdx addr.stamac)
    skipped tail (q, entryOf addr) next chain pointers along
  refine ⟨skipped.length + 1, _,
    skipped ++ tail, by rw [fniiDenseStationDel, result, links]; rfl, ?_, ?_, ?_, ?_⟩
  · refine linked.change (hashIdx addr.stamac) _ rest ?_ ?_ others ?_
    · intro entry member
      apply linked.placed _ entry
      rw [parts]
      simp only [contents_append, contents_cons, List.mem_append, List.mem_cons] at member ⊢
      tauto
    · have before := linked.distinct (hashIdx addr.stamac)
      rw [parts] at before
      refine before.sublist ?_
      simp
    · intro j other r member
      -- a block of another bucket is neither the deleted one nor the one before it
      have elsewhere : r ∉ LinkedChain.pointers (buckets (hashIdx addr.stamac)) := fun both =>
        other (linked.same_bucket member both)
      rw [parts] at elsewhere
      simp only [pointers_append, pointers_cons, List.mem_append, List.mem_cons, not_or]
        at elsewhere
      change Function.update unlinked.heap q none r = memory.heap r
      rw [Function.update_of_ne elsewhere.2.1, kept r elsewhere.1]
  · refine represents.members.change (entryOf addr) _ ?_ ?_
    · intro entry same
      have old := represents.members entry
      rw [same, show hashIdx (entryOf addr).station = hashIdx addr.stamac from rfl, parts] at old
      simp only [contents_append, contents_cons, List.mem_append, List.mem_cons] at old ⊢
      rw [Finset.mem_erase, old]
      constructor
      · tauto
      · rintro (member | member)
        · exact ⟨fun hit => early (hit ▸ member), .inl member⟩
        · exact ⟨fun hit => late (hit ▸ member), .inr (.inr member)⟩
    · intro entry other
      simp [other]
  · have positive : 0 < entries.card := Finset.card_pos.mpr ⟨_, present⟩
    change unlinked.stationUsed - 1 = _
    rw [Finset.card_erase_of_mem present, used, represents.counted]
    obtain ⟨n, count⟩ : ∃ n, entries.card = n + 1 := ⟨entries.card - 1, by omega⟩
    rw [count, BitVec.ofNat_add]
    simp
  · refine represents.spaced.shrink ?_
    intro r live
    apply fewer
    by_cases same : r = q
    · simp [same] at live
    · simpa [Function.update_of_ne same] using live

theorem call_represents (memory : Memory) (buckets : Buckets) (entries : Finset Entry) (call : Call)
    (represents : Represents memory buckets entries) (allocated : Allocates memory call) :
    ∃ next after, Returns memory call (next, (onSet entries call).2) ∧
      Represents next after (onSet entries call).1 ∧
        ((onSet entries call).2 = .err → next = memory) := by
  -- every call returns, does to the table what it does to the set, and changes nothing when it
  -- returns an error
  cases call with
  | init =>
      refine ⟨_, fun _ => [], ⟨0, rfl⟩, init_represents memory represents.spaced, ?_⟩
      intro failed
      cases failed
  | reset iface =>
      cases iface with
      | false => exact ⟨memory, buckets, ⟨0, rfl⟩, represents, fun _ => rfl⟩
      | true =>
          obtain ⟨fuel, after, done, empty⟩ := reset_represents memory buckets entries represents
          refine ⟨after, fun _ => [], ⟨fuel, done⟩, empty, ?_⟩
          intro failed
          cases failed
  | find status addr =>
      cases addr with
      | none => exact ⟨memory, buckets, ⟨0, rfl⟩, represents, fun _ => rfl⟩
      | some addr =>
          obtain ⟨fuel, look⟩ := lookFor_represents memory buckets entries represents addr
          refine ⟨memory, buckets, ⟨fuel, ?_⟩, represents, fun _ => rfl⟩
          simp only [exec, fniiDenseStationFind, onSet]
          cases status with
          | disable => simp
          | enable => simp [look]
  | add block addr =>
      cases addr with
      | none => exact ⟨memory, buckets, ⟨0, rfl⟩, represents, fun _ => rfl⟩
      | some addr =>
          obtain ⟨fuel, look⟩ := lookFor_represents memory buckets entries represents addr
          by_cases present : entryOf addr ∈ entries
          · refine ⟨memory, buckets, ⟨fuel, ?_⟩, ?_, fun _ => rfl⟩
            · simp [exec, fniiDenseStationAdd, onSet, look, present]
            · simpa [onSet, present] using represents
          · have fresh : Fresh memory.heap block := allocated
            have inserted : onSet entries (.add block (some addr)) =
                (insert (entryOf addr) entries, .ok) := by
              simp [onSet, present]
            rw [inserted]
            refine ⟨_, _, ⟨fuel, ?_⟩,
              add_represents memory buckets entries represents block addr fresh present,
              by simp⟩
            simp [exec, fniiDenseStationAdd, look, present, fresh.1]
  | del addr =>
      cases addr with
      | none => exact ⟨memory, buckets, ⟨0, rfl⟩, represents, fun _ => rfl⟩
      | some addr =>
          by_cases present : entryOf addr ∈ entries
          · obtain ⟨fuel, after, blocks, done, represented⟩ :=
              del_represents memory buckets entries represents addr present
            have erased : onSet entries (.del (some addr)) =
                (entries.erase (entryOf addr), .ok) := by
              simp [onSet, present]
            rw [erased]
            exact ⟨after, _, ⟨fuel, done⟩, represented, by simp⟩
          · obtain ⟨fuel, enough⟩ := enough_fuel buckets
            have absent : entryOf addr ∉ contents (buckets (hashIdx addr.stamac)) := fun member =>
              present ((represents.members (entryOf addr)).mpr member)
            have done := delFrom_absent memory addr fuel 0 _ _ (represents.linked.chained _) absent
                (enough _)
            refine ⟨memory, buckets, ⟨fuel, ?_⟩, ?_, fun _ => rfl⟩
            · simpa [exec, fniiDenseStationDel, onSet, present] using done
            · simpa [onSet, present] using represents

def setAfter (calls : List Call) : Finset Entry :=
  calls.foldl (fun entries call => (onSet entries call).1) ∅

def answers : Finset Entry → List Call → List Ret
  | _, [] => []
  | entries, call :: calls => (onSet entries call).2 :: answers (onSet entries call).1 calls

theorem answers_append (entries : Finset Entry) (calls : List Call) (call : Call) :
    answers entries (calls ++ [call]) =
      answers entries calls ++
        [(onSet (calls.foldl (fun entries call => (onSet entries call).1) entries) call).2] := by
  induction calls generalizing entries with
  | nil => rfl
  | cons first calls ih => simp [answers, ih]

theorem run_represents (memory : Memory) (history : List (Call × Ret)) (run : Run memory history) :
    history.map Prod.snd = answers ∅ (history.map Prod.fst) ∧
      ∃ buckets, Represents memory buckets (setAfter (history.map Prod.fst)) := by
  induction run with
  | start =>
      refine ⟨rfl, _, empty_represents .initial (fun _ => rfl) rfl ⟨?_, ?_⟩⟩
      · intro p live
        simp [Memory.initial] at live
      · intro p q live
        simp [Memory.initial] at live
  | call before call allocated returns ih =>
      obtain ⟨past, buckets, represents⟩ := ih
      obtain ⟨next, after, done, represented, -⟩ :=
        call_represents _ buckets _ call represents allocated
      cases returns.unique done
      constructor
      · rw [List.map_append, List.map_append, past, List.map_singleton, List.map_singleton,
          answers_append]
        rfl
      · refine ⟨after, ?_⟩
        simpa [setAfter, List.foldl_append] using represented

/-- Along every run the table is a set of pairs: all calls so far returned what the set
returns, the entries are stored once each in the bucket of their station, the counter is
the size of the set, and the next call returns as the set does, without any change when it
returns an error. -/
theorem station_table_refines_set (memory : Memory) (history : List (Call × Ret))
    (run : Run memory history) :
    history.map Prod.snd = answers ∅ (history.map Prod.fst) ∧
      (∃ buckets, Linked memory buckets ∧ Members buckets (setAfter (history.map Prod.fst))) ∧
      memory.stationUsed.toInt = (setAfter (history.map Prod.fst)).card ∧
      ∀ call, Allocates memory call →
        ∃ next, (∀ result, Returns memory call result ↔
            result = (next, (onSet (setAfter (history.map Prod.fst)) call).2)) ∧
          ((onSet (setAfter (history.map Prod.fst)) call).2 = .err → next = memory) := by
  obtain ⟨past, buckets, represents⟩ := run_represents memory history run
  refine ⟨past, ⟨buckets, represents.linked, represents.members⟩, represents.stationUsed_eq, ?_⟩
  intro call allocated
  obtain ⟨next, after, done, -, unchanged⟩ :=
    call_represents memory buckets _ call represents allocated
  refine ⟨next, ?_, unchanged⟩
  intro result
  constructor
  · intro returns
    exact returns.unique done
  · rintro rfl
    exact done

def someone : CmdMsg := ⟨#v[0xb0, 0x9f, 0xba, 0x41, 0x4f, 0x13],
      #v[0x66, 0x55, 0x44, 0x33, 0x22, 0x11]⟩

theorem station_kept_once :
    ∃ memory, Run memory [(.init, .ok), (.add 64 (some someone), .ok),
      (.add 128 (some someone), .err),
        (.find .enable (some someone), .ok)] ∧
      memory.stationUsed.toInt = (setAfter [.init, .add 64 (some someone), .add 128 (some someone),
        .find .enable (some someone)]).card := by
  have started : Run (fniiInitDenseStationHash .initial).1 [(.init, .ok)] :=
    .call .start .init trivial ⟨0, rfl⟩
  have room : Fresh (fniiInitDenseStationHash .initial).1.heap 64 := by
    refine ⟨by decide, by decide, ?_⟩
    intro p live
    exact absurd rfl live
  have added := Run.call started (.add 64 (some someone)) room ⟨1, rfl⟩
  have refused := Run.call added (.add 128 (some someone)) ⟨by decide, by decide, ?_⟩ ⟨2, rfl⟩
  · have found := Run.call refused (.find .enable (some someone)) trivial ⟨2, rfl⟩
    exact ⟨_, found, (station_table_refines_set _ _ found).2.2.1⟩
  · intro p live
    by_cases same : p = 64
    · subst same
      exact .inl (by decide)
    · exact absurd (Function.update_of_ne same ..) live

end LazyAS.DenseStationHash

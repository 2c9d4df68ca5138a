import Mathlib.Algebra.BigOperators.Group.Finset.Basic
import LazyAS.LinkedChain

/-! The hash table of the data collector (`hashtable.c`) with the aging that was added to its
insertion. Chains of entries are followed through the heap, so the loops are defined with fuel, and
an access through a null pointer or to a destroyed entry ends a call without a result. The functions
of the table are those for `HT_NONE` and a load of 0.05, as `infoCollect.c` sets it up; `now` is
what `gettimeofday` says during a call. -/
namespace LazyAS.AgingHash
open LinkedChain

/-- A `hash_entry` without its link. Keys are compared with their sizes, byte by byte. -/
structure HashEntry (Key Value : Type) where
  key : Key
  value : Value
  deriving DecidableEq

/-- A `hash_table` and the entries that are not destroyed. -/
structure HashTable (Key Value : Type) where
  arraySize : Nat
  array : Nat → Ptr
  keyCount : Int
  collisions : Int
  heap : Heap (HashEntry Key Value)

def ageTimeout : Int := 30

def initialSize : Nat := 64

section
variable {Key Value : Type} (hash : Key → Nat) (stamp : Value → Int) (now : Int)

abbrev Block (Key Value : Type) := Ptr × HashEntry Key Value

def htInit (size : Nat) (heap : Heap (HashEntry Key Value)) : HashTable Key Value where
  arraySize := size
  array := fun _ => 0
  keyCount := 0
  collisions := 0
  heap := heap

def htIndex (table : HashTable Key Value) (key : Key) : Nat := hash key % table.arraySize

/-- The first bytes of a value are taken for the seconds of a `timeval`. -/
def timedOut (value : Value) : Bool := now - stamp value > ageTimeout

def tooFull (table : HashTable Key Value) : Bool := 20 * table.collisions > table.arraySize

structure Walk (Key Value : Type) where
  table : HashTable Key Value
  prev : Ptr
  findRet : Ptr

/-- `he_destroy`, with the entry no longer counted. -/
def destroyed (table : HashTable Key Value) (tmp : Ptr) : HashTable Key Value :=
  { table with keyCount := table.keyCount - 1, heap := Function.update table.heap tmp none }

/-- A timed out entry at the head of the chain; `collisions` stays as it is. -/
def unlinkHead (index : Nat) (w : Walk Key Value) (tmp next : Ptr) : Walk Key Value :=
  { w with
    table := { destroyed w.table tmp with array := Function.update w.table.array index next } }

/-- A timed out entry behind `prev`, which becomes the entry that the loop goes on with. -/
def unlinkInner (w : Walk Key Value) (tmp next : Ptr) : Option (Walk Key Value) :=
  let table := destroyed w.table tmp
  (table.heap w.prev).map fun before =>
    { w with
      table := { table with
        collisions := table.collisions - 1
        heap := Function.update table.heap w.prev (some { before with pNext := next }) }
      prev := next }

variable [DecidableEq Key]

def walk (key : Key) (index : Nat) : Nat → Walk Key Value → Ptr → Option (Walk Key Value)
  | 0, _, _ => none
  | fuel + 1, w, tmp =>
      if tmp = 0 then some w
      else do
        let block ← w.table.heap tmp
        if timedOut stamp now block.data.value then
          if w.prev = 0 then walk key index fuel (unlinkHead index w tmp block.pNext) block.pNext
          else do
            let unlinked ← unlinkInner w tmp block.pNext
            walk key index fuel unlinked block.pNext
        else
          walk key index fuel { w with
            prev := tmp
            findRet := if block.data.key = key then tmp else w.findRet } block.pNext

/-- What `ht_insert_he` does after its loop and before the test of the load, with whether it comes
to that test. -/
def settle (index : Nat) (entry : Ptr) (value : Value) (w : Walk Key Value) :
    Option (HashTable Key Value × Bool) :=
  if w.findRet ≠ 0 then
    (w.table.heap w.findRet).map fun found =>
      let set := Function.update w.table.heap w.findRet
          (some { found with data := { found.data with value := value } })
      ({ w.table with heap := Function.update set entry none }, false)
  else
    let counted : HashTable Key Value := { w.table with keyCount := w.table.keyCount + 1 }
    if counted.array index = 0 then
      some ({ counted with array := Function.update counted.array index entry }, true)
    else
      (counted.heap w.prev).map fun last =>
        ({ counted with
          collisions := counted.collisions + 1
          heap := Function.update counted.heap w.prev (some { last with pNext := entry }) }, true)

def place (fuel : Nat) (table : HashTable Key Value) (entry : Ptr) :
    Option (HashTable Key Value × Bool) := do
  let block ← table.heap entry
  let index := htIndex hash table block.data.key
  let table := { table with
      heap := Function.update table.heap entry (some { block with pNext := 0 }) }
  if table.array index = 0 then
    some ({ table with
      array := Function.update table.array index entry, keyCount := table.keyCount + 1 }, false)
  else
    let w ← walk stamp now block.data.key index fuel ⟨table, 0, 0⟩ (table.array index)
    settle index entry block.data.value w

/-- The inner loop of `ht_resize`: one chain is put into the new table. -/
def moveChain (insert : HashTable Key Value → Ptr → Option (HashTable Key Value)) :
    Nat → HashTable Key Value → Ptr → Option (HashTable Key Value)
  | 0, _, _ => none
  | fuel + 1, newTable, entry =>
      if entry = 0 then some newTable
      else do
        let block ← newTable.heap entry
        let grown ← insert newTable entry
        moveChain insert fuel grown block.pNext

/-- `ht_resize`. The old array is empty in the end, so `ht_destroy` destroys no entry. -/
def htResize (insert : HashTable Key Value → Ptr → Option (HashTable Key Value)) (fuel : Nat)
    (table : HashTable Key Value) (newSize : Nat) : Option (HashTable Key Value) :=
  (List.range table.arraySize).foldlM
    (fun newTable i => moveChain insert fuel newTable (table.array i))
    (htInit newSize table.heap)

def htInsertHe : Nat → HashTable Key Value → Ptr → Option (HashTable Key Value)
  | 0, _, _ => none
  | fuel + 1, table, entry => do
      let placed ← place hash stamp now fuel table entry
      if placed.2 && tooFull placed.1 then
        htResize (htInsertHe fuel) fuel placed.1 (placed.1.arraySize * 2)
      else return placed.1

/-- `ht_insert`; `entry` is what `malloc` returns in `he_create`. -/
def htInsert (fuel : Nat) (table : HashTable Key Value) (entry : Ptr) (key : Key) (value : Value) :
    Option (HashTable Key Value) :=
  htInsertHe hash stamp now fuel { table with
    heap := Function.update table.heap entry (some ⟨⟨key, value⟩, 0⟩) } entry

/-- The search that `ht_get` and `ht_contains` make in a chain. -/
def lookFor (heap : Heap (HashEntry Key Value)) (key : Key) : Nat → Ptr → Option (Option Value)
  | 0, _ => none
  | fuel + 1, entry =>
      if entry = 0 then some none
      else do
        let block ← heap entry
        if block.data.key = key then some (some block.data.value)
          else lookFor heap key fuel block.pNext

def htGet (fuel : Nat) (table : HashTable Key Value) (key : Key) : Option (Option Value) :=
  lookFor table.heap key fuel (table.array (htIndex hash table key))

end

/-! What a table stores. -/

section
variable {Key Value : Type} (hash : Key → Nat) (stamp : Value → Int) (now : Int)

/-- The chains of a table, every entry in the chain of its key. -/
structure Stored (table : HashTable Key Value) (chains : Nat → List (Block Key Value)) : Prop where
  null : table.heap 0 = none
  chain : ∀ i < table.arraySize, Chain table.heap (table.array i) (chains i)
  placed : ∀ i < table.arraySize, ∀ block ∈ chains i, htIndex hash table block.2.key = i
  unique : ∀ i < table.arraySize, ((chains i).map fun block => block.2.key).Nodup

/-- A table as the functions build it: its counters stand for its entries, and the load is not above
its bound. -/
structure Sound (table : HashTable Key Value) (chains : Nat → List (Block Key Value)) : Prop extends
    Stored hash table chains where
  large : initialSize ≤ table.arraySize
  counted : table.keyCount = ∑ i ∈ Finset.range table.arraySize, ((chains i).length : Int)
  collided : ∑ i ∈ Finset.range table.arraySize, (((chains i).length - 1 : Nat) : Int) ≤
    table.collisions
  light : tooFull table = false

def Apart (chain : List (Block Key Value)) : Prop :=
  chain.IsChain fun block next =>
    ¬ (timedOut stamp now block.2.value = true ∧ timedOut stamp now next.2.value = true)

instance (chain : List (Block Key Value)) : Decidable (Apart stamp now chain) :=
  inferInstanceAs (Decidable (List.IsChain _ chain))

def EndsFresh (chain : List (Block Key Value)) : Prop :=
  ∀ block ∈ chain.getLast?, timedOut stamp now block.2.value = false

def fromFresh (chain : List (Block Key Value)) : List (Block Key Value) :=
  chain.dropWhile fun block => timedOut stamp now block.2.value

def fresh (chain : List (Block Key Value)) : List (Block Key Value) :=
  chain.filter fun block => !timedOut stamp now block.2.value

end

end LazyAS.AgingHash

import Mathlib.Data.Nat.ModEq
import Mathlib.Logic.Function.Basic

/-! A queue in an array of fixed size: the items stand behind each other from the slot `first` on,
and the slot behind the last one of the array is its first. `Item` is a parameter. -/
namespace LazyAS.CircularBuffer

variable {Item : Type}

structure Circle (Item : Type) where
  slots : Nat → Option Item
  first : Nat
  size : Nat
  room : Nat

/-- Where the item stands that has `i` others before it. -/
def Circle.slot (ring : Circle Item) (i : Nat) : Nat := (ring.first + i) % ring.room

def Circle.push (ring : Circle Item) (item : Item) : Circle Item :=
  { ring with
    slots := Function.update ring.slots (ring.slot ring.size) (some item), size := ring.size + 1 }

def Circle.pop (ring : Circle Item) : Circle Item :=
  { ring with
    slots := Function.update ring.slots ring.first none
    first := (ring.first + 1) % ring.room
    size := ring.size - 1 }

structure Holds (ring : Circle Item) (items : List Item) : Prop where
  inside : ring.first < ring.room
  fits : items.length ≤ ring.room
  size : ring.size = items.length
  stored : ∀ i < items.length, ring.slots (ring.slot i) = items[i]?

variable {ring : Circle Item} {items : List Item} {item : Item}

theorem slot_zero (inside : ring.first < ring.room) : ring.slot 0 = ring.first :=
  Nat.mod_eq_of_lt inside

theorem slot_distinct {i j : Nat} (before : i < j) (fits : j < ring.room) :
    ring.slot i ≠ ring.slot j := by
  intro same
  have near : i ≡ j [MOD ring.room] := Nat.ModEq.add_left_cancel' ring.first same
  exact Nat.ne_of_lt before (near.eq_of_lt_of_lt (Nat.lt_trans before fits) fits)

theorem pop_slot (i : Nat) : ring.pop.slot i = ring.slot (i + 1) := by
  have order : ring.first + 1 + i = ring.first + (i + 1) := by omega
  exact (Nat.mod_add_mod ..).trans (congrArg (· % ring.room) order)

theorem holds_empty (slots : Nat → Option Item) (room : Nat) (positive : 0 < room) :
    Holds ⟨slots, 0, 0, room⟩ [] where
  inside := positive
  fits := Nat.zero_le room
  size := rfl
  stored := fun _ below => absurd below (Nat.not_lt_zero _)

theorem Holds.head (holds : Holds ring (item :: items)) : ring.slots ring.first = some item := by
  have here := holds.stored 0 (Nat.zero_lt_succ _)
  rwa [slot_zero holds.inside] at here

theorem Holds.push (holds : Holds ring items) (free : items.length < ring.room) :
    Holds (ring.push item) (items ++ [item]) := by
  constructor
  · exact holds.inside
  · rw [List.length_append]
    exact free
  · rw [List.length_append]
    exact congrArg (· + 1) holds.size
  · intro i below
    rw [List.length_append, List.length_singleton] at below
    rcases Nat.lt_succ_iff_lt_or_eq.mp below with older | rfl
    · -- an older item stands in another slot than the new one
      have other : ring.slot i ≠ ring.slot ring.size := holds.size ▸ slot_distinct older free
      rw [List.getElem?_append_left older]
      exact (Function.update_of_ne other ..).trans (holds.stored i older)
    · rw [List.getElem?_concat_length]
      have here : (ring.push item).slot items.length = ring.slot ring.size := by
        rw [holds.size]
        rfl
      rw [here]
      exact Function.update_self ..

theorem Holds.pop (holds : Holds ring (item :: items)) : Holds ring.pop items := by
  have positive := Nat.zero_lt_of_lt holds.inside
  have smaller : items.length < ring.room := holds.fits
  constructor
  · exact Nat.mod_lt _ positive
  · exact Nat.le_of_lt smaller
  · exact Nat.sub_eq_of_eq_add holds.size
  · intro i below
    have other : ring.slot (i + 1) ≠ ring.first := by
      rw [← slot_zero holds.inside]
      exact (slot_distinct (Nat.zero_lt_succ i) (Nat.lt_of_le_of_lt below smaller)).symm
    rw [pop_slot]
    exact (Function.update_of_ne other ..).trans (holds.stored (i + 1) (Nat.succ_lt_succ below))

theorem Holds.unique {items' : List Item} (holds : Holds ring items) (holds' : Holds ring items') :
    items = items' := by
  have same : items.length = items'.length := holds.size.symm.trans holds'.size
  apply List.ext_getElem?
  intro i
  by_cases below : i < items.length
  · exact (holds.stored i below).symm.trans (holds'.stored i (same ▸ below))
  · rw [List.getElem?_eq_none (Nat.le_of_not_lt below),
      List.getElem?_eq_none (same ▸ Nat.le_of_not_lt below)]

end LazyAS.CircularBuffer

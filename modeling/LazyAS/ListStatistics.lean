import Mathlib.Data.List.Nodup
import Mathlib.Order.Lattice

/-! Values collected under their keys, and the value of a rank in a list. -/
namespace LazyAS.ListStatistics

section
variable {κ ν : Type} [DecidableEq κ]

/-- One more value under a key, which is new at the end where it was not there. -/
def push (groups : List (κ × List ν)) (key : κ) (value : ν) : List (κ × List ν) :=
  if key ∈ groups.map Prod.fst then groups.map fun g => if g.1 = key then
    (g.1, g.2 ++ [value]) else g
  else groups ++ [(key, [value])]

def group (items : List (κ × ν)) : List (κ × List ν) :=
  items.foldl (fun groups item => push groups item.1 item.2) []

def valuesAt (items : List (κ × ν)) (key : κ) : List ν :=
  (items.filter fun item => item.1 = key).map Prod.snd

structure Groups (items : List (κ × ν)) (groups : List (κ × List ν)) : Prop where
  distinct : (groups.map Prod.fst).Nodup
  keys : ∀ key, key ∈ groups.map Prod.fst ↔ key ∈ items.map Prod.fst
  values : ∀ g ∈ groups, g.2 = valuesAt items g.1

theorem valuesAt_append (items : List (κ × ν)) (item : κ × ν) (key : κ) :
    valuesAt (items ++ [item]) key = valuesAt items key ++
      (if item.1 = key then [item.2] else []) := by
  by_cases same : item.1 = key
  · simp [valuesAt, List.filter_append, same]
  · simp [valuesAt, List.filter_append, same]

theorem valuesAt_none (items : List (κ × ν)) (key : κ) (none' : key ∉ items.map Prod.fst) :
    valuesAt items key = [] := by
  rw [valuesAt, List.map_eq_nil_iff, List.filter_eq_nil_iff]
  intro item member same
  apply none'
  rw [← of_decide_eq_true same]
  exact List.mem_map_of_mem member

theorem push_keys (groups : List (κ × List ν)) (key : κ) (value : ν) :
    (push groups key value).map Prod.fst =
    if key ∈ groups.map Prod.fst then groups.map Prod.fst else groups.map Prod.fst ++ [key] := by
  unfold push
  split
  · rw [List.map_map]
    apply List.map_congr_left
    intro g _
    simp only [Function.comp]
    split <;> rfl
  · rw [List.map_append]
    rfl

theorem push_groups {items : List (κ × ν)} {groups : List (κ × List ν)}
    (before : Groups items groups) (key : κ) (value : ν) :
    Groups (items ++ [(key, value)]) (push groups key value) := by
  constructor
  · rw [push_keys]
    split
    · exact before.distinct
    · next fresh => exact List.nodup_append.mpr ⟨before.distinct, List.nodup_singleton key, by
        intro a inside b last
        rw [List.mem_singleton.mp last]
        rintro rfl
        exact fresh inside⟩
  · intro other
    have known := before.keys other
    rw [push_keys, List.map_append, List.mem_append, ← known]
    split
    · next inside =>
        constructor
        · exact .inl
        · rintro (listed | last)
          · exact listed
          · rw [List.mem_singleton.mp last]
            exact inside
    · exact List.mem_append
  · intro g member
    rw [valuesAt_append]
    unfold push at member
    split at member
    · obtain ⟨old, inside, rfl⟩ := List.mem_map.mp member
      by_cases same : old.1 = key
      · rw [if_pos same, if_pos same.symm, before.values old inside]
      · rw [if_neg same, if_neg (Ne.symm same), before.values old inside, List.append_nil]
    · next fresh =>
        rcases List.mem_append.mp member with inside | last
        · have apart : key ≠ g.1 := by
            rintro rfl
            exact fresh (List.mem_map_of_mem inside)
          rw [if_neg apart, List.append_nil]
          exact before.values g inside
        · rw [List.mem_singleton.mp last, if_pos rfl]
          have none' : key ∉ items.map Prod.fst := fun listed =>
              fresh ((before.keys key).mpr listed)
          rw [valuesAt_none items key none']
          rfl

theorem group_groups (items : List (κ × ν)) : Groups items (group items) := by
  have step (done rest : List (κ × ν)) (groups : List (κ × List ν)) (before : Groups done groups) :
      Groups (done ++ rest) (rest.foldl (fun groups item => push groups item.1 item.2) groups) := by
    induction rest generalizing done groups with
    | nil => simpa using before
    | cons item rest ih =>
        have next := ih (done ++ [item]) _ (push_groups before item.1 item.2)
        rwa [List.append_assoc] at next
  have start : Groups ([] : List (κ × ν)) [] := by
    constructor
    · exact List.nodup_nil
    · intro key
      rfl
    · intro g member
      exact absurd member List.not_mem_nil
  exact step [] items [] start

end

section
variable {α : Type} [LinearOrder α]

/-- No more than `rank` values are smaller, and more than `rank` are not larger. -/
structure HasRank (values : List α) (rank : Nat) (value : α) : Prop where
  below : values.countP (· < value) ≤ rank
  upTo : rank < values.countP (· ≤ value)

theorem HasRank.perm {values others : List α} {rank : Nat} {value : α}
    (has : HasRank values rank value) (same : values.Perm others) : HasRank others rank value := by
  constructor
  · rw [← same.countP_eq]
    exact has.below
  · rw [← same.countP_eq]
    exact has.upTo

theorem HasRank.mem {values : List α} {rank : Nat} {value : α} (has : HasRank values rank value) :
    value ∈ values := by
  by_contra absent
  have fewer : values.countP (· ≤ value) ≤ values.countP (· < value) := by
    apply List.countP_mono_left
    intro other member le
    rw [decide_eq_true_eq] at *
    exact lt_of_le_of_ne le fun same => absent (same ▸ member)
  have below := has.below
  have upTo := has.upTo
  omega

theorem place_rank (values : List α) (order : values.Pairwise (· ≤ ·)) (rank : Nat)
    (inside : rank < values.length) :
    HasRank values rank values[rank] := by
  -- in a sorted list a value has the rank of its place
  have place := List.pairwise_iff_getElem.mp order
  have split (count : Nat) (test : α → Bool) :
      values.countP test = (values.take count).countP test + (values.drop count).countP test := by
    rw [← List.countP_append, List.take_append_drop]
  constructor
  · have rest : (values.drop rank).countP (· < values[rank]) = 0 := by
      rw [List.countP_eq_zero]
      intro value member
      obtain ⟨i, short, rfl⟩ := List.getElem_of_mem member
      rw [List.getElem_drop]
      simp only [decide_eq_true_eq, not_lt]
      rw [List.length_drop] at short
      rcases Nat.eq_zero_or_pos i with rfl | later
      · exact le_refl _
      · exact place rank (rank + i) inside (by omega) (by omega)
    have first : (values.take rank).countP (· < values[rank]) ≤ (values.take rank).length :=
      List.countP_le_length
    rw [List.length_take] at first
    rw [split rank]
    omega
  · have first : (values.take (rank + 1)).countP (· ≤ values[rank]) =
        (values.take (rank + 1)).length := by
      rw [List.countP_eq_length]
      intro value member
      obtain ⟨i, short, rfl⟩ := List.getElem_of_mem member
      rw [List.getElem_take]
      rw [List.length_take] at short
      simp only [decide_eq_true_eq]
      rcases Nat.lt_or_ge i rank with before | here
      · exact place i rank (by omega) inside before
      · have last : i = rank := by omega
        subst last
        exact le_refl _
    rw [split (rank + 1), first, List.length_take]
    omega

theorem sorted_rank (values : List α) (rank : Nat) (inside : rank < values.length) :
    ∃ value, (values.mergeSort (fun a b => decide (a ≤ b)))[rank]? = some value ∧
      HasRank values rank value := by
  have same := List.mergeSort_perm values (fun a b => decide (a ≤ b))
  have order := @List.pairwise_mergeSort α (fun a b => decide (a ≤ b))
    (fun a b c first second => by simp only [decide_eq_true_eq] at *; exact le_trans first second)
    (fun a b => by simpa using le_total a b) values
  have long : rank < (values.mergeSort (fun a b => decide (a ≤ b))).length := by rwa
      [same.length_eq]
  exact ⟨_, List.getElem?_eq_getElem long,
    (place_rank _ (order.imp fun le => of_decide_eq_true le) rank long).perm same⟩

end

end LazyAS.ListStatistics

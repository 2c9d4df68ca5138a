import Mathlib.Data.List.Nodup
import Mathlib.Logic.Function.Basic

/-! Singly linked chains in a heap. A block holds its data and the address of the next
block, and address 0 is the null pointer. `Chain` lists what a pointer leads to; since the
list is finite, a chain ends and cannot run into itself. -/
namespace LazyAS.LinkedChain

abbrev Ptr := Nat

structure Cell (α : Type) where
  data : α
  pNext : Ptr
  deriving DecidableEq

abbrev Heap (α : Type) := Ptr → Option (Cell α)

variable {α : Type}

/-- From `p` the heap leads through the listed blocks to the null pointer. -/
def Chain (heap : Heap α) : Ptr → List (Ptr × α) → Prop
  | p, [] => p = 0
  | p, block :: rest =>
      p = block.1 ∧ p ≠ 0 ∧ ∃ next, heap p = some ⟨block.2, next⟩ ∧ Chain heap next rest

def pointers (blocks : List (Ptr × α)) : List Ptr := blocks.map Prod.fst

def contents (blocks : List (Ptr × α)) : List α := blocks.map Prod.snd

@[simp] theorem pointers_nil : pointers ([] : List (Ptr × α)) = [] := rfl

@[simp] theorem pointers_cons (block : Ptr × α) (rest : List (Ptr × α)) :
    pointers (block :: rest) = block.1 :: pointers rest := rfl

@[simp] theorem pointers_append (front back : List (Ptr × α)) :
    pointers (front ++ back) = pointers front ++ pointers back := List.map_append

@[simp] theorem contents_nil : contents ([] : List (Ptr × α)) = [] := rfl

@[simp] theorem contents_cons (block : Ptr × α) (rest : List (Ptr × α)) :
    contents (block :: rest) = block.2 :: contents rest := rfl

@[simp] theorem contents_append (front back : List (Ptr × α)) :
    contents (front ++ back) = contents front ++ contents back := List.map_append

theorem Chain.unique {heap : Heap α} {p : Ptr} {left right : List (Ptr × α)}
    (first : Chain heap p left) (second : Chain heap p right) : left = right := by
  induction left generalizing p right with
  | nil =>
      cases right with
      | nil => rfl
      | cons block rest => exact absurd first second.2.1
  | cons block rest ih =>
      cases right with
      | nil => exact absurd second first.2.1
      | cons other tail =>
          obtain ⟨here, _, next, live, along⟩ := first
          obtain ⟨there, _, next', live', along'⟩ := second
          obtain ⟨same, link⟩ := Cell.mk.inj (Option.some.inj (live.symm.trans live'))
          subst link
          rw [ih along along', Prod.ext (here.symm.trans there) same]

theorem Chain.live {heap : Heap α} {p : Ptr} {blocks : List (Ptr × α)} (chain : Chain heap p blocks)
    (block : Ptr × α) (member : block ∈ blocks) : ∃ next, heap block.1 = some ⟨block.2, next⟩ := by
  induction blocks generalizing p with
  | nil => cases member
  | cons first rest ih =>
      obtain ⟨rfl, _, next, live, along⟩ := chain
      cases member with
      | head => exact ⟨next, live⟩
      | tail _ later => exact ih along later

theorem Chain.nonnull {heap : Heap α} {p : Ptr} {blocks : List (Ptr × α)}
    (chain : Chain heap p blocks) (block : Ptr × α) (member : block ∈ blocks) : block.1 ≠ 0 := by
  induction blocks generalizing p with
  | nil => cases member
  | cons first rest ih =>
      obtain ⟨rfl, nonnull, next, _, along⟩ := chain
      cases member with
      | head => exact nonnull
      | tail _ later => exact ih along later

theorem Chain.null_apart {heap : Heap α} {p : Ptr} {blocks : List (Ptr × α)}
    (chain : Chain heap p blocks) : 0 ∉ pointers blocks := by
  intro member
  obtain ⟨block, listed, zero⟩ := List.mem_map.mp member
  exact chain.nonnull block listed zero

theorem Chain.frame {heap after : Heap α} {p : Ptr} {blocks : List (Ptr × α)}
    (chain : Chain heap p blocks) (same : ∀ q ∈ pointers blocks, after q = heap q) :
    Chain after p blocks := by
  induction blocks generalizing p with
  | nil => exact chain
  | cons first rest ih =>
      obtain ⟨rfl, nonnull, next, live, along⟩ := chain
      refine ⟨rfl, nonnull, next, ?_, ih along ?_⟩
      · rw [same first.1 (List.mem_cons_self ..), live]
      · intro q member
        exact same q (List.mem_cons_of_mem _ member)

theorem Chain.pointers_nodup {heap : Heap α} {p : Ptr} {blocks : List (Ptr × α)}
    (chain : Chain heap p blocks) (distinct : (contents blocks).Nodup) :
    (pointers blocks).Nodup := by
  refine List.Nodup.map_on ?_ (List.Nodup.of_map _ distinct)
  intro left first right second same
  obtain ⟨next, live⟩ := chain.live left first
  obtain ⟨next', live'⟩ := chain.live right second
  rw [same, live'] at live
  exact Prod.ext same (Cell.mk.inj (Option.some.inj live)).1.symm

theorem Chain.push {heap : Heap α} {p : Ptr} {blocks : List (Ptr × α)} (chain : Chain heap p blocks)
    (block : Ptr) (nonnull : block ≠ 0) (free : heap block = none) (data : α) :
    Chain (Function.update heap block (some ⟨data, p⟩)) block ((block, data) :: blocks) := by
  refine ⟨rfl, nonnull, p, by simp, chain.frame ?_⟩
  intro q member
  obtain ⟨entry, listed, rfl⟩ := List.mem_map.mp member
  have other : entry.1 ≠ block := by
    intro same
    obtain ⟨next, live⟩ := chain.live entry listed
    rw [same, free] at live
    cases live
  exact Function.update_of_ne other ..

theorem Chain.relink {heap : Heap α} {p q : Ptr} {before rest tail : List (Ptr × α)}
    {block : Ptr × α} (chain : Chain heap p (before ++ block :: rest))
    (distinct : (pointers (before ++ block :: rest)).Nodup) (along : Chain heap q tail)
    (apart : block.1 ∉ pointers tail) :
    Chain (Function.update heap block.1 (some ⟨block.2, q⟩)) p (before ++ block :: tail) := by
  induction before generalizing p with
  | nil =>
      obtain ⟨rfl, nonnull, _⟩ := chain
      refine ⟨rfl, nonnull, q, by simp, along.frame ?_⟩
      intro r member
      have other : r ≠ block.1 := by
        rintro rfl
        exact apart member
      exact Function.update_of_ne other ..
  | cons first before ih =>
      obtain ⟨rfl, nonnull, next, live, onward⟩ := chain
      obtain ⟨fresh, others⟩ := List.nodup_cons.mp distinct
      have other : first.1 ≠ block.1 := by
        intro same
        apply fresh
        rw [same]
        simp
      exact ⟨rfl, nonnull, next, by rw [Function.update_of_ne other, live], ih onward others⟩

theorem Chain.rewrite {heap : Heap α} {p : Ptr} {before rest : List (Ptr × α)} {block : Ptr × α}
    (chain : Chain heap p (before ++ block :: rest))
    (distinct : (pointers (before ++ block :: rest)).Nodup) (data : α) :
    ∃ next, heap block.1 = some ⟨block.2, next⟩ ∧
      Chain (Function.update heap block.1 (some ⟨data, next⟩)) p
        (before ++ (block.1, data) :: rest) := by
  induction before generalizing p with
  | nil =>
      obtain ⟨rfl, nonnull, next, live, along⟩ := chain
      refine ⟨next, live, rfl, nonnull, next, by simp, along.frame ?_⟩
      intro q member
      have other : q ≠ block.1 := by
        rintro rfl
        exact (List.nodup_cons.mp distinct).1 member
      exact Function.update_of_ne other ..
  | cons first before ih =>
      obtain ⟨rfl, nonnull, next, live, onward⟩ := chain
      obtain ⟨fresh, others⟩ := List.nodup_cons.mp distinct
      obtain ⟨link, found, changed⟩ := ih onward others
      have other : first.1 ≠ block.1 := by
        intro same
        apply fresh
        rw [same]
        simp
      exact ⟨link, found, rfl, nonnull, next, by rw [Function.update_of_ne other, live], changed⟩

end LazyAS.LinkedChain

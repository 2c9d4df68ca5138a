import Mathlib.Algebra.Order.Ring.Nat
import Mathlib.Data.BitVec
import Mathlib.Data.Finset.Card
import Mathlib.Data.Finset.Range
import Mathlib.Data.List.Nodup
import Mathlib.Data.Nat.ModEq
import Mathlib.Data.Nat.Prime.Basic
import Mathlib.Logic.Function.Basic

/-! Steps of a hash function that lose nothing: rotations, xors with a shifted copy, products with
odd numbers, and the absorption of one block after the other. The width of a word, the state and the
blocks are parameters. -/
namespace LazyAS.WordMixing

section
variable {w : Nat}

def rotl (x : BitVec w) (r : Nat) : BitVec w := (x <<< r) ||| (x >>> (w - r))

theorem rotl_bit (x : BitVec w) (r i : Nat) (inside : i < w) (less : r ≤ w) :
    (rotl x r).getLsbD ((i + r) % w) = x.getLsbD i := by
  rw [rotl, BitVec.getLsbD_or, BitVec.getLsbD_shiftLeft, BitVec.getLsbD_ushiftRight]
  by_cases stays : i + r < w
  · rw [Nat.mod_eq_of_lt stays]
    have fallen : x.getLsbD (w - r + (i + r)) = false := BitVec.getLsbD_of_ge x _ (by omega)
    simp [stays, fallen]
  · have around : (i + r) % w = i + r - w := by
      rw [Nat.mod_eq_sub_mod (by omega), Nat.mod_eq_of_lt (by omega)]
    have low : i + r - w < r := by omega
    have back : w - r + (i + r - w) = i := by omega
    simp [around, low, back]

theorem rotl_inj (r : Nat) (less : r ≤ w) {x y : BitVec w} : rotl x r = rotl y r ↔ x = y := by
  constructor
  · intro same
    apply BitVec.eq_of_getLsbD_eq
    intro i inside
    rw [← rotl_bit x r i inside less, same, rotl_bit y r i inside less]
  · exact fun same => same ▸ rfl

theorem xorShift_inj (k : Nat) (positive : 0 < k) {x y : BitVec w} :
    x ^^^ (x >>> k) = y ^^^ (y >>> k) ↔ x = y := by
  constructor
  · intro same
    have bits (n : Nat) : ∀ i, w ≤ i + n → x.getLsbD i = y.getLsbD i := by
      induction n with
      | zero =>
          intro i outside
          rw [BitVec.getLsbD_of_ge x i outside, BitVec.getLsbD_of_ge y i outside]
      | succ n ih =>
          intro i high
          have here := congrArg (fun word => word.getLsbD i) same
          simp only [BitVec.getLsbD_xor, BitVec.getLsbD_ushiftRight] at here
          rw [ih (k + i) (by omega)] at here
          exact Bool.xor_left_inj.mp here
    exact BitVec.eq_of_getLsbD_eq fun i _ => bits w i (Nat.le_add_left w i)
  · exact fun same => same ▸ rfl

theorem mul_inj {c : BitVec w} (odd : Odd c.toNat) {x y : BitVec w} : x * c = y * c ↔ x = y := by
  constructor
  · intro same
    have products : x.toNat * c.toNat ≡ y.toNat * c.toNat [MOD 2 ^ w] := by
      have numbers := congrArg BitVec.toNat same
      rwa [BitVec.toNat_mul, BitVec.toNat_mul] at numbers
    have coprime : Nat.Coprime (2 ^ w) c.toNat :=
      Nat.Coprime.pow_left w (Nat.coprime_two_left.mpr odd)
    have factors := products.cancel_right_of_coprime coprime
    exact BitVec.eq_of_toNat_eq (factors.eq_of_lt_of_lt x.isLt y.isLt)
  · exact fun same => same ▸ rfl

end

/-! Bytes in a word. -/

section
variable {w : Nat}

abbrev Byte := BitVec 8

/-- The cases of a `switch` from `n` down to 1, each falling through to the next: `k ^= tail[n - 1]
<< 8 * (n - 1)`. -/
def fallThrough (tail : Nat → Byte) : Nat → BitVec w → BitVec w
  | 0, k => k
  | n + 1, k => fallThrough tail n (k ^^^ ((tail n).setWidth w <<< (8 * n)))

theorem fallThrough_bit (tail : Nat → Byte) (n : Nat) (k : BitVec w) (i : Nat) (inside : i < w) :
    (fallThrough tail n k).getLsbD i =
      (k.getLsbD i ^^ (decide (i < 8 * n) && (tail (i / 8)).getLsbD (i % 8))) := by
  induction n generalizing k with
  | zero => simp [fallThrough]
  | succ n ih =>
      rw [fallThrough, ih, BitVec.getLsbD_xor, BitVec.getLsbD_shiftLeft, BitVec.getLsbD_setWidth]
      rcases Nat.lt_trichotomy (i / 8) n with low | here | high
      · have below : i < 8 * n := by omega
        have below' : i < 8 * (n + 1) := by omega
        simp [below, below']
      · have above : ¬ i < 8 * n := by omega
        have below : i < 8 * (n + 1) := by omega
        have rest : i - 8 * n = i % 8 := by omega
        have width : i % 8 < w := by omega
        simp [above, below, inside, rest, width, here]
      · have above : ¬ i < 8 * n := by omega
        have above' : ¬ i < 8 * (n + 1) := by omega
        have none : (tail n).getLsbD (i - 8 * n) = false := BitVec.getLsbD_of_ge _ _ (by omega)
        simp [above, above', none]

theorem fallThrough_inj (tail tail' : Nat → Byte) (n : Nat) (k : BitVec w) (fits : 8 * n ≤ w) :
    fallThrough tail n k = fallThrough tail' n k ↔ ∀ j < n, tail j = tail' j := by
  constructor
  · intro same j below
    apply BitVec.eq_of_getLsbD_eq
    intro i inside
    have bit := congrArg (fun word => word.getLsbD (8 * j + i)) same
    simp only [fallThrough_bit _ n k (8 * j + i) (by omega)] at bit
    have under : 8 * j + i < 8 * n := by omega
    have place : (8 * j + i) / 8 = j := by omega
    have rest : (8 * j + i) % 8 = i := by omega
    rw [place, rest, decide_eq_true under, Bool.true_and, Bool.true_and] at bit
    exact Bool.xor_right_inj.mp bit
  · intro same
    induction n generalizing k with
    | zero => rfl
    | succ n ih =>
        rw [fallThrough, fallThrough, same n (Nat.lt_succ_self n)]
        exact ih _ (by omega) fun j below => same j (Nat.lt_succ_of_lt below)

end

/-! Blocks. -/

section
variable {State Block Index : Type*} {absorb : State → Block → State}

theorem absorb_inj (states : ∀ block, Function.Injective fun state => absorb state block)
    (indices : List Index) (block : Index → Block) {state state' : State} :
    indices.foldl (fun s i => absorb s (block i)) state =
      indices.foldl (fun s i => absorb s (block i)) state' ↔
      state = state' := by
  constructor
  · intro same
    induction indices generalizing state state' with
    | nil => exact same
    | cons i indices ih => exact states (block i) (ih same)
  · exact fun same => same ▸ rfl

theorem absorb_one (states : ∀ block, Function.Injective fun state => absorb state block)
    (blocks : ∀ state, Function.Injective (absorb state)) (indices : List Index)
    (once : indices.Nodup)
    (block block' : Index → Block) (m : Index) (member : m ∈ indices)
    (same : ∀ i ∈ indices, i ≠ m → block i = block' i) (state : State) :
    indices.foldl (fun s i => absorb s (block i)) state =
      indices.foldl (fun s i => absorb s (block' i)) state ↔
      block m = block' m := by
  -- where two rows of blocks differ in one place at most, they end alike exactly if they are alike
  -- there
  induction indices generalizing state with
  | nil => cases member
  | cons i indices ih =>
      obtain ⟨new, once⟩ := List.nodup_cons.mp once
      rw [List.foldl_cons, List.foldl_cons]
      by_cases here : i = m
      · subst here
        have rest (state : State) : indices.foldl (fun s i => absorb s (block i)) state =
            indices.foldl (fun s i => absorb s (block' i)) state := by
          apply List.foldl_ext
          intro s j listed
          rw [same j (List.mem_cons_of_mem _ listed) fun wrong => new (wrong ▸ listed)]
        rw [← rest, absorb_inj states]
        exact (blocks state).eq_iff
      · rw [same i List.mem_cons_self here]
        apply ih once
        · exact (List.mem_cons.mp member).resolve_left fun wrong => here wrong.symm
        · exact fun j listed => same j (List.mem_cons_of_mem _ listed)

end

/-! Keys. -/

section
variable {State Block Digest : Type*}

/-- A hash function that absorbs a key block by block and then the bytes that are left, and no step
of which loses anything. -/
structure Scheme (State Block Digest : Type*) where
  width : Nat
  positive : 0 < width
  read : (Nat → Byte) → Block
  absorb : State → Block → State
  finish : Nat → (Nat → Byte) → State → Digest
  reads : ∀ bytes bytes', read bytes = read bytes' ↔ ∀ j < width, bytes j = bytes' j
  states : ∀ block, Function.Injective fun state => absorb state block
  blocks : ∀ state, Function.Injective (absorb state)
  ends : ∀ length tail, Function.Injective (finish length tail)
  tails : ∀ length state tail tail',
    finish length tail state = finish length tail' state ↔ ∀ j < length % width, tail j = tail' j

def byteAt (key : List Byte) (i : Nat) : Byte := key.getD i 0

def Scheme.body (scheme : Scheme State Block Digest) (key : List Byte) (state : State) : State :=
  (List.range (key.length / scheme.width)).foldl
    (fun s i => scheme.absorb s (scheme.read fun j => byteAt key (scheme.width * i + j))) state

def Scheme.hash (scheme : Scheme State Block Digest) (key : List Byte) (state : State) : Digest :=
  scheme.finish key.length (fun j => byteAt key (scheme.width * (key.length / scheme.width) + j))
    (scheme.body key state)

variable (scheme : Scheme State Block Digest)

theorem byteAt_ext {key key' : List Byte} (size : key.length = key'.length)
    (same : ∀ i < key.length, byteAt key i = byteAt key' i) : key = key' := by
  apply List.ext_getElem size
  intro i below below'
  have here := same i below
  simpa [byteAt, below, below'] using here

theorem Scheme.hash_separates {key key' : List Byte} (size : key.length = key'.length) (m : Nat)
    (same : ∀ i, i / scheme.width ≠ m → byteAt key i = byteAt key' i) (state : State) :
    scheme.hash key state = scheme.hash key' state ↔ key = key' := by
  -- two keys of one length that differ within one block at most have the same hash only if they are
  -- the same
  constructor
  · intro equal
    apply byteAt_ext size
    intro i below
    by_cases here : i / scheme.width = m
    · subst here
      have row : scheme.width * (i / scheme.width) + i % scheme.width = i :=
        Nat.div_add_mod i scheme.width
      have column : i % scheme.width < scheme.width := Nat.mod_lt i scheme.positive
      have place (n j : Nat) (small : j < scheme.width) : (scheme.width * n + j) / scheme.width =
          n := by
        rw [Nat.mul_add_div scheme.positive, Nat.div_eq_of_lt small, Nat.add_zero]
      by_cases within : i / scheme.width < key.length / scheme.width
      · -- the rest behind the blocks is the same, so the blocks give the same state
        have tail (j : Nat) (small : j < key.length % scheme.width) :
            byteAt key (scheme.width * (key.length / scheme.width) + j) =
              byteAt key' (scheme.width * (key'.length / scheme.width) + j) := by
          rw [← size]
          apply same
          rw [place _ j (Nat.lt_trans small (Nat.mod_lt _ scheme.positive))]
          exact Nat.ne_of_gt within
        unfold Scheme.hash at equal
        rw [(scheme.tails key.length _ _ _).mpr tail, size] at equal
        have bodies := scheme.ends _ _ equal
        unfold Scheme.body at bodies
        rw [size, absorb_one scheme.states scheme.blocks _ List.nodup_range _ _ (i / scheme.width)
          (List.mem_range.mpr (size ▸ within))] at bodies
        · have byte := (scheme.reads _ _).mp bodies (i % scheme.width) column
          rwa [row] at byte
        · intro n listed other
          rw [scheme.reads]
          intro j small
          apply same
          rwa [place n j small]
      · -- the blocks are the same, so the rest behind them is
        have last : i / scheme.width = key.length / scheme.width :=
          Nat.le_antisymm (Nat.div_le_div_right (Nat.le_of_lt below)) (Nat.le_of_not_lt within)
        have bodies : scheme.body key state = scheme.body key' state := by
          unfold Scheme.body
          rw [← size]
          apply List.foldl_ext
          intro s n listed
          congr 1
          rw [scheme.reads]
          intro j small
          apply same
          rw [place n j small, last]
          exact Nat.ne_of_lt (List.mem_range.mp listed)
        unfold Scheme.hash at equal
        rw [bodies, ← size, scheme.tails] at equal
        have small : i % scheme.width < key.length % scheme.width := by
          have whole := Nat.div_add_mod key.length scheme.width
          rw [last] at row
          omega
        have byte := equal (i % scheme.width) small
        rwa [← last, row] at byte
    · exact same i here
  · exact fun equal => equal ▸ rfl

end

/-! Residues. -/

section

theorem residues_even (size rows i : Nat) (inside : i < size) :
    ((Finset.range (size * rows)).filter fun n => n % size = i).card = rows := by
  -- a multiple of `size` numbers leave each residue equally often
  have pairs : ((Finset.range (size * rows)).filter fun n => n % size = i).card =
      (Finset.range rows).card := by
    apply Finset.card_nbij' (fun n => n / size) (fun row => size * row + i)
    · intro n member
      obtain ⟨below, _⟩ := Finset.mem_filter.mp member
      exact Finset.mem_coe.mpr
        (Finset.mem_range.mpr (Nat.div_lt_of_lt_mul (Finset.mem_range.mp below)))
    · intro row member
      have below := Finset.mem_range.mp (Finset.mem_coe.mp member)
      apply Finset.mem_coe.mpr
      apply Finset.mem_filter.mpr
      constructor
      · apply Finset.mem_range.mpr
        calc size * row + i < size * row + size := Nat.add_lt_add_left inside _
          _ = size * (row + 1) := rfl
          _ ≤ size * rows := Nat.mul_le_mul_left size below
      · rw [Nat.mul_add_mod, Nat.mod_eq_of_lt inside]
    · intro n member
      obtain ⟨_, residue⟩ := Finset.mem_filter.mp (Finset.mem_coe.mp member)
      simp only
      rw [← residue]
      exact Nat.div_add_mod n size
    · intro row _
      simp only
      rw [Nat.mul_add_div (Nat.lt_of_le_of_lt (Nat.zero_le i) inside), Nat.div_eq_of_lt inside,
        Nat.add_zero]
  rw [pairs, Finset.card_range]

theorem rearranged_even (g : Nat → Nat) (size rows i : Nat) (inside : i < size)
    (into : ∀ n < size * rows, g n < size * rows)
    (injective : ∀ n < size * rows, ∀ n' < size * rows, g n = g n' → n = n') :
    ((Finset.range (size * rows)).filter fun n => g n % size = i).card = rows := by
  have once : Set.InjOn g (Finset.range (size * rows)) := by
    intro n below n' below' same
    exact injective n (Finset.mem_range.mp below) n' (Finset.mem_range.mp below') same
  have onto : (Finset.range (size * rows)).image g = Finset.range (size * rows) := by
    apply Finset.eq_of_subset_of_card_le
    · intro value member
      obtain ⟨n, below, rfl⟩ := Finset.mem_image.mp member
      exact Finset.mem_range.mpr (into n (Finset.mem_range.mp below))
    · rw [Finset.card_image_of_injOn once]
  calc ((Finset.range (size * rows)).filter fun n => g n % size = i).card
      = (((Finset.range (size * rows)).filter fun n => g n % size = i).image g).card := by
        rw [Finset.card_image_of_injOn
          (once.mono (Finset.coe_subset.mpr (Finset.filter_subset _ _)))]
    _ = (((Finset.range (size * rows)).image g).filter fun n => n % size = i).card := by
        rw [Finset.filter_image]
    _ = rows := by rw [onto, residues_even size rows i inside]

end

end LazyAS.WordMixing

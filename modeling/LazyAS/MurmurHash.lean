import LazyAS.WordMixing
import LazyAS.SessionKey
import Mathlib.Data.Fintype.Card

/-! The hash functions of `murmur.c`. A key is the list of its bytes, and the words that `getblock`
reads are little-endian, as on the routers of the package. The index of an entry in the hash table
comes from the first of the three; `ht_init` sets all of them. -/
namespace LazyAS.MurmurHash
open WordMixing

abbrev Word32 := BitVec 32

abbrev Word64 := BitVec 64

def rotl32 (x : Word32) (r : Nat) : Word32 := rotl x r

def rotl64 (x : Word64) (r : Nat) : Word64 := rotl x r

def fmix32 (h : Word32) : Word32 :=
  let h := h ^^^ (h >>> 16)
  let h := h * 0x85ebca6b
  let h := h ^^^ (h >>> 13)
  let h := h * 0xc2b2ae35
  h ^^^ (h >>> 16)

def fmix64 (k : Word64) : Word64 :=
  let k := k ^^^ (k >>> 33)
  let k := k * 0xff51afd7ed558ccd
  let k := k ^^^ (k >>> 33)
  let k := k * 0xc4ceb9fe1a85ec53
  k ^^^ (k >>> 33)

theorem fmix32_inj {x y : Word32} : fmix32 x = fmix32 y ↔ x = y := by
  simp only [fmix32]
  rw [xorShift_inj 16 (by decide), mul_inj (by decide), xorShift_inj 13 (by decide),
    mul_inj (by decide), xorShift_inj 16 (by decide)]

theorem fmix64_inj {x y : Word64} : fmix64 x = fmix64 y ↔ x = y := by
  simp only [fmix64]
  rw [xorShift_inj 33 (by decide), mul_inj (by decide), xorShift_inj 33 (by decide),
    mul_inj (by decide), xorShift_inj 33 (by decide)]

/-! `MurmurHash3_x86_32`. -/

namespace X86_32

def c1 : Word32 := 0xcc9e2d51

def c2 : Word32 := 0x1b873593

def scramble (k1 : Word32) : Word32 := rotl32 (k1 * c1) 15 * c2

def mix (h1 k1 : Word32) : Word32 := rotl32 (h1 ^^^ scramble k1) 13 * 5 + 0xe6546b64

def getblock (bytes : Nat → Byte) : Word32 := fallThrough bytes 4 0

def finish (len : Nat) (tail : Nat → Byte) (h1 : Word32) : Word32 :=
  let h1 := if len % 4 = 0 then h1 else h1 ^^^ scramble (fallThrough tail (len % 4) 0)
  fmix32 (h1 ^^^ BitVec.ofNat 32 len)

theorem scramble_inj {x y : Word32} : scramble x = scramble y ↔ x = y := by
  unfold scramble rotl32
  rw [mul_inj (by decide), rotl_inj 15 (by decide), mul_inj (by decide)]

theorem mix_inj {h h' k k' : Word32} :
    mix h k = mix h' k' ↔ h ^^^ scramble k = h' ^^^ scramble k' := by
  unfold mix rotl32
  rw [BitVec.add_left_inj, mul_inj (by decide), rotl_inj 13 (by decide)]

def scheme : Scheme Word32 Word32 Word32 where
  width := 4
  positive := by decide
  read := getblock
  absorb := mix
  finish := finish
  reads := fun bytes bytes' => fallThrough_inj bytes bytes' 4 0 (by decide)
  states := fun block h h' same => (BitVec.xor_left_inj _).mp (mix_inj.mp same)
  blocks := fun h k k' same => scramble_inj.mp ((BitVec.xor_right_inj _).mp (mix_inj.mp same))
  ends := by
    intro length tail h h' same
    have before := (BitVec.xor_left_inj _).mp (fmix32_inj.mp same)
    split at before
    · exact before
    · exact (BitVec.xor_left_inj _).mp before
  tails := by
    intro length h tail tail'
    unfold finish
    rw [fmix32_inj, BitVec.xor_left_inj]
    split
    · rename_i none
      simp [none]
    · rw [BitVec.xor_right_inj, scramble_inj, fallThrough_inj]
      have few := Nat.mod_lt length (show 4 > 0 by decide)
      omega

end X86_32

/-- The loop of the body counts up to zero, over the words before the end of the last one. -/
def murmurHash3X86_32 (key : List Byte) (seed : Word32) : Word32 :=
  let nblocks := key.length / 4
  let h1 := (List.range nblocks).foldl
      (fun h1 i => X86_32.mix h1 (X86_32.getblock fun j => byteAt key (4 * i + j))) seed
  X86_32.finish key.length (fun j => byteAt key (4 * nblocks + j)) h1

theorem x86_32_scheme (key : List Byte) (seed : Word32) :
    murmurHash3X86_32 key seed = X86_32.scheme.hash key seed := rfl

/-! A tail of several words. -/

/-- The cases of a tail that belong to one word of the state: `rest` is the number of bytes from the
first of them. -/
def absorbTail {w : Nat} (scramble : BitVec w → BitVec w) (rest : Nat) (tail : Nat → Byte)
    (h : BitVec w) : BitVec w :=
  if rest = 0 then h else h ^^^ scramble (fallThrough tail (min rest (w / 8)) 0)

theorem absorbTail_state {w : Nat} (scramble : BitVec w → BitVec w) (rest : Nat) (tail : Nat → Byte)
    {h h' : BitVec w} :
    absorbTail scramble rest tail h = absorbTail scramble rest tail h' ↔ h = h' := by
  unfold absorbTail
  split
  · exact Iff.rfl
  · exact BitVec.xor_left_inj _

theorem absorbTail_tail {w : Nat} {scramble : BitVec w → BitVec w}
    (injective : ∀ {x y}, scramble x = scramble y ↔ x = y) (rest : Nat) (tail tail' : Nat → Byte)
    (h : BitVec w) :
    absorbTail scramble rest tail h = absorbTail scramble rest tail' h ↔
      ∀ j < min rest (w / 8), tail j = tail' j := by
  unfold absorbTail
  split
  case isTrue none => simp [none]
  case isFalse => rw [BitVec.xor_right_inj, injective, fallThrough_inj _ _ _ _ (by omega)]

theorem cut (n rest : Nat) (P : Nat → Prop) :
    (∀ j < rest, P j) ↔ (∀ j < min rest n, P j) ∧ ∀ j < rest - n, P (n + j) := by
  constructor
  · intro all
    exact ⟨fun j below => all j (by omega), fun j below => all (n + j) (by omega)⟩
  · rintro ⟨first, others⟩ j below
    by_cases low : j < n
    · exact first j (by omega)
    · have here := others (j - n) (by omega)
      rwa [show n + (j - n) = j by omega] at here

theorem halves (rest : Nat) (few : rest ≤ 16) (P : Nat → Prop) :
    (∀ j < rest, P j) ↔ (∀ j < min rest 8, P j) ∧ ∀ j < min (rest - 8) 8, P (8 + j) := by
  rw [cut 8 rest, show min (rest - 8) 8 = rest - 8 by omega]

theorem quarters (rest : Nat) (few : rest ≤ 16) (P : Nat → Prop) :
    (∀ j < rest, P j) ↔ (∀ j < min rest 4, P j) ∧ (∀ j < min (rest - 4) 4, P (4 + j)) ∧
      (∀ j < min (rest - 8) 4, P (8 + j)) ∧ ∀ j < min (rest - 12) 4, P (12 + j) := by
  rw [cut 4 rest, cut 4 (rest - 4), cut 4 (rest - 4 - 4)]
  simp only [Nat.sub_sub, ← Nat.add_assoc, Nat.reduceAdd]
  rw [show min (rest - 12) 4 = rest - 12 by omega]

/-! `MurmurHash3_x86_128`. -/

namespace X86_128

/-- Four words: the state, a block of a key, the hash. -/
structure Words where
  h1 : Word32
  h2 : Word32
  h3 : Word32
  h4 : Word32
  deriving DecidableEq

def c1 : Word32 := 0x239b961b

def c2 : Word32 := 0xab0e9789

def c3 : Word32 := 0x38b34ae5

def c4 : Word32 := 0xa1e38b93

def scramble1 (k1 : Word32) : Word32 := rotl32 (k1 * c1) 15 * c2

def scramble2 (k2 : Word32) : Word32 := rotl32 (k2 * c2) 16 * c3

def scramble3 (k3 : Word32) : Word32 := rotl32 (k3 * c3) 17 * c4

def scramble4 (k4 : Word32) : Word32 := rotl32 (k4 * c4) 18 * c1

def mix (h k : Words) : Words :=
  let h1 := (rotl32 (h.h1 ^^^ scramble1 k.h1) 19 + h.h2) * 5 + 0x561ccd1b
  let h2 := (rotl32 (h.h2 ^^^ scramble2 k.h2) 17 + h.h3) * 5 + 0x0bcaa747
  let h3 := (rotl32 (h.h3 ^^^ scramble3 k.h3) 15 + h.h4) * 5 + 0x96cd1c35
  let h4 := (rotl32 (h.h4 ^^^ scramble4 k.h4) 13 + h1) * 5 + 0x32ac3b17
  ⟨h1, h2, h3, h4⟩

def getblock (bytes : Nat → Byte) : Words where
  h1 := fallThrough bytes 4 0
  h2 := fallThrough (fun j => bytes (4 + j)) 4 0
  h3 := fallThrough (fun j => bytes (8 + j)) 4 0
  h4 := fallThrough (fun j => bytes (12 + j)) 4 0

def spread (h : Words) : Words :=
  let h1 := h.h1 + h.h2 + h.h3 + h.h4
  ⟨h1, h.h2 + h1, h.h3 + h1, h.h4 + h1⟩

def finish (len : Nat) (tail : Nat → Byte) (h : Words) : Words :=
  let rest := len % 16
  let h4 := absorbTail scramble4 (rest - 12) (fun j => tail (12 + j)) h.h4
  let h3 := absorbTail scramble3 (rest - 8) (fun j => tail (8 + j)) h.h3
  let h2 := absorbTail scramble2 (rest - 4) (fun j => tail (4 + j)) h.h2
  let h1 := absorbTail scramble1 rest tail h.h1
  let length := BitVec.ofNat 32 len
  let h := spread ⟨h1 ^^^ length, h2 ^^^ length, h3 ^^^ length, h4 ^^^ length⟩
  spread ⟨fmix32 h.h1, fmix32 h.h2, fmix32 h.h3, fmix32 h.h4⟩

theorem scramble1_inj {x y : Word32} : scramble1 x = scramble1 y ↔ x = y := by
  unfold scramble1 rotl32
  rw [mul_inj (by decide), rotl_inj 15 (by decide), mul_inj (by decide)]

theorem scramble2_inj {x y : Word32} : scramble2 x = scramble2 y ↔ x = y := by
  unfold scramble2 rotl32
  rw [mul_inj (by decide), rotl_inj 16 (by decide), mul_inj (by decide)]

theorem scramble3_inj {x y : Word32} : scramble3 x = scramble3 y ↔ x = y := by
  unfold scramble3 rotl32
  rw [mul_inj (by decide), rotl_inj 17 (by decide), mul_inj (by decide)]

theorem scramble4_inj {x y : Word32} : scramble4 x = scramble4 y ↔ x = y := by
  unfold scramble4 rotl32
  rw [mul_inj (by decide), rotl_inj 18 (by decide), mul_inj (by decide)]

theorem spread_inj {h h' : Words} : spread h = spread h' ↔ h = h' := by
  constructor
  · intro same
    simp only [spread, Words.mk.injEq] at same
    obtain ⟨first, second, third, fourth⟩ := same
    rw [first, BitVec.add_left_inj] at second third fourth
    rw [second, third, fourth, BitVec.add_left_inj, BitVec.add_left_inj, BitVec.add_left_inj]
      at first
    cases h
    cases h'
    simp_all
  · exact fun same => same ▸ rfl

theorem mix_states (k : Words) : Function.Injective fun h => mix h k := by
  intro h h' same
  simp only [mix, Words.mk.injEq, rotl32] at same
  obtain ⟨first, second, third, fourth⟩ := same
  rw [first] at fourth
  rw [BitVec.add_left_inj, mul_inj (by decide)] at first second third fourth
  rw [BitVec.add_left_inj, rotl_inj 13 (by decide), BitVec.xor_left_inj] at fourth
  rw [fourth, BitVec.add_left_inj, rotl_inj 15 (by decide), BitVec.xor_left_inj] at third
  rw [third, BitVec.add_left_inj, rotl_inj 17 (by decide), BitVec.xor_left_inj] at second
  rw [second, BitVec.add_left_inj, rotl_inj 19 (by decide), BitVec.xor_left_inj] at first
  cases h
  cases h'
  simp_all

theorem mix_blocks (h : Words) : Function.Injective (mix h) := by
  intro k k' same
  simp only [mix, Words.mk.injEq, rotl32] at same
  obtain ⟨first, second, third, fourth⟩ := same
  rw [first] at fourth
  rw [BitVec.add_left_inj, mul_inj (by decide), BitVec.add_left_inj] at first second third fourth
  rw [rotl_inj 19 (by decide), BitVec.xor_right_inj, scramble1_inj] at first
  rw [rotl_inj 17 (by decide), BitVec.xor_right_inj, scramble2_inj] at second
  rw [rotl_inj 15 (by decide), BitVec.xor_right_inj, scramble3_inj] at third
  rw [rotl_inj 13 (by decide), BitVec.xor_right_inj, scramble4_inj] at fourth
  cases k
  cases k'
  simp_all

theorem finish_inj (len : Nat) {tail tail' : Nat → Byte} {h h' : Words} :
    finish len tail h = finish len tail' h' ↔
      absorbTail scramble1 (len % 16) tail h.h1 = absorbTail scramble1 (len % 16) tail' h'.h1 ∧
      absorbTail scramble2 (len % 16 - 4) (fun j => tail (4 + j)) h.h2 =
        absorbTail scramble2 (len % 16 - 4) (fun j => tail' (4 + j)) h'.h2 ∧
      absorbTail scramble3 (len % 16 - 8) (fun j => tail (8 + j)) h.h3 =
        absorbTail scramble3 (len % 16 - 8) (fun j => tail' (8 + j)) h'.h3 ∧
      absorbTail scramble4 (len % 16 - 12) (fun j => tail (12 + j)) h.h4 =
        absorbTail scramble4 (len % 16 - 12) (fun j => tail' (12 + j)) h'.h4 := by
  have mixed (x y : Words) : Words.mk (fmix32 x.h1) (fmix32 x.h2) (fmix32 x.h3) (fmix32 x.h4) =
      Words.mk (fmix32 y.h1) (fmix32 y.h2) (fmix32 y.h3) (fmix32 y.h4) ↔ x = y := by
    cases x
    cases y
    simp only [Words.mk.injEq, fmix32_inj]
  simp only [finish]
  rw [spread_inj, mixed, spread_inj]
  simp only [Words.mk.injEq, BitVec.xor_left_inj]

def scheme : Scheme Words Words Words where
  width := 16
  positive := by decide
  read := getblock
  absorb := mix
  finish := finish
  reads := by
    intro bytes bytes'
    rw [quarters 16 (Nat.le_refl 16)]
    simp only [getblock, Words.mk.injEq]
    rw [fallThrough_inj _ _ 4
      _ (by decide), fallThrough_inj _ _ 4 _ (by decide), fallThrough_inj _ _ 4 _ (by decide),
      fallThrough_inj _ _ 4 _ (by decide)]
    exact Iff.rfl
  states := mix_states
  blocks := mix_blocks
  ends := by
    intro length tail h h' same
    rw [finish_inj, absorbTail_state, absorbTail_state, absorbTail_state, absorbTail_state] at same
    cases h
    cases h'
    simp_all
  tails := by
    intro length h tail tail'
    rw [finish_inj, absorbTail_tail scramble1_inj, absorbTail_tail scramble2_inj,
      absorbTail_tail scramble3_inj, absorbTail_tail scramble4_inj,
      quarters (length % 16) (Nat.le_of_lt (Nat.mod_lt length (by decide)))]

end X86_128

def murmurHash3X86_128 (key : List Byte) (seed : Word32) : X86_128.Words :=
  let nblocks := key.length / 16
  let h := (List.range nblocks).foldl
    (fun h i => X86_128.mix h (X86_128.getblock fun j => byteAt key (16 * i + j)))
      ⟨seed, seed, seed, seed⟩
  X86_128.finish key.length (fun j => byteAt key (16 * nblocks + j)) h

theorem x86_128_scheme (key : List Byte) (seed : Word32) :
    murmurHash3X86_128 key seed = X86_128.scheme.hash key ⟨seed, seed, seed, seed⟩ := rfl

/-! `MurmurHash3_x64_128`. -/

namespace X64_128

structure Words where
  h1 : Word64
  h2 : Word64
  deriving DecidableEq

def c1 : Word64 := 0x87c37b91114253d5

def c2 : Word64 := 0x4cf5ad432745937f

def scramble1 (k1 : Word64) : Word64 := rotl64 (k1 * c1) 31 * c2

def scramble2 (k2 : Word64) : Word64 := rotl64 (k2 * c2) 33 * c1

def mix (h k : Words) : Words :=
  let h1 := (rotl64 (h.h1 ^^^ scramble1 k.h1) 27 + h.h2) * 5 + 0x52dce729
  let h2 := (rotl64 (h.h2 ^^^ scramble2 k.h2) 31 + h1) * 5 + 0x38495ab5
  ⟨h1, h2⟩

def getblock (bytes : Nat → Byte) : Words where
  h1 := fallThrough bytes 8 0
  h2 := fallThrough (fun j => bytes (8 + j)) 8 0

def spread (h : Words) : Words :=
  let h1 := h.h1 + h.h2
  ⟨h1, h.h2 + h1⟩

def finish (len : Nat) (tail : Nat → Byte) (h : Words) : Words :=
  let rest := len % 16
  let h2 := absorbTail scramble2 (rest - 8) (fun j => tail (8 + j)) h.h2
  let h1 := absorbTail scramble1 rest tail h.h1
  let length := BitVec.ofNat 64 len
  let h := spread ⟨h1 ^^^ length, h2 ^^^ length⟩
  spread ⟨fmix64 h.h1, fmix64 h.h2⟩

theorem scramble1_inj {x y : Word64} : scramble1 x = scramble1 y ↔ x = y := by
  unfold scramble1 rotl64
  rw [mul_inj (by decide), rotl_inj 31 (by decide), mul_inj (by decide)]

theorem scramble2_inj {x y : Word64} : scramble2 x = scramble2 y ↔ x = y := by
  unfold scramble2 rotl64
  rw [mul_inj (by decide), rotl_inj 33 (by decide), mul_inj (by decide)]

theorem spread_inj {h h' : Words} : spread h = spread h' ↔ h = h' := by
  constructor
  · intro same
    simp only [spread, Words.mk.injEq] at same
    obtain ⟨first, second⟩ := same
    rw [first, BitVec.add_left_inj] at second
    rw [second, BitVec.add_left_inj] at first
    cases h
    cases h'
    simp_all
  · exact fun same => same ▸ rfl

theorem mix_states (k : Words) : Function.Injective fun h => mix h k := by
  intro h h' same
  simp only [mix, Words.mk.injEq, rotl64] at same
  obtain ⟨first, second⟩ := same
  rw [first] at second
  rw [BitVec.add_left_inj, mul_inj (by decide)] at first second
  rw [BitVec.add_left_inj, rotl_inj 31 (by decide), BitVec.xor_left_inj] at second
  rw [second, BitVec.add_left_inj, rotl_inj 27 (by decide), BitVec.xor_left_inj] at first
  cases h
  cases h'
  simp_all

theorem mix_blocks (h : Words) : Function.Injective (mix h) := by
  intro k k' same
  simp only [mix, Words.mk.injEq, rotl64] at same
  obtain ⟨first, second⟩ := same
  rw [first] at second
  rw [BitVec.add_left_inj, mul_inj (by decide), BitVec.add_left_inj] at first second
  rw [rotl_inj 27 (by decide), BitVec.xor_right_inj, scramble1_inj] at first
  rw [rotl_inj 31 (by decide), BitVec.xor_right_inj, scramble2_inj] at second
  cases k
  cases k'
  simp_all

theorem finish_inj (len : Nat) {tail tail' : Nat → Byte} {h h' : Words} :
    finish len tail h = finish len tail' h' ↔
      absorbTail scramble1 (len % 16) tail h.h1 = absorbTail scramble1 (len % 16) tail' h'.h1 ∧
      absorbTail scramble2 (len % 16 - 8) (fun j => tail (8 + j)) h.h2 =
        absorbTail scramble2 (len % 16 - 8) (fun j => tail' (8 + j)) h'.h2 := by
  have mixed (x y : Words) : Words.mk (fmix64 x.h1) (fmix64 x.h2) =
      Words.mk (fmix64 y.h1) (fmix64 y.h2) ↔ x = y := by
    cases x
    cases y
    simp only [Words.mk.injEq, fmix64_inj]
  simp only [finish]
  rw [spread_inj, mixed, spread_inj]
  simp only [Words.mk.injEq, BitVec.xor_left_inj]

def scheme : Scheme Words Words Words where
  width := 16
  positive := by decide
  read := getblock
  absorb := mix
  finish := finish
  reads := by
    intro bytes bytes'
    rw [halves 16 (Nat.le_refl 16)]
    simp only [getblock, Words.mk.injEq]
    rw [fallThrough_inj _ _ 8 _ (by decide), fallThrough_inj _ _ 8 _ (by decide)]
    exact Iff.rfl
  states := mix_states
  blocks := mix_blocks
  ends := by
    intro length tail h h' same
    rw [finish_inj, absorbTail_state, absorbTail_state] at same
    cases h
    cases h'
    simp_all
  tails := by
    intro length h tail tail'
    rw [finish_inj, absorbTail_tail scramble1_inj, absorbTail_tail scramble2_inj,
      halves (length % 16) (Nat.le_of_lt (Nat.mod_lt length (by decide)))]

end X64_128

def murmurHash3X64_128 (key : List Byte) (seed : Word32) : X64_128.Words :=
  let nblocks := key.length / 16
  let h := (List.range nblocks).foldl
    (fun h i => X64_128.mix h (X64_128.getblock fun j => byteAt key (16 * i + j)))
      ⟨seed.setWidth 64, seed.setWidth 64⟩
  X64_128.finish key.length (fun j => byteAt key (16 * nblocks + j)) h

theorem x64_128_scheme (key : List Byte) (seed : Word32) :
    murmurHash3X64_128 key seed = X64_128.scheme.hash key ⟨seed.setWidth 64, seed.setWidth 64⟩ :=
  rfl

end LazyAS.MurmurHash

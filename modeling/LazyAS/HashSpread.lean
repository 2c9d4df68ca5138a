import LazyAS.MurmurHash
import LazyAS.TableLedger

/-! What the hash functions of `murmur.c` keep apart, how evenly the first of them fills the buckets
of the table, and what this says of the keys under which `captureOne` stores handshakes. -/
namespace LazyAS.HashSpread
open LinkedChain WordMixing MurmurHash AgingHash AgingTable AgingResize AgingSessions AgingRemove
  CollisionCount TableLedger Runs
open SessionKey (Packet sessionKey portsText addressesText)

/-- Of two different keys of one length, no function of `murmur.c` takes both to one hash from the
same seed when they differ within one block that it reads: four bytes for the first, sixteen for the
others. -/
theorem blocks_told_apart (key key' : List Byte) (seed : Word32) (size : key.length = key'.length)
    (different : key ≠ key') :
    ((∃ m, ∀ i, i / 4 ≠ m → byteAt key i = byteAt key' i) →
      murmurHash3X86_32 key seed ≠ murmurHash3X86_32 key' seed) ∧
    ((∃ m, ∀ i, i / 16 ≠ m → byteAt key i = byteAt key' i) →
      murmurHash3X86_128 key seed ≠ murmurHash3X86_128 key' seed ∧
      murmurHash3X64_128 key seed ≠ murmurHash3X64_128 key' seed) := by
  constructor
  · rintro ⟨m, same⟩ equal
    rw [x86_32_scheme, x86_32_scheme] at equal
    exact different ((X86_32.scheme.hash_separates size m same seed).mp equal)
  · rintro ⟨m, same⟩
    constructor
    · intro equal
      rw [x86_128_scheme, x86_128_scheme] at equal
      exact different ((X86_128.scheme.hash_separates size m same _).mp equal)
    · intro equal
      rw [x64_128_scheme, x64_128_scheme] at equal
      exact different ((X64_128.scheme.hash_separates size m same _).mp equal)

theorem blocks_told_apart_tail :
    ((∃ m, ∀ i, i / 4 ≠ m → byteAt [1, 2, 3, 4, 5] i = byteAt [1, 2, 3, 4, 6] i) →
      murmurHash3X86_32 [1, 2, 3, 4, 5] 7 ≠ murmurHash3X86_32 [1, 2, 3, 4, 6] 7) ∧
    ((∃ m, ∀ i, i / 16 ≠ m → byteAt [1, 2, 3, 4, 5] i = byteAt [1, 2, 3, 4, 6] i) →
      murmurHash3X86_128 [1, 2, 3, 4, 5] 7 ≠ murmurHash3X86_128 [1, 2, 3, 4, 6] 7 ∧
      murmurHash3X64_128 [1, 2, 3, 4, 5] 7 ≠ murmurHash3X64_128 [1, 2, 3, 4, 6] 7) :=
  blocks_told_apart [1, 2, 3, 4, 5] [1, 2, 3, 4, 6] 7 rfl (by decide)

/-! Keys that run through all values of one word. -/

def wordBytes (word : Word32) : List Byte :=
  (List.range 4).map fun j => (word >>> (8 * j)).setWidth 8

def putWord (key : List Byte) (m : Nat) (word : Word32) : List Byte :=
  key.take (4 * m) ++ wordBytes word ++ key.drop (4 * m + 4)

theorem getblock_wordBytes (word : Word32) :
    X86_32.getblock (fun j => (word >>> (8 * j)).setWidth 8) = word := by
  apply BitVec.eq_of_getLsbD_eq
  intro i inside
  have whole : 8 * (i / 8) + i % 8 = i := Nat.div_add_mod i 8
  have low : i % 8 < 8 := Nat.mod_lt i (by decide)
  rw [X86_32.getblock, fallThrough_bit _ _ _ _ inside, BitVec.getLsbD_setWidth,
    BitVec.getLsbD_ushiftRight, whole]
  simp [inside, low]

theorem wordBytes_inj {word word' : Word32} (same : wordBytes word = wordBytes word') :
    word = word' := by
  have bytes := List.map_inj_left.mp same
  rw [← getblock_wordBytes word, ← getblock_wordBytes word', X86_32.getblock, X86_32.getblock]
  apply (fallThrough_inj _ _ 4 0 (by decide)).mpr
  exact fun j below => bytes j (List.mem_range.mpr below)

theorem length_wordBytes (word : Word32) : (wordBytes word).length = 4 := by simp [wordBytes]

theorem word_others {m : Nat} {word word' : List Byte} (front back : List Byte)
    (place : front.length = 4 * m) (four : word.length = 4) (four' : word'.length = 4) (i : Nat)
    (outside : i / 4 ≠ m) :
    byteAt (front ++ word ++ back) i = byteAt (front ++ word' ++ back) i := by
  simp only [byteAt, List.append_assoc, List.getD_eq_getElem?_getD]
  by_cases before : i < 4 * m
  · rw [List.getElem?_append_left (by omega), List.getElem?_append_left (by omega)]
  · rw [List.getElem?_append_right (by omega), List.getElem?_append_right (by omega),
      List.getElem?_append_right (by omega), List.getElem?_append_right (by omega), four, four']

theorem putWord_inj {key : List Byte} {m : Nat} {word word' : Word32}
    (same : putWord key m word = putWord key m word') : word = word' := by
  simp only [putWord, List.append_assoc] at same
  have rest := (List.append_inj same rfl).2
  exact wordBytes_inj (List.append_inj rest (by rw [length_wordBytes, length_wordBytes])).1

section
variable {key : List Byte} {m : Nat} (inside : 4 * m + 4 ≤ key.length)
include inside

theorem length_putWord (word : Word32) : (putWord key m word).length = key.length := by
  simp only [putWord, List.length_append, List.length_take, List.length_drop, length_wordBytes]
  omega

theorem hash_putWord (seed : Word32) :
    Function.Injective fun word => murmurHash3X86_32 (putWord key m word) seed := by
  intro word word' same
  have size : (putWord key m word).length = (putWord key m word').length := by
    rw [length_putWord inside, length_putWord inside]
  have front : (key.take (4 * m)).length = 4 * m := List.length_take_of_le (by omega)
  have others := word_others (key.take (4 * m)) (key.drop (4 * m + 4)) front (length_wordBytes word)
    (length_wordBytes word')
  exact putWord_inj ((X86_32.scheme.hash_separates size m others seed).mp same)

end

/-! The buckets of the table. -/

def globalSeed : Word32 := 2976579765

/-- The hash that `ht_index` takes modulo the size of the table. -/
def keyHash (key : List Byte) : Nat := (murmurHash3X86_32 key globalSeed).toNat

section
variable {Key Value : Type} [DecidableEq Key] {hash : Key → Nat} {stamp : Value → Int}

theorem size_next {table : HashTable Key Value} {chains : Nat → List (Block Key Value)}
    (sound : Sound hash table chains) (call : CollisionCount.Call Key Value)
    (ends : CollisionCount.Ends hash stamp table call) :
    (CollisionCount.next hash stamp table call).arraySize = table.arraySize ∨
      (CollisionCount.next hash stamp table call).arraySize = table.arraySize * 2 := by
  obtain ⟨returns, fresh⟩ := ends
  obtain ⟨after, ended⟩ := Option.isSome_iff_exists.mp returns
  rw [CollisionCount.next, ended]
  cases call with
  | insert entry key value now fuel =>
      obtain ⟨outside, made⟩ := created sound fresh.1 fresh.2 ⟨key, value⟩
      have live : (withEntry table entry key value).heap entry = some ⟨⟨key, value⟩, 0⟩ :=
        Function.update_self ..
      obtain ⟨_, middle, placed, ⟨_, rfl⟩ | ⟨_, moved, _⟩⟩ :=
        insertHe_cases made live outside (fuel + 1) ended
      · exact Or.inl placed.size
      · right
        change after.arraySize = _
        rw [moved.sized, placed.size]
  | remove key fuel => exact Or.inl (sound_remove sound key fuel ended).1

theorem run_size (calls : List (CollisionCount.Call Key Value)) (table : HashTable Key Value)
    (sound : ∃ chains, Sound hash table chains)
    (ends : Allowed (CollisionCount.next hash stamp) (CollisionCount.Ends hash stamp) table calls) :
    ∃ doublings, (run (CollisionCount.next hash stamp) table calls).arraySize =
      table.arraySize * 2 ^ doublings := by
  induction calls generalizing table with
  | nil => exact ⟨0, by simp [run]⟩
  | cons call calls ih =>
      obtain ⟨chains, sound⟩ := sound
      obtain ⟨doublings, size⟩ := ih _ (sound_next sound call ends.1) ends.2
      have onward : run (CollisionCount.next hash stamp) table (call :: calls) =
          run (CollisionCount.next hash stamp) (CollisionCount.next hash stamp table call) calls :=
            rfl
      rw [onward, size]
      rcases size_next sound call ends.1 with same | twice
      · exact ⟨doublings, by rw [same]⟩
      · exact ⟨doublings + 1, by rw [twice, Nat.mul_assoc, Nat.pow_succ']⟩

end

/-- In every table that a run builds, the keys that differ from a given one in one aligned word are
spread evenly: as long as the table has at most as many buckets as there are words, each bucket gets
its share of them exactly. -/
theorem buckets_even {Value : Type} (stamp : Value → Int)
    (heap : Heap (HashEntry (List Byte) Value)) (null : heap 0 = none)
    (calls : List (CollisionCount.Call (List Byte) Value))
    (ends : Allowed (CollisionCount.next keyHash stamp) (CollisionCount.Ends keyHash stamp)
      (htInit initialSize heap) calls)
    (wide : (run (CollisionCount.next keyHash stamp) (htInit initialSize heap) calls).arraySize ≤
      2 ^ 32)
    (key : List Byte) (m : Nat) (inside : 4 * m + 4 ≤ key.length) (bucket : Nat)
    (below : bucket < (run (CollisionCount.next keyHash stamp) (htInit initialSize heap)
      calls).arraySize) :
    ((Finset.range (2 ^ 32)).filter fun n => htIndex keyHash
        (run (CollisionCount.next keyHash stamp) (htInit initialSize heap) calls)
          (putWord key m (BitVec.ofNat 32 n)) =
          bucket).card =
      2 ^ 32 / (run (CollisionCount.next keyHash stamp) (htInit initialSize heap)
        calls).arraySize := by
  obtain ⟨doublings, size⟩ := run_size calls _ ⟨_, sound_init keyHash heap null⟩ ends
  have start : (htInit initialSize heap).arraySize = 2 ^ 6 := rfl
  rw [start, ← Nat.pow_add] at size
  have divides : (run (CollisionCount.next keyHash stamp) (htInit initialSize heap)
      calls).arraySize ∣ 2 ^ 32 := by
    rw [size] at wide ⊢
    exact Nat.pow_dvd_pow 2 ((Nat.pow_le_pow_iff_right (by decide)).mp wide)
  have whole := Nat.mul_div_cancel' divides
  have even := rearranged_even (fun n => keyHash (putWord key m (BitVec.ofNat 32 n)))
    (run (CollisionCount.next keyHash stamp) (htInit initialSize heap) calls).arraySize
    (2 ^ 32 / (run (CollisionCount.next keyHash stamp) (htInit initialSize heap) calls).arraySize)
      bucket below
  rw [whole] at even
  apply even
  · exact fun n _ => BitVec.isLt _
  · intro n small n' small' same
    have words := hash_putWord inside globalSeed (BitVec.eq_of_toNat_eq same)
    have numbers := congrArg BitVec.toNat words
    rwa [BitVec.toNat_ofNat, BitVec.toNat_ofNat, Nat.mod_eq_of_lt small, Nat.mod_eq_of_lt small']
      at numbers

def crowded : List (CollisionCount.Call (List Byte) Int) :=
  [3, 19, 20, 115, 139].mapIdx fun i byte => .insert (i + 1) [byte, 0, 0, 0] 100 100 70

theorem crowded_ends : Allowed (CollisionCount.next keyHash id) (CollisionCount.Ends keyHash id)
    (htInit initialSize fun _ => none) crowded := by
  refine ⟨⟨?_, ?_, ?_⟩, ⟨?_, ?_, ?_⟩, ⟨?_, ?_, ?_⟩, ⟨?_, ?_, ?_⟩, ⟨?_, ?_, ?_⟩, trivial⟩ <;>
    decide +kernel

/-- The fifth key makes the table grow, and each of the 128 buckets gets its share. -/
theorem buckets_even_grown :
    (run (CollisionCount.next keyHash id) (htInit initialSize fun _ => none) crowded).arraySize =
      128 ∧
    ((Finset.range (2 ^ 32)).filter fun n => htIndex keyHash
      (run (CollisionCount.next keyHash id) (htInit initialSize fun _ => none) crowded)
      (putWord [0, 0, 0, 0] 0 (BitVec.ofNat 32 n)) = 5).card = 2 ^ 25 := by
  have size : (run (CollisionCount.next keyHash id) (htInit initialSize fun _ => none)
      crowded).arraySize = 128 := by
    decide +kernel
  have even := buckets_even id (fun _ => none) rfl crowded crowded_ends (by rw [size]; decide)
      [0, 0, 0, 0] 0 (by decide)
    5 (by rw [size]; decide)
  rw [size] at even
  exact ⟨size, even⟩

/-! The keys of handshakes. -/

end LazyAS.HashSpread

import LazyAS.ListStatistics
import LazyAS.TrainingSplit

/-! `getBin` of `data processing/getBinData.cpp`: the delays of all samples whose signal strength
and airtime fall into the same even numbers, and the 90th percentile of each such bin, one line a
bin. -/
namespace LazyAS.DelayBins
open WireText TreeFile TrainingSplit ListStatistics

/-! `getBinData.cpp`. -/

def evened (value : Int) : Int := value.tdiv 2 * 2

def binKey (reading : Reading) : Text :=
  key { reading with rssi := evened reading.rssi, au := evened reading.au }

def rounded (beyond : Int → Int) (delay : Int) : Int := (int beyond (delay + 1000)).tdiv 1000

/-- The delay `getResult` writes of a bin, which has one at least. -/
def percentile (intsets : List Int) : Int :=
  (intsets.mergeSort (fun a b => decide (a ≤ b)))[(intsets.length - 1) * 90 / 100]?.getD 0

def getResult (bin : Text × List Int) : Text := bin.1 ++ ",".toList ++ zeroPad 0 (percentile bin.2)

/-- The order in which an `unordered_map` gives out what it holds. -/
structure Iteration (Entry : Type) where
  arrange : List Entry → List Entry
  perm : ∀ entries, (arrange entries).Perm entries

/-- The lines of the output; `none` is an exception. -/
def getBin (beyond : Int → Int) (order : Iteration (Text × List Int)) (input : List Text) :
    Option (List Text) := do
  let m ← input.foldlM (fun m line =>
    (readRow line).map fun reading => push m (binKey reading) (rounded beyond reading.delay)) []
  return (order.arrange m).map getResult

/-! What a table of samples comes to. -/

def cell (reading : Reading) : Int × Int := (evened reading.rssi, evened reading.au)

def delaysOf (samples : List Reading) (bin : Int × Int) : List Int :=
  (samples.filter fun sample => cell sample = bin).map fun sample => (sample.delay + 1000).tdiv 1000

/-- Every bin that has samples once, with the delay that nine tenths of its samples keep to. -/
structure Summarises (samples bins : List Reading) : Prop where
  distinct : (bins.map fun bin => (bin.rssi, bin.au)).Nodup
  cells : ∀ place, place ∈ bins.map (fun bin => (bin.rssi, bin.au)) ↔ place ∈ samples.map cell
  ranked : ∀ bin ∈ bins, HasRank (delaysOf samples (bin.rssi, bin.au))
    (((delaysOf samples (bin.rssi, bin.au)).length - 1) * 90 / 100) bin.delay

/-! Lines of numbers between commas. -/

def Behind (s : Text) (start : Int) (rest : Text) : Prop :=
  ∃ before, s = before ++ rest ∧ start = before.length

theorem behind_start (s : Text) : Behind s 0 s := ⟨[], rfl, rfl⟩

section
variable {s word rest : Text} {start : Int}

theorem Behind.comma (behind : Behind s start (word ++ ',' :: rest)) (plain : ∀ c ∈ word, c ≠ ',') :
    position s (· = ',') start = start + word.length := by
  obtain ⟨before, whole, here⟩ := behind
  have early : ∀ c ∈ (before ++ word).drop before.length, decide (c = ',') = false := by
    intro c member
    rw [List.drop_left] at member
    exact decide_eq_false (plain c member)
  have found := position_found (before ++ word) rest ',' (· = ',') before.length (by simp) early
      (by decide)
  rw [List.append_assoc] at found
  rw [whole, here, found, List.length_append, Nat.cast_add]

theorem Behind.field (behind : Behind s start (word ++ rest)) (count : Int)
    (size : count = word.length) :
    substr s start count = some word := by
  obtain ⟨before, whole, here⟩ := behind
  rw [whole]
  exact substr_middle before word rest start count here size

theorem Behind.next (behind : Behind s start (word ++ ',' :: rest)) :
    Behind s (start + word.length + 1) rest := by
  obtain ⟨before, whole, here⟩ := behind
  constructor
  constructor
  · rw [whole, ← List.append_assoc before, ← List.singleton_append (l := rest), ← List.append_assoc]
  · rw [here]
    simp only [List.length_append, List.length_singleton, Nat.cast_add, Nat.cast_one]

theorem Behind.last (behind : Behind s start word) : substr s start (-1) = some word := by
  obtain ⟨before, whole, here⟩ := behind
  have inside : 0 ≤ start ∧ start ≤ s.length := by
    rw [whole, here, List.length_append]
    omega
  rw [substr, if_pos inside, if_neg (by decide), whole, here, Int.toNat_natCast, List.drop_left]

end

def IsInt (value : Int) : Prop := -2 ^ 31 ≤ value ∧ value < 2 ^ 31

theorem number_plain (value : Int) : ∀ c ∈ zeroPad 0 value, c ≠ ',' := by
  intro c member
  rcases zeroPad_chars 0 value c member with minus | digit
  · rw [minus]
    decide
  · rintro rfl
    exact absurd digit (by decide)

theorem digits_read (value : Nat) : leadingDigits (zeroPad 0 value) = some value := by
  have all : (zeroPad 0 value).takeWhile Char.isDigit = zeroPad 0 value :=
    List.takeWhile_eq_self_iff.mpr (List.all_eq_true.mp (zeroPad_digits 0 value))
  rw [leadingDigits, all, zeroPad_digitsValue]

theorem scanInt_printed (value : Int) : scanInt (zeroPad 0 value) = some value := by
  by_cases negative : value < 0
  · have text := zeroPad_negative 0 value negative
    rw [text, scanInt, List.dropWhile_cons_of_neg (by decide)]
    change Option.map (fun number : Int => -number)
      ((leadingDigits (zeroPad 0 (value.natAbs : Nat))).bind fun digits => some (digits : Int)) =
        some value
    rw [digits_read, Option.bind_some, Option.map_some]
    congr 1
    omega
  · obtain ⟨n, rfl⟩ := Int.eq_ofNat_of_zero_le (not_lt.mp negative)
    obtain ⟨c, digits, spelled⟩ := List.exists_cons_of_ne_nil (zeroPad_nonempty 0 n)
    have digit : c.isDigit := by
      apply List.all_eq_true.mp (zeroPad_digits 0 n) c
      rw [spelled]
      exact List.mem_cons_self
    rw [spelled, scanInt_digit c digits digit, ← spelled, digits_read]
    rfl

theorem stoi_printed (value : Int) (fits : IsInt value) : stoi (zeroPad 0 value) = some value := by
  rw [stoi, scanInt_printed, Option.bind_some]
  exact if_pos fits

theorem stoi_int (text : Text) (value : Int) (read : stoi text = some value) : IsInt value := by
  unfold stoi at read
  obtain ⟨scanned, -, kept⟩ := Option.bind_eq_some_iff.mp read
  split at kept
  · next fits =>
      rw [← Option.some.inj kept]
      exact fits
  · exact absurd kept (by simp)

theorem readRow_ints (line : Text) (reading : Reading) (read : readRow line = some reading) :
    IsInt reading.rssi ∧ IsInt reading.au ∧ IsInt reading.delay := by
  simp only [readRow, Option.bind_eq_bind, Option.bind_eq_some_iff, pure, Option.some.injEq] at read
  obtain ⟨rssi, ⟨first, -, readRssi⟩, au, ⟨second, -, readAu⟩, delay, ⟨third, -, readDelay⟩,
    same⟩ := read
  rw [← same]
  exact ⟨stoi_int first rssi readRssi, stoi_int second au readAu, stoi_int third delay readDelay⟩

theorem Behind.number {s rest : Text} {start value : Int}
    (behind : Behind s start (zeroPad 0 value ++ ',' :: rest)) (fits : IsInt value) {count : Int}
    (size : count = position s (· = ',') start - start) :
    (substr s start count).bind stoi = some value ∧
      Behind s (position s (· = ',') start + 1) rest := by
  have pos := behind.comma (number_plain value)
  constructor
  · rw [behind.field count (by omega), Option.bind_some, stoi_printed value fits]
  · rw [pos]
    exact behind.next

theorem Behind.lastNumber {s : Text} {start value : Int} (behind : Behind s start (zeroPad 0 value))
    (fits : IsInt value) : (substr s start (-1)).bind stoi = some value := by
  rw [behind.last, Option.bind_some, stoi_printed value fits]

theorem readRow_printed (reading : Reading) (rssi : IsInt reading.rssi) (au : IsInt reading.au)
    (delay : IsInt reading.delay) :
    readRow (key reading ++ ",".toList ++ zeroPad 0 reading.delay) = some reading := by
  have text : key reading ++ ",".toList ++ zeroPad 0 reading.delay =
      zeroPad 0 reading.rssi ++ ',' ::
          (zeroPad 0 reading.au ++ ',' :: zeroPad 0 reading.delay) := by
    simp [key]
  rw [text]
  have first := behind_start
      (zeroPad 0 reading.rssi ++ ',' :: (zeroPad 0 reading.au ++ ',' :: zeroPad 0 reading.delay))
  obtain ⟨readRssi, second⟩ := first.number rssi (Int.sub_zero _).symm
  obtain ⟨readAu, third⟩ := second.number au (Int.sub_sub _ _ _)
  have readDelay := third.lastNumber delay
  simp only [readRow, readRssi, readAu, readDelay, Option.bind_eq_bind, Option.bind_some]
  rfl

theorem mapM_member {α β : Type} {f : α → Option β} {items : List α} {results : List β}
    (read : items.mapM f = some results) {result : β} (member : result ∈ results) :
    ∃ item ∈ items, f item = some result := by
  induction items generalizing results with
  | nil =>
      cases Option.some.inj read
      exact absurd member List.not_mem_nil
  | cons item items ih =>
      rw [List.mapM_cons, Option.bind_eq_bind, Option.bind_eq_some_iff] at read
      obtain ⟨first, said, more⟩ := read
      rw [Option.bind_eq_bind, Option.bind_eq_some_iff] at more
      obtain ⟨rest, later, same⟩ := more
      rw [← Option.some.inj same] at member
      rcases List.mem_cons.mp member with rfl | inside
      · exact ⟨item, List.mem_cons_self, said⟩
      · obtain ⟨other, listed, said'⟩ := ih later inside
        exact ⟨other, List.mem_cons_of_mem _ listed, said'⟩

theorem key_numbers (first second : Reading) (same : key first = key second) :
    first.rssi = second.rssi ∧ first.au = second.au := by
  have printed (a b : Int) (equal : zeroPad 0 a = zeroPad 0 b) : a = b := by
    have scanned := scanInt_printed a
    rw [equal, scanInt_printed b] at scanned
    exact (Option.some.inj scanned).symm
  have front (reading : Reading) : (key reading).takeWhile (· ≠ ',') = zeroPad 0 reading.rssi := by
    rw [key, List.append_assoc, List.takeWhile_append_of_pos (by
      intro c member
      simpa using number_plain reading.rssi c member)]
    simp
  have rssi : zeroPad 0 first.rssi =
      zeroPad 0 second.rssi := by rw [← front first, same, front second]
  have au : zeroPad 0 first.au = zeroPad 0 second.au := by
    rw [key, key, rssi] at same
    exact List.append_cancel_left same
  exact ⟨printed _ _ rssi, printed _ _ au⟩

theorem binKey_cell (first second : Reading) :
    binKey first = binKey second ↔ cell first = cell second := by
  constructor
  · intro same
    obtain ⟨rssi, au⟩ := key_numbers _ _ same
    exact Prod.ext rssi au
  · intro same
    obtain ⟨rssi, au⟩ := Prod.mk.inj same
    rw [binKey, binKey, key, key]
    simp only [rssi, au]

/-! What the output says. -/

theorem evened_int (value : Int) (fits : IsInt value) : IsInt (evened value) := by
  obtain ⟨low, high⟩ := fits
  rw [evened, Int.tdiv_eq_ediv]
  split
  · constructor
    · omega
    · omega
  · next negative =>
      have one : Int.sign 2 = 1 := rfl
      rw [one]
      constructor
      · omega
      · omega

theorem percentile_rank (intsets : List Int) (some' : intsets ≠ []) :
    HasRank intsets ((intsets.length - 1) * 90 / 100) (percentile intsets) := by
  have positive := List.length_pos_iff.mpr some'
  obtain ⟨value, placed, ranked⟩ := sorted_rank intsets ((intsets.length - 1) * 90 / 100) (by omega)
  rw [percentile, placed]
  exact ranked

section
variable (beyond : Int → Int) (table : List Reading)

/-- What `getBin` collects: each delay under its key. -/
def items : List (Text × Int) :=
  table.map fun reading => (binKey reading, rounded beyond reading.delay)

def InRange : Prop := ∀ reading ∈ table,
    (IsInt reading.rssi ∧ IsInt reading.au ∧ IsInt reading.delay) ∧
  reading.delay + 1000 < 2 ^ 31

variable {beyond table}

theorem valuesAt_delays (range : InRange table) (sample : Reading) :
    valuesAt (items beyond table) (binKey sample) = delaysOf table (cell sample) := by
  rw [valuesAt, items, List.filter_map, List.map_map, delaysOf]
  have chosen : table.filter ((fun item => decide (item.1 = binKey sample)) ∘
      fun reading => (binKey reading, rounded beyond reading.delay)) =
        table.filter fun reading => decide (cell reading = cell sample) := by
    apply List.filter_congr
    intro reading _
    exact decide_eq_decide.mpr (binKey_cell reading sample)
  rw [chosen]
  apply List.map_congr_left
  intro reading member
  obtain ⟨⟨-, -, low, -⟩, high⟩ := range reading (List.mem_of_mem_filter member)
  have exact' : int beyond (reading.delay + 1000) = reading.delay + 1000 := if_pos ⟨by omega, high⟩
  simp only [Function.comp, rounded, exact']

theorem delaysOf_small (range : InRange table) (bin : Int × Int) :
    ∀ delay ∈ delaysOf table bin, -2147483 ≤ delay ∧ delay ≤ 2147483 := by
  intro delay member
  obtain ⟨sample, inside, rfl⟩ := List.mem_map.mp member
  obtain ⟨⟨-, -, low, -⟩, high⟩ := range sample (List.mem_of_mem_filter inside)
  rw [Int.tdiv_eq_ediv]
  have one : Int.sign 1000 = 1 := rfl
  rw [one]
  constructor
  · split <;> omega
  · split <;> omega

theorem getResult_read (range : InRange table) (g : Text × List Int)
    (member : g ∈ group (items beyond table)) :
    ∃ sample ∈ table, binKey sample = g.1 ∧ ∃ bin, readRow (getResult g) = some bin ∧
      (bin.rssi, bin.au) = cell sample ∧ HasRank (delaysOf table (cell sample))
        (((delaysOf table (cell sample)).length - 1) * 90 / 100) bin.delay := by
  -- a line of the output is read as the bin it was written for
  have grouped := group_groups (items beyond table)
  have listed : g.1 ∈ (items beyond table).map Prod.fst :=
    (grouped.keys g.1).mp (List.mem_map_of_mem member)
  obtain ⟨item, collected, same⟩ := List.mem_map.mp listed
  obtain ⟨sample, inside, rfl⟩ := List.mem_map.mp collected
  have delays : g.2 = delaysOf table (cell sample) := by
    rw [grouped.values g member, ← same]
    exact valuesAt_delays range sample
  have nonempty : delaysOf table (cell sample) ≠ [] := by
    apply List.ne_nil_of_mem
    exact List.mem_map_of_mem (List.mem_filter.mpr ⟨inside, decide_eq_true rfl⟩)
  have ranked := percentile_rank _ nonempty
  obtain ⟨⟨rssi, au, -⟩, -⟩ := range sample inside
  refine ⟨sample, inside, same, ⟨evened sample.rssi, evened sample.au, percentile g.2⟩, ?_, rfl, ?_⟩
  · have text : getResult g = key ⟨evened sample.rssi, evened sample.au, percentile g.2⟩ ++
        ",".toList ++
        zeroPad 0 (percentile g.2) := by
      rw [getResult, ← same]
      rfl
    rw [text]
    apply readRow_printed
    · exact evened_int _ rssi
    · exact evened_int _ au
    · have small := delaysOf_small range _ _ ranked.mem
      rw [delays]
      change IsInt (percentile (delaysOf table (cell sample)))
      exact ⟨by omega, by omega⟩
  · rw [delays]
    exact ranked

end

theorem mapM_some {α β : Type} {f : α → Option β} {g : α → β} (items : List α)
    (each : ∀ item ∈ items, f item = some (g item)) : items.mapM f = some (items.map g) := by
  induction items with
  | nil => rfl
  | cons item items ih =>
      rw [List.mapM_cons, each item List.mem_cons_self, ih fun other member =>
        each other (List.mem_cons_of_mem _ member)]
      rfl

theorem read_range {input : List Text} {table : List Reading}
    (read : input.mapM readRow = some table)
    (fits : ∀ reading ∈ table, reading.delay + 1000 < 2 ^ 31) : InRange table := by
  intro reading member
  obtain ⟨line, -, said⟩ := mapM_member read member
  exact ⟨readRow_ints line reading said, fits reading member⟩

theorem getBin_summarises (beyond : Int → Int) (order : Iteration (Text × List Int))
    (input : List Text) (table : List Reading) (read : input.mapM readRow = some table)
    (fits : ∀ reading ∈ table, reading.delay + 1000 < 2 ^ 31) : ∃ lines bins,
    getBin beyond order input = some lines ∧ lines.mapM readRow = some bins ∧
      Summarises table bins := by
  -- whatever the order of the map, the output is a table that summarises the input
  have range := read_range read fits
  have fold := foldlM_readRow
      (fun m reading => push m (binKey reading) (rounded beyond reading.delay)) input table
    read []
  have collected : table.foldl
      (fun m reading => push m (binKey reading) (rounded beyond reading.delay)) [] =
      group (items beyond table) := by
    rw [group, items, List.foldl_map]
  rw [collected] at fold
  have perm := order.perm (group (items beyond table))
  have each (g : Text × List Int) (member : g ∈ order.arrange (group (items beyond table))) :=
    getResult_read range g (perm.mem_iff.mp member)
  let decode := fun g => (readRow (getResult g)).getD ⟨0, 0, 0⟩
  have decoded (g : Text × List Int) (member : g ∈ order.arrange (group (items beyond table))) :
      readRow (getResult g) = some (decode g) := by
    obtain ⟨-, -, -, bin, said, -⟩ := each g member
    simp only [decode, said, Option.getD_some]
  refine ⟨(order.arrange (group (items beyond table))).map getResult,
    (order.arrange (group (items beyond table))).map decode, ?_, ?_, ?_⟩
  · rw [getBin, Option.bind_eq_bind, fold]
    rfl
  · rw [List.mapM_map]
    exact mapM_some _ decoded
  · -- what one bin of the table says, from the bin it was decoded from
    have tells (g : Text × List Int) (member : g ∈ order.arrange (group (items beyond table))) :
        ∃ sample ∈ table, binKey sample = g.1 ∧ ((decode g).rssi, (decode g).au) = cell sample ∧
          HasRank (delaysOf table (cell sample))
            (((delaysOf table (cell sample)).length - 1) * 90 / 100)
            (decode g).delay := by
      obtain ⟨sample, inside, same, bin, said, place, ranked⟩ := each g member
      have bin' : decode g = bin := by simp only [decode, said, Option.getD_some]
      rw [bin']
      exact ⟨sample, inside, same, place, ranked⟩
    have grouped := group_groups (items beyond table)
    constructor
    · rw [List.map_map]
      have keys : ((order.arrange (group (items beyond table))).map Prod.fst).Nodup :=
        (perm.map Prod.fst).nodup_iff.mpr grouped.distinct
      apply List.pairwise_map.mpr
      apply (List.pairwise_map.mp keys).imp_of_mem
      intro g h first second apart same
      obtain ⟨sample, -, name, place, -⟩ := tells g first
      obtain ⟨other, -, name', place', -⟩ := tells h second
      apply apart
      rw [← name, ← name', binKey_cell, ← place, ← place']
      exact same
    · intro place
      rw [List.map_map]
      constructor
      · intro listed
        obtain ⟨g, member, rfl⟩ := List.mem_map.mp listed
        obtain ⟨sample, inside, -, here, -⟩ := tells g member
        exact List.mem_map.mpr ⟨sample, inside, here.symm⟩
      · intro listed
        obtain ⟨sample, inside, rfl⟩ := List.mem_map.mp listed
        have known : binKey sample ∈ (group (items beyond table)).map Prod.fst := by
          rw [grouped.keys, items, List.map_map]
          exact List.mem_map.mpr ⟨sample, inside, rfl⟩
        obtain ⟨g, member, name⟩ := List.mem_map.mp known
        obtain ⟨other, -, name', here, -⟩ := tells g (perm.mem_iff.mpr member)
        apply List.mem_map.mpr
        refine ⟨g, perm.mem_iff.mpr member, here.trans ?_⟩
        rw [← binKey_cell, name', name]
    · intro bin member
      obtain ⟨g, inside, rfl⟩ := List.mem_map.mp member
      obtain ⟨sample, -, -, here, ranked⟩ := tells g inside
      rw [here]
      exact ranked

end LazyAS.DelayBins

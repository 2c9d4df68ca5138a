import LazyAS.TreeFile

/-! `flagTrainingSet2` of `data processing/getBinData.cpp`: every 2.4 GHz bin beside every 5 GHz
row, labelled and split into a training and a test file. What the console shows of the sizes of the
classes is left out. -/
namespace LazyAS.TrainingSplit
open WireText TreeFile

/-- A line of either input: two numbers that name a bin and a delay. -/
structure Reading where
  rssi : Int
  au : Int
  delay : Int
  deriving DecidableEq

structure Bin where
  first : Text
  second : Int
  deriving DecidableEq

structure Row where
  bin : Bin
  rssi : Int
  au : Int
  delay : Int
  choose : Int
  deriving DecidableEq

def stoi (text : Text) : Option Int :=
  (scanInt text).bind fun value => if -2 ^ 31 ≤ value ∧ value < 2 ^ 31 then some value else none

/-- `none` is an exception of `substr` or `stoi`. -/
def readRow (s : Text) : Option Reading := do
  let pos := position s (· = ',') 0
  let pos2 := position s (· = ',') (pos + 1)
  let rssi ← (substr s 0 pos).bind stoi
  let au ← (substr s (pos + 1) (pos2 - pos - 1)).bind stoi
  let delay ← (substr s (pos2 + 1) (-1)).bind stoi
  return ⟨rssi, au, delay⟩

def key (reading : Reading) : Text := zeroPad 0 reading.rssi ++ ",".toList ++ zeroPad 0 reading.au

def store (m : List Bin) (reading : Reading) : List Bin :=
  if ∃ bin ∈ m, bin.first = key reading then
    m.map fun bin => if bin.first = key reading then ⟨key reading, reading.delay⟩ else bin
  else m ++ [⟨key reading, reading.delay⟩]

/-- The order in which an `unordered_map` gives its entries out. -/
structure Order where
  arrange : List Bin → List Bin
  perm : ∀ bins, (arrange bins).Perm bins

/-- An `int` result. `beyond` is what a program computes where the exact one is no `int`. -/
def int (beyond : Int → Int) (exact : Int) : Int :=
  if -2 ^ 31 ≤ exact ∧ exact < 2 ^ 31 then exact else beyond exact

def choose (beyond : Int → Int) (var delay24 delay5 : Int) : Int :=
  if int beyond |int beyond (delay24 - delay5)| < int beyond (var * 1000) then 2
  else if delay5 ≤ delay24 then 1
  else 0

def row (beyond : Int → Int) (var : Int) (reading : Reading) (bin : Bin) : Row :=
  ⟨bin, reading.rssi, reading.au, reading.delay, choose beyond var bin.second reading.delay⟩

def header : Text := "rssi_2.4,au_2.4,rssi_5,au_5,delay_2.4,delay_5,choose".toList

def Row.text (row : Row) : Text :=
  row.bin.first ++ ",".toList ++ zeroPad 0 row.rssi ++ ",".toList ++ zeroPad 0 row.au ++
    ",".toList ++
    zeroPad 0 row.bin.second ++ ",".toList ++ zeroPad 0 row.delay ++ ",".toList ++
      zeroPad 0 row.choose

/-- The variables of the loops, the rows written so far and how many numbers `rand` has given. -/
structure State where
  index : Nat
  val : Nat
  drawn : Nat
  training : List Row
  testing : List Row

section
variable (beyond : Int → Int) (draws : Nat → Nat) (var : Int)

def visit (reading : Reading) (before : State) (bin : Bin) : State :=
  let state := if before.index % 4 = 0 then
      { before with val := draws before.drawn % 4, drawn := before.drawn + 1, index := 0 }
    else before
  if state.index = state.val then
    { state with
      testing := state.testing ++ [row beyond var reading bin], index := state.index + 1 }
  else { state with
    training := state.training ++ [row beyond var reading bin], index := state.index + 1 }

def visitRow (bins : List Bin) (state : State) (line : Text) : Option State :=
  (readRow line).map fun reading => bins.foldl (visit beyond draws var reading) { state with
    index := 0 }

/-- The two files, line by line; `none` is an exception. `val` starts with whatever is in its place.
-/
def flagTrainingSet2 (order : Order) (uninit : Nat) (input1 input2 : List Text) :
    Option (List Text × List Text) := do
  let m ← input1.foldlM (fun m line => (readRow line).map (store m)) []
  let state ← input2.foldlM (visitRow beyond draws var (order.arrange m)) ⟨0, uninit, 0, [], []⟩
  return (header :: state.training.map Row.text, header :: state.testing.map Row.text)

end

/-- The rows at some places of the product of the second table and the bins, row by row. -/
def written (beyond : Int → Int) (var : Int) (bins : List Bin) (table : List Reading)
    (wanted : Nat → Nat → Bool) : List Row :=
  table.zipIdx.flatMap fun reading =>
      (bins.zipIdx.filter fun bin => wanted reading.2 bin.2).map fun bin =>
    row beyond var reading.1 bin.1

def testedIn (tested : Nat → Nat → Bool) (count i block : Nat) : Nat :=
  ((List.range count).filter fun j => j / 4 = block && tested i j).length

/-- The differences that the label depends on are numbers an `int` can hold. -/
def Exact (var : Int) (row : Row) : Prop :=
  -2 ^ 31 ≤ var * 1000 ∧ var * 1000 < 2 ^ 31 ∧ |row.bin.second - row.delay| < 2 ^ 31

/-- The test that the loop comes to with the bin at one place, when `rand` had given so many numbers
before. -/
def testedAt (draws : Nat → Nat) (drawn j : Nat) : Bool := j % 4 == draws (drawn + j / 4) % 4

structure At (draws : Nat → Nat) (drawn j : Nat) (state : State) : Prop where
  drawnNow : state.drawn = drawn + (j + 3) / 4
  turn : state.index % 4 = j % 4
  inside : j % 4 ≠ 0 → state.index = j % 4 ∧ state.val = draws (drawn + j / 4) % 4

theorem at_start (draws : Nat → Nat) (state : State) :
    At draws state.drawn 0 { state with index := 0 } :=
  ⟨rfl, rfl, fun wrong => absurd rfl wrong⟩

section
variable (beyond : Int → Int) (draws : Nat → Nat) (var : Int)

theorem visit_at (reading : Reading) (drawn j : Nat) (state : State) (bin : Bin)
    (place : At draws drawn j state) :
    At draws drawn (j + 1) (visit beyond draws var reading state bin) ∧
      (visit beyond draws var reading state bin).training =
        state.training ++ (if testedAt draws drawn j then [] else [row beyond var reading bin]) ∧
      (visit beyond draws var reading state bin).testing =
        state.testing ++ (if testedAt draws drawn j then [row beyond var reading bin] else []) := by
  -- what the test at the head of the body leaves behind, whether a block begins here or goes on
  have head : ∃ begun : State, visit beyond draws var reading state bin =
      (if begun.index = begun.val then
        { begun with
          testing := begun.testing ++ [row beyond var reading bin], index := begun.index + 1 }
      else { begun with
        training := begun.training ++ [row beyond var reading bin], index := begun.index + 1 }) ∧
      begun.index = j % 4 ∧ begun.val = draws (drawn + j / 4) % 4 ∧
        begun.drawn = drawn + j / 4 + 1 ∧
      begun.training = state.training ∧ begun.testing = state.testing := by
    refine ⟨_, rfl, ?_⟩
    have now := place.drawnNow
    by_cases first : state.index % 4 = 0
    · have starts : j % 4 = 0 := place.turn ▸ first
      have count : drawn + (j + 3) / 4 = drawn + j / 4 := by omega
      rw [if_pos first]
      exact ⟨starts.symm, by rw [now, count], by simp only [now, count], rfl, rfl⟩
    · obtain ⟨index, val⟩ := place.inside (place.turn ▸ first)
      rw [if_neg first]
      exact ⟨index, val, by omega, rfl, rfl⟩
  obtain ⟨begun, body, index, val, count, training, testing⟩ := head
  have next : ∀ after : State, after.drawn = begun.drawn → after.index = begun.index + 1 →
      after.val = begun.val →
      At draws drawn (j + 1) after := by
    intro after drawnAfter indexAfter valAfter
    refine ⟨by omega, by omega, fun notFirst => ⟨by omega, ?_⟩⟩
    rw [valAfter, val, show (j + 1) / 4 = j / 4 by omega]
  rw [body, ← training, ← testing]
  by_cases hit : begun.index = begun.val
  · have tested : testedAt draws drawn j = true := by
      rw [testedAt, ← index, ← val]
      exact beq_iff_eq.mpr hit
    rw [if_pos hit, tested]
    exact ⟨next _ rfl rfl rfl, by simp, by simp⟩
  · have kept : testedAt draws drawn j = false := by
      rw [testedAt, ← index, ← val]
      exact beq_eq_false_iff_ne.mpr hit
    rw [if_neg hit, kept]
    exact ⟨next _ rfl rfl rfl, by simp, by simp⟩

def rowsFrom (reading : Reading) (bins : List Bin) (j : Nat) (wanted : Nat → Bool) : List Row :=
  ((bins.zipIdx j).filter fun bin => wanted bin.2).map fun bin => row beyond var reading bin.1

theorem rowsFrom_cons (reading : Reading) (bin : Bin) (bins : List Bin) (j : Nat)
    (wanted : Nat → Bool) :
    rowsFrom beyond var reading (bin :: bins) j wanted =
      (if wanted j then [row beyond var reading bin] else []) ++
        rowsFrom beyond var reading bins (j + 1) wanted := by
  rw [rowsFrom, List.zipIdx_cons, List.filter_cons]
  split <;> rfl

theorem visits_at (reading : Reading) (drawn : Nat) (bins : List Bin) (j : Nat) (state : State)
    (place : At draws drawn j state) :
    let after := bins.foldl (visit beyond draws var reading) state
    At draws drawn (j + bins.length) after ∧
      after.training = state.training ++
        rowsFrom beyond var reading bins j (fun j => !testedAt draws drawn j) ∧
      after.testing = state.testing ++
          rowsFrom beyond var reading bins j (testedAt draws drawn) := by
  -- the loop over the bins from one place on
  induction bins generalizing j state with
  | nil => exact ⟨place, (List.append_nil _).symm, (List.append_nil _).symm⟩
  | cons bin bins ih =>
      obtain ⟨next, training, testing⟩ := visit_at beyond draws var reading drawn j state bin place
      obtain ⟨last, restTraining, restTesting⟩ := ih (j + 1) _ next
      refine ⟨?_, ?_, ?_⟩
      · rw [List.length_cons, ← Nat.add_assoc, Nat.add_right_comm]
        exact last
      · rw [List.foldl_cons, restTraining, training, rowsFrom_cons, List.append_assoc]
        cases testedAt draws drawn j <;> rfl
      · rw [List.foldl_cons, restTesting, testing, rowsFrom_cons, List.append_assoc]

def writtenFrom (bins : List Bin) (table : List Reading) (i : Nat) (wanted : Nat → Nat → Bool) :
    List Row :=
  (table.zipIdx i).flatMap fun reading => rowsFrom beyond var reading.1 bins 0 (wanted reading.2)

theorem writtenFrom_cons (bins : List Bin) (reading : Reading) (table : List Reading) (i : Nat)
    (wanted : Nat → Nat → Bool) :
    writtenFrom beyond var bins (reading :: table) i wanted =
      rowsFrom beyond var reading bins 0 (wanted i) ++
        writtenFrom beyond var bins table (i + 1) wanted := by
  rw [writtenFrom, List.zipIdx_cons, List.flatMap_cons]
  rfl

/-- Whether a bin is tested with a row, when `rand` gives one number for every block of every row.
-/
def testedBy (count i j : Nat) : Bool := testedAt draws (i * ((count + 3) / 4)) j

theorem rows_at (bins : List Bin) (table : List Reading) (i : Nat) (state : State)
    (drawn : state.drawn = i * ((bins.length + 3) / 4)) :
    let after := table.foldl
      (fun state reading => bins.foldl (visit beyond draws var reading) { state with index := 0 })
      state
    after.training = state.training ++
      writtenFrom beyond var bins table i (fun i j => !testedBy draws bins.length i j) ∧
      after.testing = state.testing ++
          writtenFrom beyond var bins table i (testedBy draws bins.length) := by
  -- the loop over the rows from one place on
  induction table generalizing i state with
  | nil => exact ⟨(List.append_nil _).symm, (List.append_nil _).symm⟩
  | cons reading table ih =>
      obtain ⟨place, training, testing⟩ :=
        visits_at beyond draws var reading state.drawn bins 0 _ (at_start draws state)
      have count : (bins.foldl (visit beyond draws var reading) { state with index := 0 }).drawn =
          (i + 1) * ((bins.length + 3) / 4) := by
        rw [place.drawnNow, drawn, Nat.zero_add, Nat.succ_mul]
      obtain ⟨restTraining, restTesting⟩ := ih (i + 1) _ count
      refine ⟨?_, ?_⟩
      · rw [List.foldl_cons, restTraining, training, writtenFrom_cons, List.append_assoc, drawn]
        rfl
      · rw [List.foldl_cons, restTesting, testing, writtenFrom_cons, List.append_assoc, drawn]
        rfl

end

theorem foldlM_readRow {Result : Type} (each : Result → Reading → Result) (lines : List Text)
    (table : List Reading) (read : lines.mapM readRow = some table) (start : Result) :
    lines.foldlM (fun result line => (readRow line).map (each result)) start =
      some (table.foldl each start) := by
  -- a loop over lines that can all be read is one over what they say
  induction lines generalizing table start with
  | nil =>
      cases Option.some.inj read
      rfl
  | cons line lines ih =>
      rw [List.mapM_cons] at read
      cases first : readRow line with
      | none => simp [first] at read
      | some reading =>
          cases rest : lines.mapM readRow with
          | none => simp [first, rest] at read
          | some readings =>
              have shape : table = reading :: readings := by simpa [first, rest] using read.symm
              rw [shape, List.foldlM_cons, first]
              exact ih readings rest (each start reading)

/-- The bins of the first table as the map holds them. -/
def binsOf (table : List Reading) : List Bin := table.foldl store []

theorem written_perm (beyond : Int → Int) (var : Int) (bins : List Bin) (table : List Reading)
    (tested : Nat → Nat → Bool) :
    (written beyond var bins table (fun i j => !tested i j) ++
      written beyond var bins table tested).Perm
      (written beyond var bins table fun _ _ => true) := by
  refine (List.flatMap_append_perm _ _ _).trans (List.Perm.flatMap_left _ fun reading _ => ?_)
  rw [← List.map_append, List.filter_true]
  exact (List.perm_append_comm.trans (List.filter_append_perm _ _)).map _

theorem testedIn_block (draws : Nat → Nat) (count i block : Nat) :
    testedIn (testedBy draws count) count i block =
      if 4 * block + draws (i * ((count + 3) / 4) + block) % 4 < count then 1 else 0 := by
  have place : ∀ j, (j / 4 = block && testedBy draws count i j) =
      (j == 4 * block + draws (i * ((count + 3) / 4) + block) % 4) := by
    intro j
    rw [Bool.eq_iff_iff, testedBy, testedAt]
    simp only [Bool.and_eq_true, decide_eq_true_eq, beq_iff_eq]
    constructor
    · rintro ⟨rfl, same⟩
      omega
    · intro same
      have inBlock : j / 4 = block := by omega
      rw [inBlock]
      exact ⟨rfl, by omega⟩
  simp only [testedIn, place]
  rw [← List.count_eq_length_filter, List.count_range]

theorem one_in_four (draws : Nat → Nat) (count i block : Nat) :
    (4 * block + 4 ≤ count → testedIn (testedBy draws count) count i block = 1) ∧
      testedIn (testedBy draws count) count i block ≤ 1 := by
  rw [testedIn_block]
  have small := Nat.mod_lt (draws (i * ((count + 3) / 4) + block)) (show 0 < 4 by decide)
  constructor
  · intro full
    exact if_pos (by omega)
  · split <;> omega

theorem choose_exact (beyond : Int → Int) (var delay24 delay5 : Int) (least : -2 ^ 31 ≤ var * 1000)
    (most : var * 1000 < 2 ^ 31) (near : |delay24 - delay5| < 2 ^ 31) :
    choose beyond var delay24 delay5 =
      if |delay24 - delay5| < var * 1000 then 2 else if delay5 ≤ delay24 then 1 else 0 := by
  have bounds := abs_lt.mp near
  have difference : int beyond (delay24 - delay5) = delay24 - delay5 := if_pos ⟨by omega, bounds.2⟩
  have size : int beyond |delay24 - delay5| = |delay24 - delay5| :=
    if_pos ⟨Int.le_trans (by decide) (abs_nonneg _), near⟩
  have threshold : int beyond (var * 1000) = var * 1000 := if_pos ⟨least, most⟩
  rw [choose, difference, size, threshold]

theorem written_row (beyond : Int → Int) (var : Int) (bins : List Bin) (table : List Reading)
    (wanted : Nat → Nat → Bool) (entry : Row)
    (member : entry ∈ written beyond var bins table wanted) :
    entry.choose = choose beyond var entry.bin.second entry.delay := by
  obtain ⟨reading, _, inside⟩ := List.mem_flatMap.mp member
  obtain ⟨bin, _, rfl⟩ := List.mem_map.mp inside
  rfl

/-- The two files hold every pair of a bin and a row once, and every full block of four bins gives
one pair to the test file. The labels are those of the exact differences where these are numbers an
`int` can hold. -/
theorem training_split (beyond : Int → Int) (draws : Nat → Nat) (var : Int) (order : Order)
    (uninit : Nat) (input1 input2 : List Text) (table1 table2 : List Reading)
    (read1 : input1.mapM readRow = some table1) (read2 : input2.mapM readRow = some table2) :
    ∃ tested : Nat → Nat → Bool,
      let bins := order.arrange (binsOf table1)
      let training := written beyond var bins table2 fun i j => !tested i j
      let testing := written beyond var bins table2 tested
      flagTrainingSet2 beyond draws var order uninit input1 input2 =
          some (header :: training.map Row.text, header :: testing.map Row.text) ∧
        (training ++ testing).Perm (written beyond var bins table2 fun _ _ => true) ∧
        (∀ i block, (4 * block + 4 ≤ bins.length → testedIn tested bins.length i block = 1) ∧
          testedIn tested bins.length i block ≤ 1) ∧
        ∀ entry ∈ training ++ testing, Exact var entry → entry.choose =
          if |entry.bin.second - entry.delay| < var * 1000 then 2
              else if entry.delay ≤ entry.bin.second then 1 else 0 := by
  have bins : input1.foldlM (fun m line => (readRow line).map (store m)) [] =
      some (binsOf table1) :=
    foldlM_readRow store input1 table1 read1 []
  have rows := foldlM_readRow
    (fun state reading => (order.arrange (binsOf table1)).foldl (visit beyond draws var reading)
      { state with index := 0 })
    input2 table2 read2 ⟨0, uninit, 0, [], []⟩
  obtain ⟨training, testing⟩ :=
    rows_at beyond draws var (order.arrange (binsOf table1)) table2 0 ⟨0, uninit, 0, [], []⟩
    (Nat.zero_mul _).symm
  refine ⟨testedBy draws (order.arrange (binsOf table1)).length, ?_,
    written_perm beyond var _ table2 _,
    one_in_four draws _, ?_⟩
  · simp only [flagTrainingSet2, bins, Option.bind_eq_bind, Option.bind_some]
    refine (congrArg (fun read => Option.bind read _) rows).trans ?_
    rw [Option.bind_some, training, testing]
    rfl
  · intro entry member exact
    have label : entry.choose = choose beyond var entry.bin.second entry.delay := by
      rcases List.mem_append.mp member with member | member <;>
          exact written_row beyond var _ table2 _ entry member
    rw [label, choose_exact beyond var _ _ exact.1 exact.2.1 exact.2.2]

def arrival : Order := ⟨id, fun _ => .refl _⟩

def oneLine : List Text := ["-50,10,3000".toList]

def fiveLines : List Text :=
  ["-50,10,3000".toList, "-52,10,4000".toList, "-54,10,6000".toList, "-56,20,9000".toList,
    "-58,30,2000".toList]

def twoLines : List Text := ["-60,10,3500".toList, "-70,40,8000".toList]

theorem fiveLines_read : fiveLines.mapM readRow =
    some [⟨-50, 10, 3000⟩, ⟨-52, 10, 4000⟩, ⟨-54, 10, 6000⟩, ⟨-56, 20, 9000⟩,
      ⟨-58, 30, 2000⟩] := by decide +kernel

theorem twoLines_read : twoLines.mapM readRow =
    some [⟨-60, 10, 3500⟩, ⟨-70, 40, 8000⟩] := by decide +kernel

theorem training_split_five :
    fiveLines.mapM readRow =
        some [⟨-50, 10, 3000⟩, ⟨-52, 10, 4000⟩, ⟨-54, 10, 6000⟩, ⟨-56, 20, 9000⟩, ⟨-58, 30, 2000⟩] ∧
      twoLines.mapM readRow = some [⟨-60, 10, 3500⟩, ⟨-70, 40, 8000⟩] ∧
      ∃ training testing : List Row,
        flagTrainingSet2 id id 1 arrival 0 fiveLines twoLines =
          some (header :: training.map Row.text, header :: testing.map Row.text) ∧
        (training ++ testing).Perm (written id 1
          (binsOf [⟨-50, 10, 3000⟩, ⟨-52, 10, 4000⟩, ⟨-54, 10, 6000⟩, ⟨-56, 20, 9000⟩,
            ⟨-58, 30, 2000⟩])
          [⟨-60, 10, 3500⟩, ⟨-70, 40, 8000⟩] fun _ _ => true) := by
  obtain ⟨tested, files, whole, -⟩ :=
    training_split id id 1 arrival 0 fiveLines twoLines _ _ fiveLines_read twoLines_read
  exact ⟨fiveLines_read, twoLines_read, _, _, files, whole⟩

/-- `3000000 * 1000` is no `int`. Where it wraps, two equal delays get the label 1. -/
theorem wrapped_threshold : ¬ ∀ (beyond : Int → Int) (draws : Nat → Nat) (var : Int) (order : Order)
    (uninit : Nat) (input1 input2 : List Text) (training testing : List Row), -2 ^ 31 ≤ var →
      var < 2 ^ 31 →
    flagTrainingSet2 beyond draws var order uninit input1 input2 =
      some (header :: training.map Row.text, header :: testing.map Row.text) →
    ∀ entry ∈ training ++ testing,
      (entry.choose = 2 ↔ |entry.bin.second - entry.delay| < var * 1000) := by
  intro labels
  have wrong := labels (fun exact => exact.bmod (2 ^ 32)) (fun _ => 1) 3000000 arrival 0 oneLine
      oneLine
    [⟨⟨"-50,10".toList, 3000⟩, -50, 10, 3000, 1⟩] [] (by decide) (by decide) (by decide +kernel)
      _ (List.mem_singleton.mpr rfl)
  exact absurd (wrong.mpr (by decide)) (by decide)

end LazyAS.TrainingSplit

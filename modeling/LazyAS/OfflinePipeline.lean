import LazyAS.DelayBins

/-! The data processing from samples to a score: `getBin` for each band, `flagTrainingSet2` over the
two tables, and `doTest` of `doPruning.cpp` on the test file. The report that `doTest` writes beside
its score is left out. -/
namespace LazyAS.OfflinePipeline
open WireText TreeFile TrainingSplit DelayBins ListStatistics
open DecisionTree (Features Score TreeNode countRow)

/-! `doPruning.cpp`. -/

structure Tested where
  input : Features
  delay24 : Int
  delay5 : Int
  flag : Int
  deriving DecidableEq

def Tested.row (tested : Tested) : DecisionTree.Row := ⟨tested.input, tested.flag⟩

/-- `none` is an exception of `substr` or `stoi`. -/
def readTested (s : Text) : Option Tested := do
  let pos1 := position s (· = ',') 0
  let pos2 := position s (· = ',') (pos1 + 1)
  let pos3 := position s (· = ',') (pos2 + 1)
  let pos4 := position s (· = ',') (pos3 + 1)
  let pos5 := position s (· = ',') (pos4 + 1)
  let pos6 := position s (· = ',') (pos5 + 1)
  let rssi24 ← (substr s 0 pos1).bind stoi
  let au24 ← (substr s (pos1 + 1) (pos2 - pos1 - 1)).bind stoi
  let rssi5 ← (substr s (pos2 + 1) (pos3 - pos2 - 1)).bind stoi
  let au5 ← (substr s (pos3 + 1) (pos4 - pos3 - 1)).bind stoi
  let delay24 ← (substr s (pos4 + 1) (pos5 - pos4 - 1)).bind stoi
  let delay5 ← (substr s (pos5 + 1) (pos6 - pos5 - 1)).bind stoi
  let flag ← (substr s (pos6 + 1) (-1)).bind stoi
  return ⟨⟨rssi24, au24, rssi5, au5⟩, delay24, delay5, flag⟩

/-- `doTest` on the lines of a file, of which the first is skipped. -/
def doTest (uninit : Int) (tree : TreeNode) (input : List Text) : Option Score :=
  input.tail.foldlM (fun score s => (readTested s).bind fun tested => countRow uninit tree score
    tested.row)
    ⟨0, 0, 0⟩

/-! What the files are to hold. -/

/-- A bin of each band with the label for a difference in delay. -/
def labelled (var : Int) (bin24 bin5 : Reading) : Tested :=
  ⟨⟨bin24.rssi, bin24.au, bin5.rssi, bin5.au⟩, bin24.delay, bin5.delay,
    if |bin24.delay - bin5.delay| < var * 1000 then 2 else if bin5.delay ≤ bin24.delay then 1
      else 0⟩

def allPairs (var : Int) (bins24 bins5 : List Reading) : List Tested :=
  bins5.flatMap fun bin5 => bins24.map fun bin24 => labelled var bin24 bin5

/-! The seven fields of a line. -/

theorem readTested_printed (rssi24 au24 rssi5 au5 delay24 delay5 flag : Int)
    (fit : ∀ value ∈ [rssi24, au24, rssi5, au5, delay24, delay5, flag], IsInt value) :
    readTested (zeroPad 0 rssi24 ++ ',' ::
      (zeroPad 0 au24 ++ ',' :: (zeroPad 0 rssi5 ++ ',' :: (zeroPad 0 au5 ++
      ',' :: (zeroPad 0 delay24 ++ ',' :: (zeroPad 0 delay5 ++ ',' :: zeroPad 0 flag)))))) =
      some ⟨⟨rssi24, au24, rssi5, au5⟩, delay24, delay5, flag⟩ := by
  simp only [List.forall_mem_cons, List.not_mem_nil, false_implies, implies_true, and_true] at fit
  obtain ⟨fit1, fit2, fit3, fit4, fit5, fit6, fit7⟩ := fit
  have at1 := behind_start (zeroPad 0 rssi24 ++ ',' ::
      (zeroPad 0 au24 ++ ',' :: (zeroPad 0 rssi5 ++ ',' ::
    (zeroPad 0 au5 ++ ',' ::
      (zeroPad 0 delay24 ++ ',' :: (zeroPad 0 delay5 ++ ',' :: zeroPad 0 flag))))))
  obtain ⟨read1, at2⟩ := at1.number fit1 (Int.sub_zero _).symm
  obtain ⟨read2, at3⟩ := at2.number fit2 (Int.sub_sub _ _ _)
  obtain ⟨read3, at4⟩ := at3.number fit3 (Int.sub_sub _ _ _)
  obtain ⟨read4, at5⟩ := at4.number fit4 (Int.sub_sub _ _ _)
  obtain ⟨read5, at6⟩ := at5.number fit5 (Int.sub_sub _ _ _)
  obtain ⟨read6, at7⟩ := at6.number fit6 (Int.sub_sub _ _ _)
  have read7 := at7.lastNumber fit7
  simp only [readTested, read1, read2, read3, read4, read5, read6, read7, Option.bind_eq_bind,
    Option.bind_some]
  rfl

/-! From the tables to the files. -/

/-- The entry of the map that a bin of the first table becomes. -/
def entry (bin : Reading) : Bin := ⟨key bin, bin.delay⟩

theorem binsOf_distinct (bins : List Reading) (distinct : (bins.map key).Nodup) :
    binsOf bins = bins.map entry := by
  have fold (rest : List Reading) (done : List Bin)
      (apart : (done.map Bin.first ++ rest.map key).Nodup) :
      rest.foldl store done = done ++ rest.map entry := by
    induction rest generalizing done with
    | nil => simp
    | cons bin rest ih =>
        have fresh : ¬ ∃ other ∈ done, other.first = key bin := by
          rintro ⟨other, member, same⟩
          have different := (List.nodup_append.mp apart).2.2 other.first
              (List.mem_map_of_mem member)
            (key bin) List.mem_cons_self
          exact different same
        have next := ih (done ++ [entry bin]) (by
          rw [List.map_append, List.append_assoc]
          exact apart)
        rw [List.foldl_cons, store, if_neg fresh]
        rw [List.append_assoc] at next
        exact next
  exact fold bins [] distinct

theorem written_all (beyond : Int → Int) (var : Int) (bins : List Bin) (table : List Reading) :
    written beyond var bins table (fun _ _ => true) =
      table.flatMap fun reading => bins.map fun bin => row beyond var reading bin := by
  have firsts {α : Type} (items : List α) : items.zipIdx.map Prod.fst = items :=
    List.zipIdx_map_fst 0 items
  have inner (reading : Reading) :
      (bins.zipIdx.filter fun _ => true).map (fun bin => row beyond var reading bin.1) =
      bins.map fun bin => row beyond var reading bin := by
    rw [List.filter_true]
    conv_rhs => rw [← firsts bins, List.map_map]
    rfl
  unfold written
  simp only [inner]
  conv_rhs => rw [← firsts table, List.flatMap_map]

section
variable (beyond : Int → Int) (var : Int)

theorem row_tested (range : -2 ^ 31 ≤ var * 1000 ∧ var * 1000 < 2 ^ 31) (bin24 bin5 : Reading)
    (ints24 : IsInt bin24.rssi ∧ IsInt bin24.au) (ints5 : IsInt bin5.rssi ∧ IsInt bin5.au)
    (small24 : -2147483 ≤ bin24.delay ∧ bin24.delay ≤ 2147483)
    (small5 : -2147483 ≤ bin5.delay ∧ bin5.delay ≤ 2147483) :
    readTested (row beyond var bin5 (entry bin24)).text = some (labelled var bin24 bin5) := by
  have near : |bin24.delay - bin5.delay| < 2 ^ 31 := abs_lt.mpr ⟨by omega, by omega⟩
  have label := choose_exact beyond var bin24.delay bin5.delay range.1 range.2 near
  have text : (row beyond var bin5 (entry bin24)).text =
      zeroPad 0 bin24.rssi ++ ',' ::
        (zeroPad 0 bin24.au ++ ',' :: (zeroPad 0 bin5.rssi ++ ',' :: (zeroPad 0 bin5.au ++
        ',' :: (zeroPad 0 bin24.delay ++ ',' :: (zeroPad 0 bin5.delay ++
          ',' :: zeroPad 0 (choose beyond var bin24.delay bin5.delay)))))) := by
    simp [Row.text, row, entry, key]
  rw [text, label]
  apply readTested_printed
  simp only [List.forall_mem_cons, List.not_mem_nil, false_implies, implies_true, and_true]
  refine ⟨ints24.1, ints24.2, ints5.1, ints5.2, ⟨by omega, by omega⟩, ⟨by omega, by omega⟩, ?_⟩
  split
  · exact ⟨by decide, by decide⟩
  · split
    · exact ⟨by decide, by decide⟩
    · exact ⟨by decide, by decide⟩

end

theorem summary_small {samples bins : List Reading} (range : InRange samples)
    (summary : Summarises samples bins) :
    ∀ bin ∈ bins, -2147483 ≤ bin.delay ∧ bin.delay ≤ 2147483 := by
  intro bin member
  exact delaysOf_small range _ _ (summary.ranked bin member).mem

theorem summary_keys {samples bins : List Reading} (summary : Summarises samples bins) :
    (bins.map key).Nodup := by
  apply List.pairwise_map.mpr
  apply (List.pairwise_map.mp summary.distinct).imp
  intro first second apart same
  obtain ⟨rssi, au⟩ := key_numbers first second same
  exact apart (Prod.ext rssi au)

theorem doTest_read (uninit : Int) (tree : TreeNode) (first : Text) (lines : List Text)
    (rows : List Tested) (read : lines.mapM readTested = some rows) :
    doTest uninit tree (first :: lines) =
      DecisionTree.doTest uninit tree (rows.map Tested.row) := by
  have fold (lines : List Text) (rows : List Tested) (read : lines.mapM readTested = some rows)
      (score : Score) :
      lines.foldlM (fun score s => (readTested s).bind fun tested => countRow uninit tree score
        tested.row) score =
        (rows.map Tested.row).foldlM (countRow uninit tree) score := by
    induction lines generalizing rows score with
    | nil =>
        cases Option.some.inj read
        rfl
    | cons line lines ih =>
        rw [List.mapM_cons, Option.bind_eq_bind, Option.bind_eq_some_iff] at read
        obtain ⟨tested, said, more⟩ := read
        rw [Option.bind_eq_bind, Option.bind_eq_some_iff] at more
        obtain ⟨rest, later, same⟩ := more
        rw [← Option.some.inj same, List.foldlM_cons, said, Option.bind_some, List.map_cons,
          List.foldlM_cons]
        cases countRow uninit tree score tested.row with
        | none => rfl
        | some next => exact ih rest later next
  exact fold lines rows read ⟨0, 0, 0⟩

theorem files_pairs (beyond : Int → Int) (draws : Nat → Nat) (var : Int) (order : Order)
    (uninit : Nat) (range : -2 ^ 31 ≤ var * 1000 ∧ var * 1000 < 2 ^ 31) (lines24 lines5 : List Text)
    (bins24 bins5 : List Reading) (back24 : lines24.mapM readRow = some bins24)
    (back5 : lines5.mapM readRow = some bins5) (keys : (bins24.map key).Nodup)
    (small24 : ∀ bin ∈ bins24, -2147483 ≤ bin.delay ∧ bin.delay ≤ 2147483)
    (small5 : ∀ bin ∈ bins5, -2147483 ≤ bin.delay ∧ bin.delay ≤ 2147483) :
    ∃ training testing trainingRows testingRows,
      flagTrainingSet2 beyond draws var order uninit lines24 lines5 =
        some (header :: training, header :: testing) ∧
        training.mapM readTested = some trainingRows ∧ testing.mapM readTested = some testingRows ∧
        (trainingRows ++ testingRows).Perm (allPairs var bins24 bins5) := by
  -- the two files, read back, hold every pair of the two tables once
  have map : lines24.foldlM (fun m line => (readRow line).map (store m)) [] =
      some (bins24.map entry) := by
    rw [foldlM_readRow store lines24 bins24 back24 []]
    exact congrArg some (binsOf_distinct bins24 keys)
  have perm := order.perm (bins24.map entry)
  have loops := foldlM_readRow (fun state reading =>
      (order.arrange (bins24.map entry)).foldl (visit beyond draws var reading) { state with
        index := 0 })
    lines5 bins5 back5 ⟨0, uninit, 0, [], []⟩
  obtain ⟨training, testing⟩ := rows_at beyond draws var (order.arrange (bins24.map entry)) bins5 0
    ⟨0, uninit, 0, [], []⟩ (Nat.zero_mul _).symm
  let tested := testedBy draws (order.arrange (bins24.map entry)).length
  let trained := written beyond var (order.arrange (bins24.map entry)) bins5 fun i j => !tested i j
  let held := written beyond var (order.arrange (bins24.map entry)) bins5 tested
  -- every row of the product is read back as the pair it stands for
  let decode := fun line : TrainingSplit.Row => (readTested line.text).getD ⟨⟨0, 0, 0, 0⟩, 0, 0, 0⟩
  have whole : (trained ++ held).Perm
      (bins5.flatMap fun bin5 => (bins24.map entry).map fun bin => row beyond var bin5 bin) := by
    have both := written_perm beyond var (order.arrange (bins24.map entry)) bins5 tested
    rw [written_all] at both
    exact both.trans (List.Perm.flatMap_left bins5 fun bin5 _ => perm.map _)
  have pair (bin24 bin5 : Reading) (member24 : bin24 ∈ bins24) (member5 : bin5 ∈ bins5) :
      readTested (row beyond var bin5 (entry bin24)).text = some (labelled var bin24 bin5) := by
    obtain ⟨line24, -, said24⟩ := mapM_member back24 member24
    obtain ⟨line5, -, said5⟩ := mapM_member back5 member5
    obtain ⟨rssi24, au24, -⟩ := readRow_ints line24 bin24 said24
    obtain ⟨rssi5, au5, -⟩ := readRow_ints line5 bin5 said5
    exact row_tested beyond var range bin24 bin5 ⟨rssi24, au24⟩ ⟨rssi5, au5⟩
      (small24 bin24 member24)
      (small5 bin5 member5)
  have decoded : ∀ line ∈ trained ++ held, readTested line.text = some (decode line) := by
    intro line member
    obtain ⟨bin5, member5, inside⟩ := List.mem_flatMap.mp (whole.mem_iff.mp member)
    obtain ⟨bin, listed, rfl⟩ := List.mem_map.mp inside
    obtain ⟨bin24, member24, rfl⟩ := List.mem_map.mp listed
    simp only [decode, pair bin24 bin5 member24 member5, Option.getD_some]
  have pairs : (bins5.flatMap fun bin5 => (bins24.map entry).map fun bin => row beyond var bin5
      bin).map decode =
      allPairs var bins24 bins5 := by
    rw [List.map_flatMap, allPairs]
    apply List.flatMap_congr
    intro bin5 member5
    rw [List.map_map, List.map_map]
    apply List.map_congr_left
    intro bin24 member24
    simp only [Function.comp, decode, pair bin24 bin5 member24 member5, Option.getD_some]
  refine ⟨trained.map Row.text, held.map Row.text, trained.map decode, held.map decode, ?_,
    ?_, ?_, ?_⟩
  · simp only [flagTrainingSet2, map, Option.bind_eq_bind, Option.bind_some]
    refine (congrArg (fun read => Option.bind read _) loops).trans ?_
    rw [Option.bind_some, training, testing]
    rfl
  · rw [List.mapM_map]
    exact mapM_some trained fun line member => decoded line (List.mem_append_left _ member)
  · rw [List.mapM_map]
    exact mapM_some held fun line member => decoded line (List.mem_append_right _ member)
  · rw [← List.map_append, ← pairs]
    exact whole.map decode

/-- From the samples of both bands to the two files, whatever the orders of the maps and the numbers
of `rand`: every pair of a 2.4 GHz bin and a 5 GHz bin stands in one of the files, once, with the
delays and the label that belong to it, and is read back so; `doTest` scores a tree on the pairs of
the test file. -/
theorem pipeline_pairs (beyond : Int → Int) (draws : Nat → Nat) (var : Int)
    (order24 order5 : Iteration (Text × List Int)) (order : Order) (uninit : Nat)
    (range : -2 ^ 31 ≤ var * 1000 ∧ var * 1000 < 2 ^ 31)
    (input24 input5 : List Text) (samples24 samples5 : List Reading)
    (read24 : input24.mapM readRow = some samples24)
    (read5 : input5.mapM readRow = some samples5)
    (fits24 : ∀ reading ∈ samples24, reading.delay + 1000 < 2 ^ 31)
    (fits5 : ∀ reading ∈ samples5, reading.delay + 1000 < 2 ^ 31) :
    ∃ lines24 lines5 bins24 bins5 training testing trainingRows testingRows,
      getBin beyond order24 input24 = some lines24 ∧ Summarises samples24 bins24 ∧
        getBin beyond order5 input5 = some lines5 ∧ Summarises samples5 bins5 ∧
        flagTrainingSet2 beyond draws var order uninit lines24 lines5 =
          some (header :: training, header :: testing) ∧
        training.mapM readTested = some trainingRows ∧ testing.mapM readTested = some testingRows ∧
        (trainingRows ++ testingRows).Perm (allPairs var bins24 bins5) ∧
        ∀ uninit tree, doTest uninit tree (header :: testing) =
          DecisionTree.doTest uninit tree (testingRows.map Tested.row) := by
  obtain ⟨lines24, bins24, written24, back24, summary24⟩ :=
    getBin_summarises beyond order24 input24 samples24 read24 fits24
  obtain ⟨lines5, bins5, written5, back5, summary5⟩ :=
    getBin_summarises beyond order5 input5 samples5 read5 fits5
  obtain ⟨training, testing, trainingRows, testingRows, files, trained, held, pairs⟩ :=
    files_pairs beyond draws var order uninit range lines24 lines5 bins24 bins5 back24 back5
      (summary_keys summary24)
      (summary_small (read_range read24 fits24) summary24)
        (summary_small (read_range read5 fits5) summary5)
  exact ⟨lines24, lines5, bins24, bins5, training, testing, trainingRows, testingRows, written24,
    summary24, written5,
    summary5, files, trained, held, pairs, fun uninit tree =>
      doTest_read uninit tree header testing testingRows held⟩

def twoSamples : List Text := ["-51,11,1500".toList, "-50,10,3000".toList]

def byArrival (Entry : Type) : Iteration Entry := ⟨id, fun _ => .refl _⟩

theorem twoSamples_read : twoSamples.mapM readRow =
    some [⟨-51, 11, 1500⟩, ⟨-50, 10, 3000⟩] := by decide +kernel

theorem pipeline_pairs_two : twoSamples.mapM readRow = some [⟨-51, 11, 1500⟩, ⟨-50, 10, 3000⟩] ∧
    ∃ lines24 lines5 bins24 bins5 training testing trainingRows testingRows,
      getBin id (byArrival _) twoSamples = some lines24 ∧
        Summarises [⟨-51, 11, 1500⟩, ⟨-50, 10, 3000⟩] bins24 ∧
        getBin id (byArrival _) twoSamples = some lines5 ∧
          Summarises [⟨-51, 11, 1500⟩, ⟨-50, 10, 3000⟩] bins5 ∧
        flagTrainingSet2 id id 1 arrival 0 lines24 lines5 =
          some (header :: training, header :: testing) ∧
        training.mapM readTested = some trainingRows ∧ testing.mapM readTested = some testingRows ∧
        (trainingRows ++ testingRows).Perm (allPairs 1 bins24 bins5) ∧
        ∀ uninit tree, doTest uninit tree (header :: testing) =
          DecisionTree.doTest uninit tree (testingRows.map Tested.row) :=
  ⟨twoSamples_read, pipeline_pairs id id 1 (byArrival _) (byArrival _) arrival 0
    (by decide) twoSamples twoSamples _ _
    twoSamples_read twoSamples_read (by decide) (by decide)⟩

end LazyAS.OfflinePipeline

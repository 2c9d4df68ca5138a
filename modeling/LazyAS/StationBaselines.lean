import LazyAS.AgingRemove
import LazyAS.AgingSessions
import LazyAS.Runs
import LazyAS.WireText

/-! The throughput baselines in `stationTable`. Its values are `ThroughputRecord`s, and the
insertion with aging reads the first bytes of a value, here of the byte counter `tt`, as seconds. -/
namespace LazyAS.StationBaselines
open LinkedChain AgingHash AgingWalk AgingInsert AgingTable AgingResize AgingSessions AgingRemove

/-! What an insertion takes from the other keys. -/

section
variable {Key Value : Type} [DecidableEq Key] (hash : Key → Nat) (stamp : Value → Int) (now : Int)

/-- No entry for another key that is alive has timed out where the insertion meets it: in the chain
of the key and, if the table grows, in front of a later entry of the same new chain. -/
structure Spares (table : HashTable Key Value) (chains : Nat → List (Block Key Value)) (key : Key)
    (alive : Value → Prop) :
    Prop where
  walked : ∀ block ∈ chains (htIndex hash table key), block.2.key ≠ key → alive block.2.value →
    timedOut stamp now block.2.value = false
  moved : resizes stamp now table key (chains (htIndex hash table key)) →
    ∀ i < table.arraySize, i ≠ htIndex hash table key → ∀ j,
      ∀ block ∈ (bucket hash (table.arraySize * 2) (chains i) j).dropLast, alive block.2.value →
        timedOut stamp now block.2.value = false

variable {hash stamp now} {table after : HashTable Key Value}
    {chains : Nat → List (Block Key Value)}

theorem finds_grown (sound : Sound hash table chains) {entry : Ptr} {data : HashEntry Key Value}
    {middle : HashTable Key Value} (live : table.heap entry ≠ none)
    (outside : ∀ i < table.arraySize, entry ∉ pointers (chains i))
    (placed : Placed stamp now table (htIndex hash table data.key) entry data
      (chains (htIndex hash table data.key)) middle)
    (moved : Moved hash stamp now (middle.arraySize * 2)
      (entries middle (Function.update chains (htIndex hash table data.key)
      (putIn stamp now entry data (chains (htIndex hash table data.key))))) after)
        (block : Block Key Value)
    (different : block.2.key ≠ data.key)
    (member : block ∈ chains (htIndex hash table block.2.key)) :
    Finds hash after block.2.key block.2.value ↔
      if htIndex hash table block.2.key = htIndex hash table data.key then
        timedOut stamp now block.2.value = false
      else block ∈ (bucket hash (table.arraySize * 2) (chains (htIndex hash table block.2.key))
        (hash block.2.key % (table.arraySize * 2))).dropLast →
          timedOut stamp now block.2.value = false := by
  -- an entry for another key when the table has grown
  have positive : 0 < table.arraySize := Nat.lt_of_lt_of_le (by decide) sound.large
  have stored := stored_insert sound.toStored positive live outside placed
  have positive' : 0 < middle.arraySize := by rwa [placed.size]
  have larger : 0 < after.arraySize := by
    rw [moved.sized]
    omega
  have home : htIndex hash middle block.2.key =
      htIndex hash table block.2.key := by rw [htIndex, placed.size, htIndex]
  have grown : htIndex hash after block.2.key =
      hash block.2.key % (middle.arraySize * 2) := by rw [htIndex, moved.sized]
  rw [finds_iff moved.stored larger, grown, gathered_chain stored positive', home, placed.size]
  by_cases here : htIndex hash table block.2.key = htIndex hash table data.key
  · rw [if_pos here, here, Function.update_self]
    constructor
    · rintro ⟨p, kept⟩
      rcases mem_putIn stamp now entry data
          _ _ (List.filter_sublist.subset (gathered_subset stamp now _ kept)) with wrong | ⟨old, _⟩
      · exact absurd (congrArg HashEntry.key wrong) different
      · exact ((mem_fresh stamp now _ _).mp old).2
    · intro new
      rw [here] at member
      have old := putIn_old stamp now entry data _ block
          ((mem_fresh stamp now _ _).mpr ⟨member, new⟩) different
      refine ⟨block.1, fresh_subset_gathered stamp now _ ((mem_fresh stamp now _ _).mpr ⟨?_, new⟩)⟩
      exact List.mem_filter.mpr ⟨old, decide_eq_true rfl⟩
  · rw [if_neg here, Function.update_of_ne here]
    have inside := index_lt hash positive block.2.key
    have unique := sound.unique _ inside
    have distinct : (bucket hash (table.arraySize * 2) (chains (htIndex hash table block.2.key))
        (hash block.2.key % (table.arraySize * 2))).Nodup :=
          List.filter_sublist.nodup (List.Nodup.of_map _ unique)
    have listed : block ∈ bucket hash (table.arraySize * 2)
        (chains (htIndex hash table block.2.key))
        (hash block.2.key % (table.arraySize * 2)) :=
          List.mem_filter.mpr ⟨member, decide_eq_true rfl⟩
    constructor
    · rintro ⟨p, kept⟩
      have inChain := List.filter_sublist.subset (gathered_subset stamp now _ kept)
      have same := same_block unique inChain member rfl
      rw [same] at kept
      exact ((mem_gathered stamp now _ distinct block).mp kept).2
    · intro last
      exact ⟨block.1, (mem_gathered stamp now _ distinct block).mpr ⟨listed, last⟩⟩

theorem insert_spares (sound : Sound hash table chains) {entry : Ptr} {data : HashEntry Key Value}
    {link : Ptr} (live : table.heap entry = some ⟨data, link⟩)
    (outside : ∀ i < table.arraySize, entry ∉ pointers (chains i)) (fuel : Nat)
    (ended : htInsertHe hash stamp now fuel table entry = some after) (alive : Value → Prop) :
    (∀ other value, other ≠ data.key → alive value → Finds hash table other value →
      Finds hash after other value) ↔
      Spares hash stamp now table chains data.key alive := by
  -- an insertion that comes to its end takes no entry that is alive from another key exactly if it
  -- spares them
  have positive : 0 < table.arraySize := Nat.lt_of_lt_of_le (by decide) sound.large
  have inside := index_lt hash positive data.key
  have used : table.heap entry ≠ none := by simp [live]
  obtain ⟨_, middle, placed, ends⟩ := insertHe_cases sound live outside fuel ended
  obtain ⟨_, others⟩ := finds_placed sound.toStored positive used outside placed
  -- an entry of the table, found by its key
  have found : ∀ i < table.arraySize, ∀ block ∈ chains i,
      Finds hash table block.2.key block.2.value := by
    intro i below block member
    have home := sound.placed i below block member
    exact (finds_iff sound.toStored positive _ _).mpr ⟨block.1, home ▸ member⟩
  rcases ends with ⟨calm, rfl⟩ | ⟨load, moved, _⟩
  · constructor
    · intro keeps
      refine ⟨fun block member different alive => ?_, fun load => absurd load calm⟩
      have kept := keeps _ _ different alive (found _ inside block member)
      exact ((others _ _ different).mp kept).2 (sound.placed _ inside block member)
    · intro spares other value different alive finds
      refine (others other value different).mpr ⟨finds, fun here => ?_⟩
      obtain ⟨p, member⟩ := (finds_iff sound.toStored positive other value).mp finds
      exact spares.walked (p, ⟨other, value⟩) (here ▸ member) different alive
  · have fate := finds_grown sound used outside placed moved
    constructor
    · intro keeps
      refine ⟨fun block member different alive => ?_, fun _ i below other j block member
        alive => ?_⟩
      · have home := sound.placed _ inside block member
        have kept := (fate block different (home ▸ member)).mp
            (keeps _ _ different alive (found _ inside block member))
        rwa [if_pos home] at kept
      · obtain ⟨inChain, hashed⟩ := List.mem_filter.mp (List.dropLast_subset _ member)
        have home := sound.placed i below block inChain
        have different : block.2.key ≠ data.key := fun same =>
            other (home.symm.trans (congrArg _ same))
        have kept := (fate block different (home ▸ inChain)).mp
            (keeps _ _ different alive (found i below block inChain))
        rw [if_neg (home ▸ other), home, of_decide_eq_true hashed] at kept
        exact kept member
    · intro spares other value different alive finds
      obtain ⟨p, member⟩ := (finds_iff sound.toStored positive other value).mp finds
      refine (fate (p, ⟨other, value⟩) different member).mpr ?_
      by_cases here : htIndex hash table other = htIndex hash table data.key
      · rw [if_pos here]
        exact spares.walked (p, ⟨other, value⟩) (here ▸ member) different alive
      · rw [if_neg here]
        exact fun last => spares.moved load _ (index_lt hash positive other) here _ _ last alive

theorem inserted (sound : Sound hash table chains) {entry : Ptr} (nonnull : entry ≠ 0)
    (new : table.heap entry = none) (key : Key) (value : Value) (fuel : Nat)
    (ended : htInsert hash stamp now fuel table entry key value = some after)
    (alive : Value → Prop) : (∃ grown, Sound hash after grown) ∧
      ((∀ other kept, other ≠ key → alive kept → Finds hash table other kept →
        Finds hash after other kept) ↔
        Spares hash stamp now table chains key alive) := by
  obtain ⟨outside, made⟩ := created sound nonnull new ⟨key, value⟩
  have positive : 0 < table.arraySize := Nat.lt_of_lt_of_le (by decide) sound.large
  have live : Function.update table.heap entry (some ⟨⟨key, value⟩, 0⟩) entry =
      some ⟨⟨key, value⟩, 0⟩ := Function.update_self ..
  constructor
  · obtain ⟨_, middle, placed, ⟨calm, rfl⟩ | ⟨_, moved, light⟩⟩ :=
      insertHe_cases made live outside fuel ended
    · exact ⟨_, sound_placed made (by simp) outside placed calm⟩
    · exact ⟨_, sound_moved (placed.size ▸ sound.large) moved light⟩
  · have spares := insert_spares made live outside fuel ended alive
    simp only [finds_created sound nonnull new ⟨key, value⟩] at spares
    exact spares.trans ⟨fun all => ⟨all.walked, all.moved⟩, fun all => ⟨all.walked, all.moved⟩⟩

end

open WireText Runs

/-- A `Record` without the delay, which `getInfo` leaves alone. Of the airtime both times are kept,
not their quotient. -/
structure Record where
  staMac : Text
  rssi : Int
  mode : Nat
  au : Int × Int
  br : Rat
  tt : Int
  rt : Int

structure ThroughputRecord where
  tt : Int
  rt : Int
  lastTime : Int
  deriving DecidableEq

abbrev StationTable := HashTable Text ThroughputRecord

/-- What the commands print, as `getInfo` reads it. Nothing stands for a failed `popen`; where a
command prints nothing, the signal is 1 and every other number -1. -/
structure Shell where
  onFirst : Option Bool
  survey : Option (Int × Int)
  signal : Option Int
  bitRate : Option Rat
  txBytes : Option Int
  rxBytes : Option Int

/-- A call of `getInfo` with what it meets: `time`, the clock of an insertion, what `malloc`
returns, and how many passes its loops may make. -/
structure Call where
  record : Record
  shell : Shell
  curTime : Int
  clock : Int
  entry : Ptr
  fuel : Nat

/-- `getInfo` up to the bit rate, with whether it goes on. -/
def surveyed (shell : Shell) (record : Record) : Record × Bool :=
  match shell.onFirst with
  | none => (record, false)
  | some first =>
      let record := { record with mode := if first then 0 else 1 }
      match shell.survey with
      | none => (record, false)
      | some (active, busy) =>
          if active = -1 ∨ busy = -1 then (record, false)
          else
            let record := { record with au := (busy, active) }
            match shell.signal with
            | none => (record, false)
            | some rssi =>
                if rssi = 1 then (record, false)
                else
                  let record := { record with rssi := rssi }
                  match shell.bitRate with
                  | none => (record, false)
                  | some br => if br = -1 then (record, false) else ({ record with br := br }, true)

def readings (shell : Shell) : Option (Int × Int) := do
  let tt ← shell.txBytes
  let rt ← shell.rxBytes
  if rt = -1 ∨ tt = -1 then none else some (tt, rt)

section
variable (hash : Text → Nat) (tvSec : Int → Int)

/-- The seconds of the `timeval` that a baseline is taken for; `tvSec` is how the machine reads the
first bytes of a `long long` as `tv_sec`. -/
def stamp (baseline : ThroughputRecord) : Int := tvSec baseline.tt

def getInfo (table : StationTable) (call : Call) : Option (StationTable × Record × Bool) :=
  let (record, onward) := surveyed call.shell call.record
  if onward = false then some (table, record, false)
  else do
    let record := { record with rt := 0, tt := 0 }
    let tRecord ← entryFor table.heap record.staMac call.fuel
        (table.array (htIndex hash table record.staMac))
    if tRecord = 0 then
      match readings call.shell with
      | none => some (table, record, false)
      | some (tt, rt) =>
          (htInsert hash (stamp tvSec) call.clock call.fuel table call.entry record.staMac
            ⟨tt, rt, call.curTime⟩).map
            fun after => (after, record, false)
    else do
      let block ← table.heap tRecord
      let old := block.data.value
      let timeGap := (call.curTime - old.lastTime).bmod (2 ^ 32)
      if timeGap ≥ 10 then
        match readings call.shell with
        | none => (htRemove hash call.fuel table record.staMac).map fun after =>
            (after, record, false)
        | some (tt, rt) =>
            some (written table tRecord block ⟨tt, rt, call.curTime⟩,
              { record with tt := (tt - old.tt).tdiv timeGap, rt := (rt - old.rt).tdiv timeGap },
                true)
      else some (table, record, false)

def next (table : StationTable) (call : Call) : StationTable :=
  ((getInfo hash tvSec table call).map Prod.fst).getD table

/-- The call comes to its end, and `malloc` returns memory that is not in use. -/
def Ends (table : StationTable) (call : Call) : Prop :=
  (getInfo hash tvSec table call).isSome ∧ call.entry ≠ 0 ∧ table.heap call.entry = none

/-- A baseline that is at most `AGE_TIMEOUT` seconds old. -/
def Recent (call : Call) (baseline : ThroughputRecord) : Prop :=
  call.clock - baseline.lastTime ≤ ageTimeout

instance (call : Call) (baseline : ThroughputRecord) : Decidable (Recent call baseline) :=
  inferInstanceAs (Decidable (_ ≤ _))

/-- The call leaves the recent baselines of other stations where they are. -/
def Keeps (table : StationTable) (call : Call) : Prop :=
  ∀ other baseline, other ≠ call.record.staMac → Recent call baseline →
    Finds hash table other baseline →
    Finds hash (next hash tvSec table call) other baseline

def Inserts (table : StationTable) (call : Call) : Prop :=
  (surveyed call.shell call.record).2 = true ∧
    (∀ baseline, ¬ Finds hash table call.record.staMac baseline) ∧
    readings call.shell ≠ none

/-- An insertion meets no recent baseline whose byte counter reads as a time long past. -/
def Careful (table : StationTable) (call : Call) : Prop :=
  Inserts hash table call → ∀ chains, Sound hash table chains →
    Spares hash (stamp tvSec) call.clock table chains call.record.staMac (Recent call)

variable {hash tvSec}

theorem surveyed_mac (shell : Shell) (record : Record) :
    (surveyed shell record).1.staMac = record.staMac := by
  unfold surveyed
  repeat' split
  all_goals rfl

theorem getInfo_cases {table after : StationTable}
    {chains : Nat → List (Block Text ThroughputRecord)} {call : Call} {result : Record × Bool}
    (stored : Stored hash table chains) (positive : 0 < table.arraySize)
    (ended : getInfo hash tvSec table call = some (after, result)) :
    (Inserts hash table call ∧ ∃ baseline,
      htInsert hash (stamp tvSec) call.clock call.fuel table call.entry
        call.record.staMac baseline = some after) ∨
      ¬ Inserts hash table call ∧ (after = table ∨
        htRemove hash call.fuel table call.record.staMac = some after ∨
        ∃ block ∈ chains (htIndex hash table call.record.staMac), block.2.key = call.record.staMac ∧
          ∃ cell value,
          table.heap block.1 = some cell ∧ after = written table block.1 cell value) := by
  -- the four things a call does to the table
  have mac := surveyed_mac call.shell call.record
  have onward : Inserts hash table call → (surveyed call.shell call.record).2 = true := And.left
  rw [getInfo] at ended
  cases surveys : surveyed call.shell call.record with
  | mk record on =>
      rw [surveys] at mac onward ended
      dsimp only at mac onward ended
      cases on with
      | false =>
          cases ended
          exact Or.inr ⟨fun wrong => Bool.false_ne_true (onward wrong), Or.inl rfl⟩
      | true =>
          rw [if_neg (by decide), mac] at ended
          obtain ⟨tRecord, found, ended⟩ := Option.bind_eq_some_iff.mp ended
          rcases entryFor_cases hash stored positive call.record.staMac call.fuel tRecord found with
            ⟨null, unknown⟩ | ⟨block, member, hits, here, nonnull⟩
          · rw [if_pos null] at ended
            cases read : readings call.shell with
            | none =>
                rw [read] at ended
                cases ended
                exact Or.inr ⟨fun wrong => wrong.2.2 read, Or.inl rfl⟩
            | some both =>
                rw [read] at ended
                obtain ⟨grown, inserted, same⟩ := Option.map_eq_some_iff.mp ended
                cases same
                exact Or.inl ⟨⟨by rw [surveys], unknown, by simp [read]⟩, _, inserted⟩
          · have known : ¬ Inserts hash table call := fun wrong =>
              wrong.2.1 block.2.value ((finds_iff stored positive _ _).mpr ⟨block.1, hits ▸ member⟩)
            rw [if_neg nonnull] at ended
            obtain ⟨cell, live, ended⟩ := Option.bind_eq_some_iff.mp ended
            refine Or.inr ⟨known, ?_⟩
            split at ended
            · cases read : readings call.shell with
              | none =>
                  rw [read] at ended
                  obtain ⟨grown, removed, same⟩ := Option.map_eq_some_iff.mp ended
                  cases same
                  exact Or.inr (Or.inl removed)
              | some both =>
                  rw [read] at ended
                  cases ended
                  exact Or.inr (Or.inr ⟨block, member, hits, cell, _, here ▸ live, by rw [here]⟩)
            · cases ended
              exact Or.inl rfl

theorem next_exact {table : StationTable} {chains : Nat → List (Block Text ThroughputRecord)}
    {call : Call} (sound : Sound hash table chains) (ends : Ends hash tvSec table call) :
    (∃ grown, Sound hash (next hash tvSec table call) grown) ∧
      (Keeps hash tvSec table call ↔ Careful hash tvSec table call) := by
  have positive : 0 < table.arraySize := Nat.lt_of_lt_of_le (by decide) sound.large
  obtain ⟨returns, nonnull, new⟩ := ends
  obtain ⟨⟨after, result⟩, ended⟩ := Option.isSome_iff_exists.mp returns
  have same : next hash tvSec table call = after := by
    rw [next, ended]
    rfl
  rw [Keeps, same]
  rcases getInfo_cases sound.toStored positive ended with ⟨inserts, baseline, ended⟩ |
      ⟨calm, untouched | removed | written⟩
  · have spares := fun {chains} (sound : Sound hash table chains) =>
      inserted sound nonnull new call.record.staMac baseline call.fuel ended (Recent call)
    refine ⟨(spares sound).1, fun keeps _ chains' sound' =>
      (spares sound').2.mp keeps, fun careful => ?_⟩
    exact (spares sound).2.mpr (careful inserts chains sound)
  · rw [untouched]
    exact ⟨⟨chains, sound⟩, iff_of_true (fun _ _ _ _ found => found) fun wrong => absurd wrong calm⟩
  · obtain ⟨size, sound'⟩ := sound_remove sound call.record.staMac call.fuel removed
    refine ⟨⟨_, sound'⟩, iff_of_true (fun other baseline different _ found => ?_) fun wrong =>
      absurd wrong calm⟩
    refine finds_changed sound sound' size call.record.staMac (fun block member others => ?_) other
      baseline different found
    exact (List.mem_eraseP_of_neg (by simpa using others)).mpr member
  · obtain ⟨block, member, hits, cell, value, live, rfl⟩ := written
    obtain ⟨before, rest, split⟩ := List.append_of_mem member
    have sound' := sound_written sound (index_lt hash positive _) before rest block split cell live
        value
    refine ⟨⟨_, sound'⟩, iff_of_true (fun other baseline different _ found => ?_) fun wrong =>
      absurd wrong calm⟩
    refine finds_changed sound sound' rfl call.record.staMac (fun kept inside others => ?_) other
      baseline different found
    rw [split] at inside
    have away : kept ≠ block := fun wrong => others (wrong ▸ hits)
    have kept : kept ∈ before ∨ kept ∈ rest := by simpa [away] using inside
    exact List.mem_append.mpr (kept.imp_right (List.mem_cons_of_mem _))

theorem run_exact (calls : List Call) (table : StationTable)
    (sound : ∃ chains, Sound hash table chains)
    (ends : Allowed (next hash tvSec) (Ends hash tvSec) table calls) :
    Allowed (next hash tvSec) (Keeps hash tvSec) table calls ↔
      Allowed (next hash tvSec) (Careful hash tvSec) table calls := by
  induction calls generalizing table with
  | nil => exact Iff.rfl
  | cons call calls ih =>
      obtain ⟨chains, sound⟩ := sound
      obtain ⟨grown, exact'⟩ := next_exact sound ends.1
      exact and_congr exact' (ih _ grown ends.2)

/-- Recent baselines are dropped by no call of a run exactly if every call of it is careful. -/
theorem baselines_kept (hash : Text → Nat) (tvSec : Int → Int)
    (heap : Heap (HashEntry Text ThroughputRecord)) (null : heap 0 = none) (calls : List Call)
    (ends : Allowed (next hash tvSec) (Ends hash tvSec) (htInit initialSize heap) calls) :
    Allowed (next hash tvSec) (Keeps hash tvSec) (htInit initialSize heap) calls ↔
      Allowed (next hash tvSec) (Careful hash tvSec) (htInit initialSize heap) calls :=
  run_exact calls _ ⟨_, sound_init hash heap null⟩ ends

end

def nearStation : Text :=
  ['0', '0', ':', '0', '0', ':', '0', '0', ':', '0', '0', ':', '0', '0', ':', '0', 'd']

def farStation : Text :=
  ['0', '0', ':', '0', '0', ':', '0', '0', ':', '0', '0', ':', '0', '0', ':', '1', '6']

def heardAt (time : Int) (staMac : Text) (entry : Ptr) (bytes : Int) : Call where
  record := ⟨staMac, 0, 0, (0, 0), 0, 0, 0⟩
  shell := ⟨some true, some (1000, 100), some (-50), some 65, some bytes, some bytes⟩
  curTime := time
  clock := time
  entry := entry
  fuel := 9

def bothHeard : List Call := [heardAt 1000 nearStation 1 500, heardAt 1001 farStation 2 500]

theorem bothHeard_ends : Allowed (next (fun _ => 3) id) (Ends (fun _ => 3) id)
    (htInit initialSize fun _ => none) bothHeard :=
  ⟨⟨rfl, by decide, rfl⟩, ⟨rfl, by decide, rfl⟩, trivial⟩

theorem baselines_kept_both :
    Allowed (next (fun _ => 3) id) (Keeps (fun _ => 3) id) (htInit initialSize fun _ => none)
      bothHeard ↔
      Allowed (next (fun _ => 3) id) (Careful (fun _ => 3) id) (htInit initialSize fun _ => none)
        bothHeard :=
  baselines_kept (fun _ => 3) id (fun _ => none) rfl bothHeard bothHeard_ends

def Clocked (calls : List Call) : Prop :=
  (calls.flatMap fun call => [call.curTime, call.clock]).Pairwise (· ≤ ·)

instance (calls : List Call) : Decidable (Clocked calls) :=
  inferInstanceAs (Decidable (List.Pairwise _ _))

/-- Its 500 bytes are taken for the time 500, so the baseline that is one second old is dropped. -/
theorem recent_baseline_dropped : ¬ ∀ calls, Clocked calls →
    Allowed (next (fun _ => 3) id) (Ends (fun _ => 3) id) (htInit initialSize fun _ => none) calls →
    Allowed (next (fun _ => 3) id) (Keeps (fun _ => 3) id) (htInit initialSize fun _ => none)
      calls := by
  intro all
  have keeps := (all bothHeard (by decide) bothHeard_ends).2.1
  obtain ⟨fuel, found⟩ := keeps nearStation ⟨500, 500, 1000⟩ (by decide) (by decide) ⟨2, rfl⟩
  rcases fuel with _ | _ | fuel
  · nomatch found
  · nomatch found
  · nomatch found

end LazyAS.StationBaselines

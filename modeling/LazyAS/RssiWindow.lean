import LazyAS.HandoffApp
import LazyAS.Runs
import Mathlib.Data.List.DropRight

/-! The queue of signal strengths that `chaHandList` keeps for an AP, and its median. `queuesize` is
an `int` and not below 1; `findAvgRssiByApMacChecked` is `findAvgRssiByApMac` with the tests that
Java makes of an index. -/
namespace LazyAS.RssiWindow
open WireText HandoffApp Runs

structure Heard where
  mac : Text
  rssi : Int
  channel : Int
  now : Int

def add (cha : ChaHandList) (call : Heard) : ChaHandList :=
  addAP cha call.mac call.rssi call.channel call.now

/-- `new chaHandList(queueSize)` and what is added to it. -/
def heard (queueSize : Nat) (calls : List Heard) : ChaHandList :=
  run add { queuesize := queueSize } calls

def adjusted (call : Heard) : Int := if call.channel > 13 then int32 (call.rssi + 50) else call.rssi

def readings (mac : Text) (calls : List Heard) : List Int :=
  (calls.filter fun call => call.mac = mac).map adjusted

/-- The last `queueSize` values of those that the queue is filled with and the readings. -/
def window (queueSize : Nat) (mac : Text) (calls : List Heard) : List Int :=
  (List.replicate queueSize (-50) ++ readings mac calls).rtake queueSize

def copied : List Int → Nat → List Int → Option (List Int)
  | a, _, [] => some a
  | a, i, x :: rest => if i < a.length then copied (a.set i x) (i + 1) rest else none

def element (a : List Int) (index : Int) : Option Int := if 0 ≤ index then a[index.toNat]? else none

def medianIndex (queuesize : Nat) : Int := (int32 (queuesize + 1)).tdiv 2 - 1

/-- `findAvgRssiByApMac`; `none` where an index is outside of the array. -/
def findAvgRssiByApMacChecked (cha : ChaHandList) (mac : Text) : Option Int :=
  match cha.list.lookup mac with
  | none => some 0
  | some ap => do
      let a ← copied (List.replicate cha.queuesize 0) 0 ap.rssi
      element (a.insertionSort (· ≤ ·)) (medianIndex cha.queuesize)

/-! The window. -/

theorem readings_concat (mac : Text) (calls : List Heard) (call : Heard) :
    readings mac (calls ++ [call]) =
    if call.mac = mac then readings mac calls ++ [adjusted call] else readings mac calls := by
  by_cases own : call.mac = mac
  · simp [readings, own]
  · simp [readings, own]

theorem filled (queueSize count : Nat) (room : count ≤ queueSize) :
    (List.range count).foldl (fun queue _ => fixRssiQueue queueSize queue (-50)) [] =
      List.replicate count (-50) := by
  -- the loop that fills a new queue
  induction count with
  | zero => rfl
  | succ count ih =>
      have small : (List.replicate count (-50 : Int)).length < queueSize := by
        rw [List.length_replicate]
        exact room
      rw [List.range_succ, List.foldl_append, ih (Nat.le_of_succ_le room), List.replicate_succ']
      exact if_pos small

theorem fixRssiQueue_slides (queueSize : Nat) (positive : 1 ≤ queueSize) (values : List Int)
    (full : queueSize ≤ values.length) (rssi : Int) :
    fixRssiQueue queueSize (values.rtake queueSize) rssi = (values ++ [rssi]).rtake queueSize := by
  obtain ⟨size, rfl⟩ : ∃ size, queueSize = size + 1 := ⟨queueSize - 1, by omega⟩
  have length : (values.rtake (size + 1)).length = size + 1 := by
    rw [List.rtake, List.length_drop]
    omega
  have behind : (values.rtake (size + 1)).tail = values.rtake size := by
    rw [List.rtake, List.rtake, List.tail_drop]
    congr 1
    omega
  rw [fixRssiQueue, if_neg (by omega), behind, List.rtake_concat_succ]

theorem window_length (queueSize : Nat) (mac : Text) (calls : List Heard) :
    (window queueSize mac calls).length = queueSize := by
  rw [window, List.rtake, List.length_drop, List.length_append, List.length_replicate]
  omega

theorem heard_window (queueSize : Nat) (positive : 1 ≤ queueSize) (mac : Text)
    (calls : List Heard) :
    (heard queueSize calls).queuesize = queueSize ∧
      ((heard queueSize calls).list.lookup mac).map ApHandNode.rssi =
        if readings mac calls = [] then none else some (window queueSize mac calls) := by
  -- what is stored for an AP after some calls: nothing before it was heard, and then its window
  induction calls using List.reverseRecOn with
  | nil => simp [heard, run, readings]
  | append_singleton calls call ih =>
      obtain ⟨size, stored⟩ := ih
      have added : heard queueSize (calls ++ [call]) = add (heard queueSize calls) call := by
        simp [heard, run, List.foldl_append]
      rw [added, readings_concat]
      constructor
      · exact size
      · -- a call for another AP leaves the queue alone
        by_cases own : call.mac = mac
        · subst own
          have slides := fixRssiQueue_slides queueSize positive
            (List.replicate queueSize (-50) ++ readings call.mac calls) (by simp) (adjusted call)
          simp only [add, addAP, AList.lookup_insert, Option.map_some, if_true, size,
            List.append_ne_nil_of_right_ne_nil _ (List.cons_ne_nil (adjusted call) []), if_false,
            window, readings_concat, ← List.append_assoc, ← slides]
          cases found : (heard queueSize calls).list.lookup call.mac with
          | none =>
              -- the first call for the AP fills the queue
              have none : readings call.mac calls = [] := by
                by_contra some
                rw [found, if_neg some] at stored
                cases stored
              have whole : (List.replicate queueSize (-50 : Int)).rtake queueSize =
                  List.replicate queueSize (-50) := by
                simp [List.rtake]
              simp [none, whole, filled queueSize queueSize (Nat.le_refl _), adjusted]
          | some ap =>
              -- a later one pushes the oldest value out
              have some : readings call.mac calls ≠ [] := by
                intro none
                rw [found, if_pos none] at stored
                cases stored
              rw [found, if_neg some] at stored
              have same : ap.rssi = window queueSize call.mac calls := Option.some.inj stored
              simp [same, window, adjusted]
        · have other : (add (heard queueSize calls) call).list.lookup mac =
              (heard queueSize calls).list.lookup mac :=
            AList.lookup_insert_ne (Ne.symm own)
          rw [other, if_neg own, stored]
          simp [window, readings_concat, own]

/-! The median. -/

theorem copied_queue (rest front : List Int) (free : Nat) (fits : rest.length ≤ free) :
    copied (front ++ List.replicate free 0) front.length rest =
      some (front ++ rest ++ List.replicate (free - rest.length) 0) := by
  induction rest generalizing front free with
  | nil => simp [copied]
  | cons x rest ih =>
      obtain ⟨free, rfl⟩ : ∃ less, free = less + 1 :=
        ⟨free - 1, by simp only [List.length_cons] at fits; omega⟩
      have inside : front.length < (front ++ List.replicate (free + 1) (0 : Int)).length := by simp
      have next : (front ++ List.replicate (free + 1) 0).set front.length x = front ++ [x] ++
          List.replicate free 0 := by
        simp [List.replicate_succ]
      have step := ih (front ++ [x]) free (Nat.le_of_succ_le_succ fits)
      rw [List.length_append, List.length_singleton] at step
      rw [copied, if_pos inside, next, step]
      simp

/-- The index is the position `(q + 1) / 2`, counted from one, unless the sum is no `int`. -/
theorem medianIndex_eq (queuesize : Nat) (positive : 1 ≤ queuesize)
    (small : queuesize < 2 ^ 31 - 1) :
    medianIndex queuesize = ((queuesize + 1) / 2 - 1 : Nat) := by
  have plain : int32 (queuesize + 1) = queuesize + 1 := by
    apply Int.bmod_eq_of_le
    · omega
    · omega
  rw [medianIndex, plain, Int.tdiv_eq_ediv_of_nonneg (by omega)]
  omega

/-- The queue of an AP holds the last values, and its median is the middle one of them in ascending
order. -/
theorem window_median (queueSize : Nat) (positive : 1 ≤ queueSize) (mac : Text) (calls : List Heard)
    (some' : ∃ call ∈ calls, call.mac = mac) :
    (∃ ap, (heard queueSize calls).list.lookup mac = some ap ∧
      ap.rssi = window queueSize mac calls) ∧
      (queueSize < 2 ^ 31 - 1 → ∀ ascending : List Int,
        ascending.Perm (window queueSize mac calls) →
        ascending.Pairwise (· ≤ ·) → ∃ inside : (queueSize + 1) / 2 - 1 < ascending.length,
          findAvgRssiByApMacChecked (heard queueSize calls) mac =
            some ascending[(queueSize + 1) / 2 - 1] ∧
          findAvgRssiByApMac (heard queueSize calls) mac = ascending[(queueSize + 1) / 2 - 1]) := by
  obtain ⟨size, stored⟩ := heard_window queueSize positive mac calls
  have some : readings mac calls ≠ [] := by
    obtain ⟨call, member, own⟩ := some'
    intro none
    have listed : call ∈ calls.filter fun call => call.mac = mac :=
      List.mem_filter.mpr ⟨member, decide_eq_true own⟩
    rw [List.map_eq_nil_iff.mp none] at listed
    cases listed
  rw [if_neg some] at stored
  obtain ⟨ap, found, queue⟩ := Option.map_eq_some_iff.mp stored
  constructor
  · exact ⟨ap, found, queue⟩
  · intro small ascending same sorted
    have length := window_length queueSize mac calls
    have inside : (queueSize + 1) / 2 - 1 < ascending.length := by
      rw [same.length_eq, length]
      omega
    -- a list has one ascending order, so the sorted array is `ascending`
    have sorts : (window queueSize mac calls).insertionSort (· ≤ ·) = ascending :=
      ((List.perm_insertionSort _ _).trans same.symm).eq_of_pairwise'
        (List.pairwise_insertionSort _ _) sorted
    have copies := copied_queue (window queueSize mac calls) [] queueSize (Nat.le_of_eq length)
    simp only [length, Nat.sub_self, List.replicate_zero, List.append_nil,
      List.nil_append, List.length_nil] at copies
    refine ⟨inside, ?_, ?_⟩
    · simp only [findAvgRssiByApMacChecked, found, size, queue, copies, Option.bind_eq_bind,
        Option.bind_some, sorts, element, medianIndex_eq queueSize positive small,
        Int.natCast_nonneg, if_true, Int.toNat_natCast]
      exact List.getElem?_eq_getElem inside
    · simp only [findAvgRssiByApMac, found, size, queue, length, Nat.sub_self, List.replicate_zero,
        List.append_nil, sorts, List.getElem?_eq_getElem inside, Option.getD_some]

theorem negative_index_throws (queueSize : Nat) (positive : 1 ≤ queueSize) (mac : Text)
    (calls : List Heard) (some' : ∃ call ∈ calls, call.mac = mac)
    (negative : medianIndex queueSize < 0) :
    findAvgRssiByApMacChecked (heard queueSize calls) mac = none := by
  obtain ⟨size, -⟩ := heard_window queueSize positive mac calls
  obtain ⟨⟨ap, found, -⟩, -⟩ := window_median queueSize positive mac calls some'
  simp only [findAvgRssiByApMacChecked, found, size]
  cases copied (List.replicate queueSize 0) 0 ap.rssi with
  | none => rfl
  | some a => simp [element, Int.not_le.mpr negative]

def oneProbe : Heard := ⟨['a'], -40, 1, 0⟩

theorem window_median_three : findAvgRssiByApMacChecked (heard 3 [oneProbe]) ['a'] = some (-50) :=
  ((window_median 3 (by decide) ['a'] [oneProbe] ⟨oneProbe, List.mem_singleton_self _,
    rfl⟩).2 (by decide) [-50, -50, -40]
    (.refl _) (by simp)).2.1

theorem longest_queue_throws :
    findAvgRssiByApMacChecked (heard 2147483647 [oneProbe]) ['a'] = none :=
  negative_index_throws 2147483647 (by decide) ['a'] [oneProbe]
    ⟨oneProbe, List.mem_singleton_self _, rfl⟩ (by decide)

end LazyAS.RssiWindow

import LazyAS.ApSender
import LazyAS.Runs
import Mathlib.Data.List.DropRight

/-! The throttle of `fnii_send_msg_probe_info` over sequences of calls. The pair of the last station
and its count is written before the frequency is looked at, so a probe that is dropped for its
frequency silences its station as a reported one does. Which calls are silenced is told by their
places in rows of calls for one station. -/
namespace LazyAS.ProbeThrottle
open ApReports ApSender Runs

section
variable (getApAu : Int → Int) (globals : Sender)

/-- The globals of the throttle when the program starts. -/
def initial : Sender := { globals with probeMac := fun _ => 0, probeCount := 0 }

def call (sender : Sender) (info : ProbeInfo) : Sender :=
  (fniiSendMsgProbeInfo getApAu sender info).1

def after (calls : List ProbeInfo) : Sender := run (call getApAu) (initial globals) calls

def Throttled (sender : Sender) (info : ProbeInfo) : Prop :=
  sender.probeMac = info.stationMac ∧ sender.probeCount < 20

instance (sender : Sender) (info : ProbeInfo) : Decidable (Throttled sender info) :=
  inferInstanceAs (Decidable (_ ∧ _))

def Transmits (sender : Sender) (info : ProbeInfo) : Prop :=
  ∃ text, (fniiSendMsgProbeInfo getApAu sender info).2 = .bytes text

def InRange (info : ProbeInfo) : Prop :=
  0 ≤ probeChannel info.channel ∧ probeChannel info.channel ≤ 200

instance (info : ProbeInfo) : Decidable (InRange info) := inferInstanceAs (Decidable (_ ∧ _))

/-- Every silenced call has, among the 19 before it, one for its station that was transmitted. -/
def HidesReported (calls : List ProbeInfo) : Prop :=
  ∀ before info later, calls = before ++ info :: later →
    Throttled (after getApAu globals before) info →
    ∃ front earlier between, before = front ++ earlier :: between ∧ between.length < 19 ∧
      earlier.stationMac = info.stationMac ∧ Transmits getApAu (after getApAu globals front) earlier

/-- How many calls for the station were made last, one directly after the other. -/
def streak (mac : Mac) (before : List ProbeInfo) : Nat :=
  (before.rtakeWhile fun info => info.stationMac = mac).length

/-- The first call is for no station of address zero. Every call that is not the 1st, the 21st, the
41st and so on of its row has, among the 19 before it, one for its station that is, with a frequency
in range. -/
structure Fits (calls : List ProbeInfo) : Prop where
  addressed : ∀ first ∈ calls.head?, first.stationMac ≠ fun _ => 0
  reported : ∀ before info later, calls = before ++ info :: later →
    streak info.stationMac before % 20 ≠ 0 →
    ∃ front earlier between, before = front ++ earlier :: between ∧ between.length < 19 ∧
      earlier.stationMac = info.stationMac ∧ streak earlier.stationMac front % 20 = 0 ∧
        InRange earlier

/-! What one call does. -/

theorem call_silenced (sender : Sender) (info : ProbeInfo) (silenced : Throttled sender info) :
    fniiSendMsgProbeInfo getApAu sender info =
      ({ sender with probeCount := sender.probeCount + 1 }, .silent) :=
  if_pos silenced

theorem call_recorded (sender : Sender) (info : ProbeInfo) (passes : ¬ Throttled sender info) :
    call getApAu sender info = { sender with probeMac := info.stationMac, probeCount := 1 } ∧
      (Transmits getApAu sender info ↔ InRange info) := by
  -- a call that is let pass starts the count anew, whatever the frequency
  have written : fniiSendMsgProbeInfo getApAu sender info = _ := if_neg passes
  by_cases outside : probeChannel info.channel > 200 ∨ probeChannel info.channel < 0
  · rw [if_pos outside] at written
    constructor
    · simp only [call, written]
    · constructor
      · rintro ⟨text, sent⟩
        simp [written] at sent
      · intro inside
        rcases outside with above | below
        · exact absurd inside.2 (Int.not_le.mpr above)
        · exact absurd inside.1 (Int.not_le.mpr below)
  · rw [if_neg outside] at written
    constructor
    · simp only [call, written]
    · constructor
      · intro _
        exact ⟨Int.not_lt.mp fun below => outside (.inr below),
          Int.not_lt.mp fun above => outside (.inl above)⟩
      · intro _
        exact ⟨_, by rw [written]⟩

theorem transmits_iff (sender : Sender) (info : ProbeInfo) :
    Transmits getApAu sender info ↔ ¬ Throttled sender info ∧ InRange info := by
  by_cases silenced : Throttled sender info
  · simp [Transmits, call_silenced getApAu sender info silenced, silenced]
  · simp [silenced, (call_recorded getApAu sender info silenced).2]

/-! Where the throttle stands after some calls. -/

theorem streak_concat (mac : Mac) (before : List ProbeInfo) (info : ProbeInfo) :
    streak mac (before ++ [info]) = if info.stationMac = mac then streak mac before + 1 else 0 := by
  simp only [streak, List.rtakeWhile_concat]
  by_cases same : info.stationMac = mac
  · simp [same]
  · simp [same]

theorem after_concat (before : List ProbeInfo) (info : ProbeInfo) :
    after getApAu globals (before ++ [info]) =
      call getApAu (after getApAu globals before) info := by
  simp [after, run, List.foldl_append]

theorem after_row (before : List ProbeInfo) (last : ProbeInfo)
    (addressed : ∀ first ∈ (before ++ [last]).head?, first.stationMac ≠ fun _ => 0) :
    (after getApAu globals (before ++ [last])).probeMac = last.stationMac ∧
      (after getApAu globals (before ++ [last])).probeCount = streak last.stationMac before % 20 +
        1 := by
  -- the pair of the last station and its count, from the row of its calls
  induction before using List.reverseRecOn generalizing last with
  | nil =>
      have passes : ¬ Throttled (after getApAu globals []) last := by
        intro silenced
        exact addressed last rfl silenced.1.symm
      rw [after_concat, (call_recorded getApAu _ last passes).1]
      exact ⟨rfl, rfl⟩
  | append_singleton before previous ih =>
      have same : (before ++ [previous] ++ [last]).head? = (before ++ [previous]).head? := by
        cases before <;> rfl
      obtain ⟨mac, count⟩ := ih previous (same ▸ addressed)
      rw [after_concat, streak_concat]
      -- a silenced call counts on, any other one starts the count anew
      by_cases silenced : Throttled (after getApAu globals (before ++ [previous])) last
      · have station : previous.stationMac = last.stationMac := mac.symm.trans silenced.1
        have small := silenced.2
        rw [count, station] at small
        rw [call, call_silenced getApAu _ last silenced, if_pos station]
        constructor
        · exact silenced.1
        · simp only [count, station]
          omega
      · rw [(call_recorded getApAu _ last silenced).1]
        constructor
        · rfl
        · by_cases station : previous.stationMac = last.stationMac
          · -- the station of the row is let pass only when the count is full
            have full : ¬ streak last.stationMac before % 20 + 1 < 20 := by
              intro small
              exact silenced ⟨mac.trans station, by rw [count, station]; exact small⟩
            simp only [if_pos station]
            omega
          · simp [station]

theorem throttled_iff (before : List ProbeInfo) (info : ProbeInfo)
    (addressed : ∀ first ∈ (before ++ [info]).head?, first.stationMac ≠ fun _ => 0) :
    Throttled (after getApAu globals before) info ↔ streak info.stationMac before % 20 ≠ 0 := by
  induction before using List.reverseRecOn with
  | nil =>
      have other : ¬ Throttled (after getApAu globals []) info := by
        intro silenced
        exact addressed info rfl silenced.1.symm
      simp [other, streak]
  | append_singleton before last _ =>
      have same : (before ++ [last] ++ [info]).head? = (before ++ [last]).head? := by
        cases before <;> rfl
      obtain ⟨mac, count⟩ := after_row getApAu globals before last (same ▸ addressed)
      rw [Throttled, mac, count, streak_concat]
      by_cases station : last.stationMac = info.stationMac
      · simp only [station, true_and, if_true]
        omega
      · simp [station]

theorem row_start (mac : Mac) (before : List ProbeInfo) (inside : streak mac before % 20 ≠ 0) :
    ∃ front earlier between, before = front ++ earlier :: between ∧
      between.length + 1 = streak mac before % 20 ∧
      earlier.stationMac = mac ∧ streak mac front % 20 = 0 := by
  induction before using List.reverseRecOn with
  | nil => exact absurd rfl inside
  | append_singleton before last ih =>
      rw [streak_concat] at inside ⊢
      by_cases station : last.stationMac = mac
      · simp only [station, if_true] at inside ⊢
        -- the call before the last one is looked for in the same way, until the count was 1
        by_cases first : streak mac before % 20 = 0
        · exact ⟨before, last, [], rfl, by simp only [List.length_nil]; omega, station, first⟩
        · obtain ⟨front, earlier, between, rfl, short, same, start⟩ := ih first
          refine ⟨front, earlier, between ++ [last], by simp, ?_, same, start⟩
          rw [List.length_append, List.length_singleton]
          omega
      · simp [station] at inside

theorem fits_of_inRange (calls : List ProbeInfo)
    (addressed : ∀ first ∈ calls.head?, first.stationMac ≠ fun _ => 0)
    (inRange : ∀ info ∈ calls, InRange info) : Fits calls where
  addressed := addressed
  reported := by
    intro before info later shape silenced
    obtain ⟨front, earlier, between, rfl, short, same, start⟩ :=
      row_start info.stationMac before silenced
    refine ⟨front, earlier, between,
      rfl, by omega, same, by rw [same]; exact start, inRange earlier ?_⟩
    simp [shape]

/-- Throttling hides only what was just reported exactly if the calls fit. -/
theorem hidesReported_iff (getApAu : Int → Int) (globals : Sender) (calls : List ProbeInfo) :
    HidesReported getApAu globals calls ↔ Fits calls := by
  -- what stands in front of a call begins with the first call of all
  have heads : ∀ {before : List ProbeInfo} {info : ProbeInfo} {later : List ProbeInfo},
      calls = before ++ info :: later → (before ++ [info]).head? = calls.head? := by
    intro before info later shape
    subst shape
    cases before <;> rfl
  have transmitted : (∀ first ∈ calls.head?, first.stationMac ≠ fun _ => 0) →
      ∀ front earlier later, calls = front ++ earlier :: later →
        (Transmits getApAu (after getApAu globals front) earlier ↔
          streak earlier.stationMac front % 20 = 0 ∧ InRange earlier) := by
    intro addressed front earlier later shape
    have places := throttled_iff getApAu globals front earlier (heads shape ▸ addressed)
    rw [transmits_iff, places, not_not]
  constructor
  · intro hides
    have addressed : ∀ first ∈ calls.head?, first.stationMac ≠ fun _ => 0 := by
      intro first member zero
      cases calls with
      | nil => cases member
      | cons head rest =>
          cases member
          -- the pair starts as address zero with count 0 and silences a call that has none before
          -- it
          obtain ⟨front, earlier, between, shape, _⟩ :=
            hides [] _ rest rfl ⟨zero.symm, Nat.zero_lt_succ 19⟩
          simp at shape
    refine ⟨addressed, ?_⟩
    intro before info later shape silenced
    have places := throttled_iff getApAu globals before info (heads shape ▸ addressed)
    obtain ⟨front, earlier, between, split, near, same, sent⟩ :=
      hides before info later shape (places.mpr silenced)
    have whole : calls = front ++ earlier :: (between ++ info :: later) := by simp [shape, split]
    exact ⟨front, earlier, between, split, near, same,
      (transmitted addressed front earlier _ whole).mp sent⟩
  · intro fits before info later shape silenced
    have places := throttled_iff getApAu globals before info (heads shape ▸ fits.addressed)
    obtain ⟨front, earlier, between, split, near, same, sent⟩ :=
      fits.reported before info later shape (places.mp silenced)
    have whole : calls = front ++ earlier :: (between ++ info :: later) := by simp [shape, split]
    exact ⟨front, earlier, between, split, near, same,
      (transmitted fits.addressed front earlier _ whole).mpr sent⟩

end

def heardTwice : List ProbeInfo :=
  [{ stationMac := fun _ => 2, rssi := 60, channel := 4920 },
    { stationMac := fun _ => 2, rssi := 60, channel := 2412 }]

/-- The second probe is silenced by the first one, which was not reported. -/
theorem unreported_silences : ¬ ∀ getApAu globals calls, HidesReported getApAu globals calls := by
  intro all
  have silenced : Throttled (after (fun _ => 50) {} (heardTwice.take 1))
      ⟨fun _ => 2, 60, 2412⟩ := by decide
  obtain ⟨front, earlier, between, split, -, -, sent⟩ :=
    all (fun _ => 50) {} heardTwice (heardTwice.take 1) _ [] rfl silenced
  have alone : front = [] ∧ earlier = ⟨fun _ => 2, 60, 4920⟩ := by
    cases front with
    | nil => exact ⟨rfl, (List.cons.inj split).1.symm⟩
    | cons first front => simp [heardTwice] at split
  rw [alone.1, alone.2, transmits_iff] at sent
  exact absurd sent.2 (by decide)

end LazyAS.ProbeThrottle

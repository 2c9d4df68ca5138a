import LazyAS.BandDecision
import Mathlib.Data.List.Induction

/-! Whole runs of `DualBandAccessControl.handle`: in which slot the probes of a band end up, and
when a station is decided. -/
namespace LazyAS.DecisionRuns
open WireText Runs DualBandAccessControl BandDecision
open DecisionTree (TreeNode NodeInfo)

theorem follows_run (tree : TreeNode) (events : List Event)
    (fits : ∀ before event after, events = before ++ event :: after →
      Fits tree (run (next tree) noEntries before) event) : Follows tree events := by
  induction events using List.reverseRecOn with
  | nil => exact fun _ => rfl
  | append_singleton events event ih =>
      apply follows_step
      · apply ih
        intro before earlier after shape
        exact fits before earlier (after ++ [event])
          (by rw [shape, List.append_assoc, List.cons_append])
      · exact fits events event [] rfl

theorem prefix_follows (tree : TreeNode) (events : List Event)
    (fits : ∀ before event after, events = before ++ event :: after →
      Fits tree (run (next tree) noEntries before) event)
    (before after : List Event) (shape : events = before ++ after) : Follows tree before := by
  apply follows_run
  intro first event rest split
  exact fits first event (rest ++ after) (by rw [shape, split, List.append_assoc, List.cons_append])

theorem since_mem (staMacAddr : Text) (events : List Event) (msg : ProbeInfoMessage)
    (member : msg ∈ since staMacAddr events) :
    msg.staMacAddr = staMacAddr ∧ ∃ ssid, .probe msg ssid ∈ events := by
  induction events using List.reverseRecOn with
  | nil => simp [since] at member
  | append_singleton events event ih =>
      have earlier (inside : msg ∈ since staMacAddr events) :
          msg.staMacAddr = staMacAddr ∧ ∃ ssid, Event.probe msg ssid ∈ events ++ [event] := by
        obtain ⟨own, ssid, sent⟩ := ih inside
        exact ⟨own, ssid, List.mem_append_left _ sent⟩
      cases event with
      | del gone =>
          rw [since_del] at member
          split at member
          · simp at member
          · exact earlier member
      | probe latest ssid =>
          rw [since_probe] at member
          split at member
          · rename_i own
            rcases List.mem_append.mp member with old | new
            · exact earlier old
            · rw [List.mem_singleton] at new
              rw [new]
              exact ⟨own, ssid, List.mem_append_right _ (List.mem_singleton.mpr rfl)⟩
          · exact earlier member

/-! The slots. -/

def Produced (msg : ProbeInfoMessage) : Prop :=
  0 ≤ msg.channel ∧ msg.channel ≤ 200 ∧ msg.mode = if 36 ≤ msg.channel then NET_5G else NET_2_4G

def modeText (b : Fin 2) : Text := if b = 0 then NET_2_4G else NET_5G

/-- Every slot holds the first probe that its band has sent since the entry was removed. -/
def ByBand (events : List Event) (descMap : DescMap) : Prop :=
  ∀ staMacAddr deci, descMap staMacAddr = some deci → ∀ b, deci.probeInfos b =
    ((since staMacAddr events).find? fun msg => msg.mode = modeText b).map ProbeInfoMessage.info

theorem produced_band (msg : ProbeInfoMessage) (produced : Produced msg) (b : Fin 2) :
    band msg = b ↔ msg.mode = modeText b := by
  unfold band modeText
  rw [produced.2.2]
  by_cases low : msg.channel < 36
  · rw [if_pos low, if_neg (Int.not_le.mpr low)]
    rcases either_band 0 b with zero | one
    · rw [zero]
      decide
    · rw [one]
      decide
  · rw [if_neg low, if_pos (Int.not_lt.mp low)]
    rcases either_band 0 b with zero | one
    · rw [zero]
      decide
    · rw [one]
      decide

theorem first_produced (probes : List ProbeInfoMessage) (produced : ∀ msg ∈ probes, Produced msg)
    (b : Fin 2) :
    first probes b = (probes.find? fun msg => msg.mode = modeText b).map ProbeInfoMessage.info := by
  unfold first
  induction probes with
  | nil => rfl
  | cons msg probes ih =>
      rw [List.forall_mem_cons] at produced
      have same := produced_band msg produced.1 b
      rw [List.find?_cons, List.find?_cons]
      by_cases own : band msg = b
      · simp [own, same.mp own]
      · have apart : ¬ msg.mode = modeText b := fun mode => own (same.mpr mode)
        simpa [own, apart] using ih produced.2

theorem entryOf_slots (tree : TreeNode) (probes : List ProbeInfoMessage) (deci : ProbeDeci)
    (entry : entryOf tree probes = some deci) : deci.probeInfos = first probes := by
  unfold entryOf at entry
  split_ifs at entry
  · rw [← Option.some.inj entry]
    rfl
  · rw [← Option.some.inj entry]
    rfl

theorem follows_byBand (tree : TreeNode) (events : List Event) (follows : Follows tree events)
    (produced : ∀ msg ssid, .probe msg ssid ∈ events → Produced msg) :
    ByBand events (run (next tree) noEntries events) := by
  intro staMacAddr deci entry b
  rw [follows staMacAddr] at entry
  rw [entryOf_slots tree _ deci entry]
  apply first_produced
  intro msg member
  obtain ⟨_, ssid, sent⟩ := since_mem staMacAddr events msg member
  exact produced msg ssid sent

/-- Every step of a run returns and leaves the probes in the slots of their bands exactly when
every step fits. -/
theorem probe_slots_follow_band (tree : TreeNode) (events : List Event)
    (produced : ∀ msg ssid, .probe msg ssid ∈ events → Produced msg) :
    (∀ before event after, events = before ++ event :: after →
        Returns tree (run (next tree) noEntries before) event ∧
          ByBand (before ++ [event]) (run (next tree) noEntries (before ++ [event]))) ↔
      Allowed (next tree) (Fits tree) noEntries events := by
  rw [allowed_iff]
  constructor
  · intro fine before event after shape
    rw [← returns_iff]
    exact (fine before event after shape).1
  · intro fits before event after shape
    constructor
    · rw [returns_iff]
      exact fits before event after shape
    · apply follows_byBand
      · exact prefix_follows tree events fits (before ++ [event]) after (by rw [shape]; simp)
      · intro msg ssid member
        apply produced msg ssid
        rw [shape]
        rcases List.mem_append.mp member with old | new
        · exact List.mem_append_left _ old
        · rw [List.mem_singleton] at new
          rw [new]
          exact List.mem_append_right _ List.mem_cons_self

def staMac : Text := "0022446688aa".toList

def probeAt (channel : Int) (mode : Text) : ProbeInfoMessage := ⟨staMac, -60, 10, channel, mode, 0⟩

def lowChannels : List Event :=
  [.probe (probeAt 6 NET_2_4G) (some ['w']), .probe (probeAt 40 NET_5G) (some ['w'])]

open DecisionTree (mixedSplit)

theorem split_descends (deci : ProbeDeci) : Descends deci mixedSplit := by
  intro value _
  split <;> trivial

theorem low_channels_fit : Allowed (next mixedSplit) (Fits mixedSplit) noEntries lowChannels := by
  have entry : next mixedSplit noEntries (.probe (probeAt 6 NET_2_4G) (some ['w'])) staMac =
      some (store {} 0 ⟨-60, 10, 0⟩) := rfl
  refine ⟨?_, ?_, trivial⟩
  · change Placed _
    exact ⟨by decide, by decide⟩
  · apply (fits_entry mixedSplit _ (probeAt 40 NET_5G) _ _ entry).mpr
    intro _
    exact ⟨⟨by decide, by decide⟩, fun _ => ⟨split_descends _, by simp⟩⟩

theorem low_channels_by_band :
    Returns mixedSplit (run (next mixedSplit) noEntries [.probe (probeAt 6 NET_2_4G) (some ['w'])])
        (.probe (probeAt 40 NET_5G) (some ['w'])) ∧
      ByBand lowChannels (run (next mixedSplit) noEntries lowChannels) := by
  apply (probe_slots_follow_band mixedSplit lowChannels ?_).mpr low_channels_fit [_] _ [] rfl
  intro msg ssid member
  simp only [lowChannels, List.mem_cons, Event.probe.injEq, List.not_mem_nil, or_false] at member
  rcases member with ⟨rfl, _⟩ | ⟨rfl, _⟩
  · exact ⟨by decide, by decide, rfl⟩
  · exact ⟨by decide, by decide, rfl⟩

theorem upper_channel_throws :
    Produced (probeAt 149 NET_5G) ∧
      ¬ Returns mixedSplit noEntries (.probe (probeAt 149 NET_5G) (some ['w'])) := by
  constructor
  · exact ⟨by decide, by decide, rfl⟩
  · unfold Returns
    decide

end LazyAS.DecisionRuns

import LazyAS.HandoffCleanup

/-! The two scores that `handOff` compares. What the target gains over the current agent by one
comparison it does not lose again by the next one, as long as the scores are computed exactly. -/
namespace LazyAS.RoamScores
open WireText ControllerView Master HandoffApp HandoffCleanup

section
variable (v : View)

def penalty (channel tchannel : Int) : Int :=
  (if tchannel ≠ channel then 15 else 0) +
    if (channel ≤ 13 ∧ tchannel ≤ 13) ∨ (channel ≥ 14 ∧ tchannel ≥ 14) then 0 else 50

def required (agent : Ref) (rssi : Int) : Int :=
  2 * rssi - 3 * getVapContainerOnline v agent + threshold1

def offered (agent : Ref) (rssi channel tchannel : Int) : Int :=
  2 * rssi - 3 * getVapContainerOnline v agent - penalty channel tchannel

/-- `pmark >= cmark + threshold1`, as `handOff` computes it. -/
def ByScore (probe : Probe) (tchannel crssi prssi : Int) : Prop :=
  int32 (offered v probe.pAgent prssi (v.agents probe.currentAgent).channel tchannel) ≥
    int32 (int32 (2 * crssi - 3 * getVapContainerOnline v probe.currentAgent) + threshold1)

instance (probe : Probe) (tchannel crssi prssi : Int) :
    Decidable (ByScore v probe tchannel crssi prssi) :=
  inferInstanceAs (Decidable (_ ≥ _))

end

/-- The scores of one evaluation are numbers an `int` can hold. -/
def Exact (v : View) (probe : Probe) (tchannel crssi prssi : Int) : Prop :=
  -2 ^ 31 ≤ required v probe.currentAgent crssi ∧ required v probe.currentAgent crssi < 2 ^ 31 ∧
    -2 ^ 31 ≤ offered v probe.pAgent prssi (v.agents probe.currentAgent).channel tchannel ∧
    offered v probe.pAgent prssi (v.agents probe.currentAgent).channel tchannel < 2 ^ 31

/-- `handOff` finds both agents in the lists of their channels, with these signals. -/
def Compares (v : View) (probe : Probe) (scan : Scan) (tchannel : Int) (tAgentMacAddr : Text)
    (crssi prssi : Int) (cApNode tApNode : ApHandNode) : Prop :=
  ∃ current target, inBounds (channeltoIndex (v.agents probe.currentAgent).channel) = true ∧
    scan (channeltoIndex (v.agents probe.currentAgent).channel) = some current ∧
    scan (channeltoIndex tchannel) = some target ∧
    current.list.lookup (v.agents probe.currentAgent).macAddress = some cApNode ∧
    target.list.lookup tAgentMacAddr = some tApNode ∧
    crssi = findAvgRssiByApMac current (v.agents probe.currentAgent).macAddress ∧
    prssi = findAvgRssiByApMac target tAgentMacAddr

theorem int32_exact (n : Int) (least : -2 ^ 31 ≤ n) (most : n < 2 ^ 31) : int32 n = n := by
  unfold int32
  rw [Int.bmod_eq_of_le] <;> omega

theorem roamMarks_scores (v : View) (probe : Probe) (tchannel crssi prssi : Int)
    (cApNode tApNode : ApHandNode) :
    let marks := roamMarks v probe tchannel crssi prssi cApNode tApNode
    (marks.noForceRoam = true ↔ ByScore v probe tchannel crssi prssi ∨
      tApNode.oldDate - cApNode.newDate > 12 * 1000) ∧
      (marks.forceRoam = true → ByScore v probe tchannel crssi prssi) := by
  have pmark : 2 * prssi - 3 * getVapContainerOnline v probe.pAgent -
      (if tchannel ≠ (v.agents probe.currentAgent).channel then 15 else 0) -
      (if ((v.agents probe.currentAgent).channel ≤ 13 ∧ tchannel ≤ 13) ∨
        ((v.agents probe.currentAgent).channel ≥ 14 ∧ tchannel ≥ 14) then 0 else 50) =
      offered v probe.pAgent prssi (v.agents probe.currentAgent).channel tchannel := by
    unfold offered penalty
    omega
  unfold roamMarks ByScore
  dsimp only
  rw [pmark]
  constructor
  · rw [decide_eq_true_eq]
  · rw [decide_eq_true_eq]
    exact fun both => both.1

/-- `handOff` sets its marks by the score, or because the current agent has not heard the station
for long. -/
theorem handOff_marks (v : View) (probe : Probe) (scan : Scan) (tchannel : Int)
    (tAgentMacAddr : Text) (crssi prssi : Int) (cApNode tApNode : ApHandNode)
    (compares : Compares v probe scan tchannel tAgentMacAddr crssi prssi cApNode tApNode) :
    ∃ target marks, handOff v probe scan tchannel tAgentMacAddr = some (target, marks) ∧
      (marks.noForceRoam = true ↔ ByScore v probe tchannel crssi prssi ∨
        tApNode.oldDate - cApNode.newDate > 12 * 1000) ∧
      (marks.forceRoam = true → ByScore v probe tchannel crssi prssi) := by
  obtain ⟨current, other, inside, here, there, currentNode, targetNode, rfl, rfl⟩ := compares
  have scores := roamMarks_scores v probe tchannel
      (findAvgRssiByApMac current (v.agents probe.currentAgent).macAddress)
    (findAvgRssiByApMac other tAgentMacAddr) cApNode tApNode
  unfold handOff
  simp only [inside, if_true, here, there, currentNode, targetNode]
  split
  · exact ⟨_, _, rfl, scores⟩
  · split <;> exact ⟨_, _, rfl, scores⟩

theorem one_way (v : View) (probe : Probe) (tchannel crssi prssi : Int)
    (exact : Exact v probe tchannel crssi prssi) :
    ByScore v probe tchannel crssi prssi ↔ required v probe.currentAgent crssi ≤
      offered v probe.pAgent prssi (v.agents probe.currentAgent).channel tchannel := by
  obtain ⟨least, most, least', most'⟩ := exact
  have sum : int32 (int32 (2 * crssi - 3 * getVapContainerOnline v probe.currentAgent) +
      threshold1) =
      required v probe.currentAgent crssi := by
    rw [← int32_exact _ least most]
    simp [int32, required]
  rw [ByScore, sum, int32_exact _ least' most']

theorem penalty_nonneg (channel tchannel : Int) : 0 ≤ penalty channel tchannel := by
  unfold penalty
  split <;> split <;> decide

/-- After a comparison that made the station roam from one agent to another, the same signals do not
make it roam back by the score, whether the numbers of stations have changed with it or not. -/
theorem no_way_back (v w : View) (station A B : Ref) (ssid : Text) (scan : Scan) (macA : Text)
    (rssiA rssiB : Int) (nodeA nodeB : ApHandNode)
    (moved : ByScore v ⟨station, A, B, ssid⟩ (v.agents B).channel rssiA rssiB)
    (back : Compares w ⟨station, B, A, ssid⟩ scan (w.agents A).channel macA rssiB rssiA nodeB nodeA)
    (counts : getVapContainerOnline w A = getVapContainerOnline v A ∧
      getVapContainerOnline w B = getVapContainerOnline v B ∨
      getVapContainerOnline w A = getVapContainerOnline v A - 1 ∧
        getVapContainerOnline w B = getVapContainerOnline v B + 1)
    (exact : Exact v ⟨station, A, B, ssid⟩ (v.agents B).channel rssiA rssiB)
    (exact' : Exact w ⟨station, B, A, ssid⟩ (w.agents A).channel rssiB rssiA) :
    ¬ ByScore w ⟨station, B, A, ssid⟩ (w.agents A).channel rssiB rssiA ∧
      ∃ target marks, handOff w ⟨station, B, A, ssid⟩ scan (w.agents A).channel macA =
        some (target, marks) ∧
        marks.forceRoam = false ∧
          (marks.noForceRoam = true → nodeA.oldDate - nodeB.newDate > 12 * 1000) := by
  have stays : ¬ ByScore w ⟨station, B, A, ssid⟩ (w.agents A).channel rssiB rssiA := by
    rw [one_way w _ _ _ _ exact']
    rw [one_way v _ _ _ _ exact] at moved
    have there := penalty_nonneg (v.agents A).channel (v.agents B).channel
    have again := penalty_nonneg (w.agents B).channel (w.agents A).channel
    simp only [required, offered, threshold1] at moved ⊢
    omega
  obtain ⟨target, marks, result, soft, force⟩ :=
    handOff_marks w _ scan _ macA rssiB rssiA nodeB nodeA back
  exact ⟨stays, target, marks, result, Bool.eq_false_iff.mpr fun forced => stays (force forced),
    fun marked => (soft.mp marked).resolve_left stays⟩

def bothHeard (rssiA rssiB : Int) : Scan := fun i =>
  let first : AList fun _ : Text => ApHandNode :=
    (∅ : AList fun _ : Text => ApHandNode).insert "apA".toList ⟨0, 0, [rssiA]⟩
  if i = 6 then some { list := first.insert "apB".toList ⟨0, 0, [rssiB]⟩ } else none

theorem findAvg_single (cha : ChaHandList) (mac : Text) (date rssi : Int) (size : cha.queuesize = 1)
    (holds : cha.list.lookup mac = some ⟨date, date, [rssi]⟩) :
    rssi = findAvgRssiByApMac cha mac := by
  simp [findAvgRssiByApMac, holds, size]

theorem bothHeard_back (rssiA rssiB : Int) :
    Compares twoAgents ⟨0, 1, 0, "w".toList⟩ (bothHeard rssiA rssiB) 6 "apA".toList
    rssiB rssiA ⟨0, 0, [rssiB]⟩ ⟨0, 0, [rssiA]⟩ :=
  ⟨_, _, rfl, rfl, rfl, rfl, rfl, findAvg_single _ _ 0 rssiB rfl rfl,
    findAvg_single _ _ 0 rssiA rfl rfl⟩

theorem bothHeard_there (rssiA rssiB : Int) :
    Compares twoAgents ⟨0, 0, 1, "w".toList⟩ (bothHeard rssiA rssiB) 6 "apB".toList
    rssiA rssiB ⟨0, 0, [rssiA]⟩ ⟨0, 0, [rssiB]⟩ :=
  ⟨_, _, rfl, rfl, rfl, rfl, rfl, findAvg_single _ _ 0 rssiA rfl rfl,
    findAvg_single _ _ 0 rssiB rfl rfl⟩

theorem no_way_back_weak : ByScore twoAgents ⟨0, 0, 1, "w".toList⟩ 6 (-80) (-40) ∧
    ¬ ByScore twoAgents ⟨0, 1, 0, "w".toList⟩ 6 (-40) (-80) := by
  have moved : ByScore twoAgents ⟨0, 0, 1, "w".toList⟩ 6 (-80) (-40) := by decide +kernel
  have exact : Exact twoAgents ⟨0, 0, 1, "w".toList⟩ 6 (-80) (-40) ∧
      Exact twoAgents ⟨0, 1, 0, "w".toList⟩ 6 (-40) (-80) := by
    unfold Exact
    decide +kernel
  exact ⟨moved, (no_way_back twoAgents twoAgents 0 0 1 "w".toList (bothHeard (-80) (-40))
    "apA".toList (-80) (-40) _ _ moved
    (bothHeard_back (-80) (-40)) (Or.inl ⟨rfl, rfl⟩) exact.1 exact.2).1⟩

/-- With the greatest signal that can be doubled, the sum with `threshold1` wraps, and the station
roams to the weaker agent and back. -/
theorem wrapped_score : ¬ ∀ (v w : View) (station A B : Ref) (ssid : Text) (scan : Scan)
    (macA macB : Text) (rssiA rssiB : Int) (nodeA nodeB : ApHandNode), -2 ^ 31 ≤ rssiA →
      rssiA < 2 ^ 31 → -2 ^ 31 ≤ rssiB → rssiB < 2 ^ 31 →
    Compares v ⟨station, A, B, ssid⟩ scan (v.agents B).channel macB rssiA rssiB nodeA nodeB →
    ByScore v ⟨station, A, B, ssid⟩ (v.agents B).channel rssiA rssiB →
    Compares w ⟨station, B, A, ssid⟩ scan (w.agents A).channel macA rssiB rssiA nodeB nodeA →
    getVapContainerOnline w A = getVapContainerOnline v A ∧
      getVapContainerOnline w B = getVapContainerOnline v B →
    ¬ ByScore w ⟨station, B, A, ssid⟩ (w.agents A).channel rssiB rssiA := by
  intro stays
  exact stays twoAgents twoAgents 0 0 1 "w".toList (bothHeard (2 ^ 30 - 1) 0) "apA".toList
    "apB".toList (2 ^ 30 - 1) 0 _ _
    (by decide) (by decide) (by decide) (by decide) (bothHeard_there (2 ^ 30 - 1) 0)
      (by decide +kernel)
    (bothHeard_back (2 ^ 30 - 1) 0) ⟨rfl, rfl⟩ (by decide +kernel)

end LazyAS.RoamScores

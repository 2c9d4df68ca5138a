import LazyAS.DecisionRuns
import LazyAS.ScanSelection
import LazyAS.StationCoherence

/-! Whether the AP that a station is assigned to serves the SSID it is assigned with. Both
applications take the SSID from the agent that sent the last probe and the AP from what they have
recorded before. -/
namespace LazyAS.AssignedSsid
open WireText ControllerView Runs
open DualBandAccessControl
  (DescMap ProbeInfoMessage ProbeDeci AddVap doDecision handleProbe handleDel)
open BandDecision (Placed band other withProbe withFlag noEntries)
open DecisionTree (TreeNode NodeInfo)
open ScanSelection (candidates walked Leads Distinct)

/-- The agent of a call serves its SSID at the time of the call. -/
def Served (v : View) (calls : List AddVap) : Prop :=
  ∀ call ∈ calls, call.ssid ∈ (v.agents call.agent).ssidSet

/-- A message for the applications, with the view at that time. -/
inductive Step where
  | probe (v : View) (now : Int) (order : Order) (msg : ProbeInfoMessage)
  | gone (staMacAddr : Text)

/-- The agent serves what a probe of another agent stands for. -/
def ServesProbe (v : View) (order : Order) (msg : ProbeInfoMessage) (agent : Ref) : Prop :=
  agent = msg.agent ∨ ∀ ssid, AccessControlSingleApp.firstSsid v order msg = some ssid →
    ssid ∈ (v.agents agent).ssidSet

theorem serves_iff (v : View) (order : Order) (msg : ProbeInfoMessage) (agent : Ref) (ssid : Text)
    (named : AccessControlSingleApp.firstSsid v order msg = some ssid) :
    ServesProbe v order msg agent ↔ ssid ∈ (v.agents agent).ssidSet := by
  unfold ServesProbe
  rw [named]
  constructor
  · intro either
    rcases either with same | serves
    · rw [same]
      apply (order.perm _).mem_iff.mp
      exact List.mem_of_mem_head? named
    · exact serves ssid rfl
  · intro serves
    right
    intro other same
    exact (Option.some.inj same) ▸ serves

/-! `DualBandAccessControl`. -/

def dualNext (tree : TreeNode) (descMap : DescMap) : Step → DescMap
  | .probe v _ order msg => (handleProbe tree (AccessControlSingleApp.firstSsid v order msg) descMap
    msg).descMap
  | .gone staMacAddr => handleDel descMap staMacAddr

def DualServed (tree : TreeNode) (descMap : DescMap) : Step → Prop
  | .probe v _ order msg =>
      Served v (handleProbe tree (AccessControlSingleApp.firstSsid v order msg) descMap msg).calls
  | .gone _ => True

/-- Where both bands of a station that is not decided are recorded with this probe, both recorded
agents serve the SSID. -/
def DualFits (descMap : DescMap) : Step → Prop
  | .probe v _ order msg => ∀ deci, descMap msg.staMacAddr = some deci → deci.flag = -1 →
    Placed msg →
      deci.probeInfos (other (band msg)) ≠ none →
        ∀ slot info, (withProbe deci msg).probeInfos slot = some info →
          ServesProbe v order msg info.agent
  | .gone _ => True

theorem assign_agent (deci : ProbeDeci) (label : Int) (msg : ProbeInfoMessage) (ssid : Text)
    (info : DualBandAccessControl.ProbeInfo)
    (chosen : deci.probeInfos (if label = 0 then 0 else 1) = some info) :
    ∃ call, DualBandAccessControl.assign (withFlag deci label) msg (some ssid) = some call ∧
      call.agent = info.agent ∧ call.ssid = ssid := by
  have slots : (withFlag deci label).probeInfos = deci.probeInfos := rfl
  have flag : (withFlag deci label).flag = label := rfl
  unfold DualBandAccessControl.assign
  rw [slots, flag]
  by_cases zero : label = 0
  · rw [if_pos zero] at chosen
    simp only [if_pos zero, chosen]
    exact ⟨_, rfl, rfl, rfl⟩
  · rw [if_neg zero] at chosen
    simp only [if_neg zero, chosen]
    exact ⟨_, rfl, rfl, rfl⟩

theorem dual_silent (tree : TreeNode) (ssid : Option Text) (descMap : DescMap)
    (msg : ProbeInfoMessage)
    (nothing : ∀ deci, descMap msg.staMacAddr = some deci → deci.flag = -1 → Placed msg →
      deci.probeInfos (other (band msg)) ≠ none → doDecision (withProbe deci msg) tree = none) :
    (handleProbe tree ssid descMap msg).calls = [] := by
  cases entry : descMap msg.staMacAddr with
  | none =>
      unfold handleProbe
      simp only [entry]
      split <;> rfl
  | some deci =>
      by_cases undecided : deci.flag = -1
      · by_cases placed : Placed msg
        · rw [BandDecision.handle_pending tree ssid descMap msg deci entry undecided placed]
          by_cases absent : deci.probeInfos (other (band msg)) = none
          · rw [if_pos absent]
          · rw [if_neg absent, nothing deci entry undecided placed absent]
        · simp [handleProbe, entry, undecided, BandDecision.slot_unplaced msg placed]
      · simp [handleProbe, entry, undecided]

theorem decision_served (tree : TreeNode) (v : View) (order : Order) (descMap : DescMap)
    (msg : ProbeInfoMessage) (deci : ProbeDeci) (entry : descMap msg.staMacAddr = some deci)
    (undecided : deci.flag = -1) (placed : Placed msg)
    (present : deci.probeInfos (other (band msg)) ≠ none) (label : Int)
    (decision : doDecision (withProbe deci msg) tree = some label)
    (info : DualBandAccessControl.ProbeInfo)
    (chosen : (withProbe deci msg).probeInfos (if label = 0 then 0 else 1) = some info) :
    Served v (handleProbe tree (AccessControlSingleApp.firstSsid v order msg) descMap msg).calls ↔
      ServesProbe v order msg info.agent := by
  -- where the second band completes the entry, the one call is for the agent the tree picks
  rw [BandDecision.handle_pending tree _ descMap msg deci entry undecided placed, if_neg present,
    decision]
  dsimp only
  cases named : AccessControlSingleApp.firstSsid v order msg with
  | none =>
      have nothing : DualBandAccessControl.assign (withFlag (withProbe deci msg) label) msg none =
          none := by
        unfold DualBandAccessControl.assign
        split <;> simp_all
      rw [nothing]
      apply iff_of_true
      · intro call member
        simp at member
      · right
        rw [named]
        simp
  | some ssid =>
      obtain ⟨call, assigned, agent, name⟩ := assign_agent _ label msg ssid info chosen
      rw [assigned, serves_iff v order msg info.agent ssid named, ← agent, ← name]
      unfold Served
      simp

theorem dual_served (tree : TreeNode) (descMap : DescMap) (step : Step)
    (fits : DualFits descMap step) :
    DualServed tree descMap step := by
  cases step with
  | gone staMacAddr => trivial
  | probe v now order msg =>
      show Served v _
      by_cases nothing : ∀ deci, descMap msg.staMacAddr = some deci → deci.flag = -1 → Placed msg →
          deci.probeInfos (other (band msg)) ≠ none → doDecision (withProbe deci msg) tree = none
      · rw [dual_silent tree _ descMap msg nothing]
        intro call member
        simp at member
      · push Not at nothing
        obtain ⟨deci, entry, undecided, placed, present, decision⟩ := nothing
        obtain ⟨label, decision⟩ := Option.ne_none_iff_exists'.mp decision
        have filled := BandDecision.withProbe_filled deci msg present
        obtain ⟨info, chosen⟩ := Option.ne_none_iff_exists'.mp (filled (if label = 0 then 0 else 1))
        apply (decision_served tree v order descMap msg deci entry undecided placed present label
          decision info
          chosen).mpr
        exact fits deci entry undecided placed present _ info chosen

def picks (slot : Fin 2) : TreeNode :=
  .node .null .null { condition := [], relation := [], valueCon := 0, canPruning := false,
                      leaf := slot.val }

theorem label_slot : ∀ slot :
    Fin 2, (if (slot.val : Int) = 0 then (0 : Fin 2) else 1) = slot := by decide

theorem dual_served_iff (descMap : DescMap) (step : Step) :
    (∀ tree, DualServed tree descMap step) ↔ DualFits descMap step := by
  constructor
  · intro served
    cases step with
    | gone staMacAddr => trivial
    | probe v now order msg =>
        intro deci entry undecided placed present slot info chosen
        have label : (if (slot.val : Int) = 0 then (0 : Fin 2) else 1) = slot := label_slot slot
        exact (decision_served (picks slot) v order descMap msg deci entry undecided placed present
          slot.val rfl info
          (label.symm ▸ chosen)).mp (served (picks slot))
  · exact fun fits tree => dual_served tree descMap step fits

/-! `AccessControlSingleApp`. -/

def singleNext (app : AccessControlSingleApp.App) : Step → AccessControlSingleApp.App
  | .probe v now order msg => (AccessControlSingleApp.handle v now order app msg).app
  | .gone staMacAddr => AccessControlSingleApp.handle1 app staMacAddr

def SingleServed (app : AccessControlSingleApp.App) : Step → Prop
  | .probe v now order msg => Served v (AccessControlSingleApp.handle v now order app msg).calls
  | .gone _ => True

/-- The agent with the best mark of the scan table, with this probe in it, serves the SSID. -/
def SingleFits (app : AccessControlSingleApp.App) : Step → Prop
  | .probe v now order msg =>
      ∀ scan, AccessControlSingleApp.scanned v now
          ((app.sta2ChannelScan.lookup msg.staMacAddr).getD fun _ => none) msg = some scan →
        ∀ best, Leads best (candidates v scan walked) → ServesProbe v order msg best.agent
  | .gone _ => True

/-- The tables of the application name no AP twice on a channel. -/
def AllDistinct (app : AccessControlSingleApp.App) : Prop :=
  ∀ mac scan, app.sta2ChannelScan.lookup mac = some scan → Distinct scan

theorem distinct_fresh : Distinct fun _ => none := fun _ _ found => absurd found (by simp)

theorem singleNext_distinct (app : AccessControlSingleApp.App) (step : Step)
    (all : AllDistinct app) :
    AllDistinct (singleNext app step) := by
  cases step with
  | gone staMacAddr => exact ScanSelection.all_erase all staMacAddr
  | probe v now order msg =>
      refine ScanSelection.handle_keeps now ?_ v order app msg distinct_fresh ?_ all
      · intro scan next distinct left index cha found
        exact distinct index cha (ScanSelection.expire_kept now scan next left index cha found)
      · exact fun scan next distinct added =>
          ScanSelection.scanned_distinct v now scan next msg distinct added

/-- The agent that is picked is the one with the best mark, if there is one. -/
theorem picked_iff (v : View) (scan : AccessControlSingleApp.Scan) (distinct : Distinct scan)
    (agent : Ref) :
    AccessControlSingleApp.channelAPSelecM2 v scan = some agent ↔
      ∃ best, Leads best (candidates v scan walked) ∧ best.agent = agent := by
  rw [ScanSelection.select_candidates v scan distinct]
  constructor
  · intro picked
    by_cases empty : candidates v scan walked = []
    · rw [empty] at picked
      cases picked
    · obtain ⟨best, leads⟩ := ScanSelection.exists_leads
          _ (ScanSelection.candidate_mark v scan walked) empty
      exact ⟨best, leads, Option.some.inj (leads.picked.symm.trans picked)⟩
  · rintro ⟨best, leads, rfl⟩
    exact leads.picked

theorem single_served_iff (app : AccessControlSingleApp.App) (all : AllDistinct app) (step : Step) :
    SingleServed app step ↔ SingleFits app step := by
  cases step with
  | gone staMacAddr => exact Iff.rfl
  | probe v now order msg =>
      have known : Distinct ((app.sta2ChannelScan.lookup msg.staMacAddr).getD fun _ => none) := by
        cases found : app.sta2ChannelScan.lookup msg.staMacAddr with
        | none => exact distinct_fresh
        | some scan => exact all msg.staMacAddr scan found
      unfold SingleServed SingleFits AccessControlSingleApp.handle
      dsimp only
      cases added : AccessControlSingleApp.scanned v now
          ((app.sta2ChannelScan.lookup msg.staMacAddr).getD fun _ => none) msg with
      | none => exact iff_of_true (by simp [Served]) (by simp)
      | some scan =>
          have leads := picked_iff v scan
              (ScanSelection.scanned_distinct v now _ scan msg known added)
          cases chosen : AccessControlSingleApp.channelAPSelecM2 v scan with
          | none =>
              refine iff_of_true (by simp [chosen, Served]) fun other same best led => ?_
              cases same
              have picked := (leads best.agent).mpr ⟨best, led, rfl⟩
              cases chosen.symm.trans picked
          | some agent =>
              have sound : (∀ best, Leads best (candidates v scan walked) →
                  ServesProbe v order msg best.agent) ↔
                  ServesProbe v order msg agent := by
                constructor
                · intro serves
                  obtain ⟨best, led, own⟩ := (leads agent).mp chosen
                  exact own ▸ serves best led
                · intro serves best led
                  have picked := (leads best.agent).mpr ⟨best, led, rfl⟩
                  rw [Option.some.inj (picked.symm.trans chosen)]
                  exact serves
              simp only [Option.some.injEq, forall_eq', sound]
              cases named : AccessControlSingleApp.firstSsid v order msg with
              | none => simp [chosen, named, Served, ServesProbe]
              | some ssid => simp [chosen, Served, serves_iff v order msg agent ssid named]

/-! Both. -/

/-- In every run of `DualBandAccessControl` in which, whenever both bands of a station are recorded,
both recorded APs serve the SSID of the probe, every call assigns an AP that serves its SSID; in
every state no less is enough for all trees. In a run of `AccessControlSingleApp` it is so exactly
if, at every probe, the AP with the best mark serves the SSID. -/
theorem assigned_ssid_served (tree : TreeNode) (dual single : List Step) :
    (Allowed (dualNext tree) DualFits noEntries dual → ∀ before step after,
      dual = before ++ step :: after →
      DualServed tree (run (dualNext tree) noEntries before) step) ∧
    (∀ before step after, dual = before ++ step :: after →
      ((∀ other, DualServed other (run (dualNext tree) noEntries before) step) ↔
        DualFits (run (dualNext tree) noEntries before) step)) ∧
    ((∀ before step after, single = before ++ step :: after →
        SingleServed (run singleNext {} before) step) ↔
      Allowed singleNext SingleFits {} single) := by
  refine ⟨?_, fun before step after _ => dual_served_iff _ step, ?_⟩
  · intro fits before step after shape
    exact dual_served tree _ step ((allowed_iff noEntries dual).mp fits before step after shape)
  · have distinct (before : List Step) : AllDistinct (run singleNext {} before) :=
      run_invariant AllDistinct (fun _ _ found => absurd found (by simp))
        (fun app step all => singleNext_distinct app step all) before
    rw [allowed_iff]
    exact forall_congr' fun before => forall_congr' fun step => forall₂_congr fun _ _ =>
      single_served_iff _ (distinct before) step

/-- Two APs are connected, and both serve the SSID `w`. -/
def sameSsid : View :=
  run StationCoherence.next View.empty
    (StationCoherence.hello 0 StationCoherence.apMac ++
      StationCoherence.hello 1 StationCoherence.otherMac)

def heardIn (v : View) (agent : Ref) (rssi channel : Int) (mode : Text) : Step :=
  .probe v 300 .stored ⟨DecisionRuns.staMac, rssi, 10, channel, mode, agent⟩

theorem sameSsid_serves (msg : ProbeInfoMessage) (agent : Ref)
    (sender : msg.agent = 0 ∨ msg.agent = 1) (assigned : agent = 0 ∨ agent = 1) :
    ServesProbe sameSsid .stored msg agent := by
  have own : ∀ a : Ref, a = 0 ∨ a = 1 → (sameSsid.agents a).ssidSet = [['w']] := by
    rintro a (rfl | rfl)
    · decide +kernel
    · decide +kernel
  refine .inr fun ssid named => ?_
  rw [AccessControlSingleApp.firstSsid, own _ sender] at named
  rw [own agent assigned, ← Option.some.inj named]
  exact List.mem_singleton_self _

theorem sameSsid_single (app : AccessControlSingleApp.App) (msg : ProbeInfoMessage)
    (sender : msg.agent = 0 ∨ msg.agent = 1)
    (known : ∀ best ∈ candidates sameSsid ((AccessControlSingleApp.scanned sameSsid 300
      ((app.sta2ChannelScan.lookup msg.staMacAddr).getD fun _ => none) msg).getD fun _ => none)
        walked,
        best.agent = 0 ∨ best.agent = 1) : SingleFits app (.probe sameSsid 300 .stored msg) := by
  intro scan added best leads
  refine sameSsid_serves msg best.agent sender (known best ?_)
  rw [added]
  exact leads.mem

/-- In the one run the second AP hears the station on 5 GHz and the first one then on 2.4 GHz; in
the other one the first AP hears it better than the second one does after it. -/
theorem same_ssid_served :
    (∀ before step after, [heardIn sameSsid 1 (-60) 40 "011".toList,
      heardIn sameSsid 0 (-60) 6 "010".toList] =
        before ++ step :: after →
      DualServed DecisionTree.mixedSplit (run (dualNext DecisionTree.mixedSplit) noEntries before)
        step) ∧
    ∀ before step after, [heardIn sameSsid 0 (-40) 6 "010".toList,
      heardIn sameSsid 1 (-60) 6 "010".toList] =
        before ++ step :: after → SingleServed (run singleNext {} before) step := by
  have both := assigned_ssid_served DecisionTree.mixedSplit
    [heardIn sameSsid 1 (-60) 40 "011".toList, heardIn sameSsid 0 (-60) 6 "010".toList]
    [heardIn sameSsid 0 (-40) 6 "010".toList, heardIn sameSsid 1 (-60) 6 "010".toList]
  refine ⟨both.1 ⟨?_, ?_, trivial⟩, both.2.2.mpr ⟨?_, ?_, trivial⟩⟩
  · intro deci entry
    cases entry
  · intro deci entry _ _ _ slot info chosen
    have stored : run (dualNext DecisionTree.mixedSplit) noEntries
        [heardIn sameSsid 1 (-60) 40 "011".toList]
        DecisionRuns.staMac = some (DualBandAccessControl.store {} 1 ⟨-60, 10, 1⟩) := rfl
    cases stored.symm.trans entry
    have agents : ∀ slot, ∀ info ∈ (withProbe (DualBandAccessControl.store {} 1 ⟨-60, 10, 1⟩)
        ⟨DecisionRuns.staMac, -60, 10, 6, "010".toList, 0⟩).probeInfos slot, info.agent = 0 ∨
          info.agent = 1 := by decide
    exact sameSsid_serves _ info.agent (.inl rfl) (agents slot info chosen)
  · exact sameSsid_single _ _ (.inl rfl) (by decide +kernel)
  · exact sameSsid_single _ _ (.inr rfl) (by decide +kernel)

/-- Two APs are connected: the first one serves the SSID `w`, the second one `x`. -/
def twoAps : View :=
  run StationCoherence.next View.empty (StationCoherence.hello 0 StationCoherence.apMac ++
    [⟨.accept, 0, .stored⟩, ⟨.localMac 1 ("000110901412".toList ++ StationCoherence.otherMac), 100,
      .stored⟩,
      ⟨.interfaceNum 1 "000211101502080300601101x".toList, 200, .stored⟩])

/-- The tree picks 5 GHz and the last probe is from the 2.4 GHz AP; the scan table prefers the AP
that heard the station first. -/
theorem other_ssid_assigned :
    ¬ DualServed DecisionTree.mixedSplit
        (run (dualNext DecisionTree.mixedSplit) noEntries [heardIn twoAps 1 (-60) 40 "011".toList])
        (heardIn twoAps 0 (-60) 6 "010".toList) ∧
      ¬ SingleServed (run singleNext {} [heardIn twoAps 0 (-40) 6 "010".toList])
        (heardIn twoAps 1 (-60) 6 "010".toList) := by
  constructor
  · intro served
    exact absurd (served ⟨1, DecisionRuns.staMac, "011".toList, ['w']⟩ (by decide +kernel))
      (by decide +kernel)
  · intro served
    exact absurd (served ⟨0, DecisionRuns.staMac, "010".toList, ['x']⟩ (by decide +kernel))
      (by decide +kernel)

end LazyAS.AssignedSsid

import LazyAS.DecisionTree
import LazyAS.Subscriptions

/-! `cn.fi.app.DualBandAccessControl`: collects the first probe of each band for every station,
lets the decision tree choose the band and asks for a container at the AP of that band. An
exception ends `handle` where it is thrown; what was written before stays. -/
namespace LazyAS.DualBandAccessControl
open WireText ControllerView DecisionTree

structure ProbeInfo where
  rssi : Int
  au : Int
  agent : Ref
  deriving DecidableEq

instance bands : NeZero (2 : Nat) := ⟨by decide⟩

structure ProbeDeci where
  flag : Int := -1
  probeInfos : Fin 2 → Option ProbeInfo := fun _ => none

abbrev DescMap := Text → Option ProbeDeci

structure ProbeInfoMessage where
  staMacAddr : Text
  rssi : Int
  au : Int
  channel : Int
  mode : Text
  agent : Ref
  deriving DecidableEq

def ProbeInfoMessage.info (msg : ProbeInfoMessage) : ProbeInfo := ⟨msg.rssi, msg.au, msg.agent⟩

/-- A call `addVapContainer(false, agent, staMacAddress, mode, ssid)`. -/
structure AddVap where
  agent : Ref
  staMacAddress : Text
  mode : Text
  ssid : Text
  deriving DecidableEq

def NET_2_4G : Text := "010".toList

def NET_5G : Text := "011".toList

/-- The value a condition is about: every other name is read as `au_5`. `none` is the exception
where the probe is missing. -/
def curValCon (deci : ProbeDeci) (condition : Text) : Option Int :=
  if condition = "rssi_2.4".toList then (deci.probeInfos 0).map ProbeInfo.rssi
  else if condition = "rssi_5".toList then (deci.probeInfos 1).map ProbeInfo.rssi
  else if condition = "au_2.4".toList then (deci.probeInfos 0).map ProbeInfo.au
  else (deci.probeInfos 1).map ProbeInfo.au

/-- `doDecision`: the label it stores in `deci.flag` and returns. The test that decides at a node
is that of its left child; `none` is the exception at a missing node. -/
def doDecision (deci : ProbeDeci) : TreeNode → Option Int
  | .null => none
  | .node .null _ info => some info.leaf
  | .node (.node a b test) right _ =>
      (curValCon deci test.condition).bind fun value =>
        if relationHolds test.relation value test.valueCon then doDecision deci (.node a b test)
        else doDecision deci right

def slot (index : Int) : Option (Fin 2) :=
  if index = 0 then some 0 else if index = 1 then some 1 else none

def store (deci : ProbeDeci) (index : Fin 2) (info : ProbeInfo) : ProbeDeci :=
  { deci with probeInfos := Function.update deci.probeInfos index (some info) }

/-- How `handle` ends: the entries, the calls it made and whether it returned. -/
structure Handled where
  descMap : DescMap
  calls : List AddVap := []
  returned : Bool := true

/-- The call for a decision: the AP and the mode of the chosen band, and the first SSID of the
agent that sent the probe. `none` is the exception where that has no SSID. -/
def assign (deci : ProbeDeci) (msg : ProbeInfoMessage) (ssid : Option Text) : Option AddVap :=
  match if deci.flag = 0 then deci.probeInfos 0 else deci.probeInfos 1, ssid with
  | some info, some ssid => some ⟨info.agent, msg.staMacAddr,
      if deci.flag = 0 then NET_2_4G else NET_5G, ssid⟩
  | _, _ => none

/-- The part of `handle` for a message `FNII_MSG_PROBE_INFO`; `ssid` is what
`getSsidSet().iterator().next()` gives for the agent of the message. -/
def handleProbe (tree : TreeNode) (ssid : Option Text) (descMap : DescMap)
    (msg : ProbeInfoMessage) : Handled :=
  let mode := msg.channel.tdiv 36
  match descMap msg.staMacAddr with
  | some deci =>
      if deci.flag ≠ -1 then { descMap := descMap }
      else
        match slot mode, slot (1 - mode) with
        | some index, some other =>
            let stored := if deci.probeInfos index = none then store deci index msg.info else deci
            let kept := Function.update descMap msg.staMacAddr (some stored)
            if stored.probeInfos other = none then { descMap := kept }
            else
              match doDecision stored tree with
              | none => { descMap := kept, returned := false }
              | some label =>
                  let decided := { stored with flag := label }
                  let done := Function.update descMap msg.staMacAddr (some decided)
                  match assign decided msg ssid with
                  | none => { descMap := done, returned := false }
                  | some call => { descMap := done, calls := [call] }
        | _, _ => { descMap := descMap, returned := false }
  | none =>
      -- the entry is there before the index is looked at
      match slot mode with
      | some index =>
          { descMap := Function.update descMap msg.staMacAddr (some (store {} index msg.info)) }
      | none => { descMap := Function.update descMap msg.staMacAddr (some {}), returned := false }

/-- A probe leaves its station with an entry, also where `handle` throws, and the others alone. -/
theorem handleProbe_entry (tree : TreeNode) (ssid : Option Text) (descMap : DescMap)
    (msg : ProbeInfoMessage) :
    ∃ deci, (handleProbe tree ssid descMap msg).descMap =
      Function.update descMap msg.staMacAddr (some deci) := by
  unfold handleProbe
  dsimp only
  cases entry : descMap msg.staMacAddr with
  | none =>
      dsimp only
      split
      · exact ⟨_, rfl⟩
      · exact ⟨_, rfl⟩
  | some deci =>
      have same : descMap = Function.update descMap msg.staMacAddr (some deci) := by
        rw [← entry, Function.update_eq_self]
      dsimp only
      split
      · exact ⟨deci, same⟩
      · split
        case h_2 => exact ⟨deci, same⟩
        -- what was stored in the slot does not matter here
        generalize (if deci.probeInfos _ = none then store deci _ msg.info else deci) = stored
        split
        · exact ⟨_, rfl⟩
        · split
          · exact ⟨_, rfl⟩
          · split
            · exact ⟨_, rfl⟩
            · exact ⟨_, rfl⟩

def handleDel (descMap : DescMap) (staMacAddr : Text) : DescMap :=
  Function.update descMap staMacAddr none

/-- `init` subscribes one callback to the probes of off-line stations and to the departures of
on-line ones. -/
def init (macAddrList : List Text) : List (Subscriptions.Registration Unit) :=
  Subscriptions.registerList (fun mac =>
    [⟨"DualBandAccessControl".toList, ⟨mac, Master.FNII_MSG_PROBE_INFO, Status.offLine.text⟩, ()⟩,
      ⟨"DualBandAccessControl".toList, ⟨mac, Master.FNII_MSG_DEL_STA, Status.onLine.text⟩, ()⟩])
        macAddrList

end LazyAS.DualBandAccessControl

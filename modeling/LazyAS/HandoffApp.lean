import LazyAS.Master
import Mathlib.Data.List.Sort

/-! `cn.fi.app.HandoffApp`: keeps what every agent has heard of a station in its probe reports
and decides when the station roams. An exception ends `handle` where it is thrown. The three
marks are cleared at the start of every call and the current agent is set anew before it is
used, so both are local here. `now` is the time of the call. -/
namespace LazyAS.HandoffApp
open WireText ControllerView Master

def int32 (n : Int) : Int := n.bmod (2 ^ 32)

def waitTimeout : Int := 1200

def handoffinterval : Int := 5

def queueRssiSize : Nat := 1

def threshold1 : Int := 10

def threshold2 : Int := 20

def allChannel : Int := 26

/-- `channeltoIndex`, which `chaList` has as well. -/
def channeltoIndex (channel : Int) : Int :=
  if channel < 14 then channel
  else if channel < 65 then 5 + channel / 4
  else if channel < 166 then -15 + channel / 4
  else 0

/-! The scan lists. -/

structure ApHandNode where
  oldDate : Int
  newDate : Int
  rssi : List Int

structure ChaHandList where
  list : AList fun _ : Text => ApHandNode := ∅
  queuesize : Nat := queueRssiSize
  date : Int := 0

def fixRssiQueue (queuesize : Nat) (queue : List Int) (rssi : Int) : List Int :=
  if queue.length < queuesize then queue ++ [rssi] else queue.tail ++ [rssi]

/-- `addAP`; `channel` is the index of the channel. -/
def addAP (cha : ChaHandList) (mac : Text) (rssi channel now : Int) : ChaHandList :=
  let heard := if channel > 13 then int32 (rssi + 50) else rssi
  let node : ApHandNode := match cha.list.lookup mac with
    | some ap =>
        { oldDate := ap.newDate, newDate := now, rssi := fixRssiQueue cha.queuesize ap.rssi heard }
    | none =>
        let filled := (List.range cha.queuesize).foldl
          (fun queue _ => fixRssiQueue cha.queuesize queue (-50)) []
        { oldDate := now, newDate := now, rssi := fixRssiQueue cha.queuesize filled heard }
  { cha with list := cha.list.insert mac node, date := now }

def findAvgRssiByApMac (cha : ChaHandList) (mac : Text) : Int :=
  match cha.list.lookup mac with
  | none => 0
  | some ap =>
      let values := ap.rssi ++ List.replicate (cha.queuesize - ap.rssi.length) 0
      ((values.insertionSort (· ≤ ·))[(cha.queuesize + 1) / 2 - 1]?).getD 0

abbrev Scan := Int → Option ChaHandList

def inBounds (index : Int) : Bool := 0 ≤ index && index ≤ allChannel

structure App where
  sta2ChannelScan : AList fun _ : Text => Scan := ∅
  sta2DisTime : Text → Option Int := fun _ => none
  sta2DisedOldAgent : Text → Option Ref := fun _ => none
  sta2DisedNewAgent : Text → Option Ref := fun _ => none
  timeout : Option Int := none

structure ProbeInfoMessage where
  staMacAddr : Text
  rssi : Int
  channel : Int
  mode : Text
  agent : Ref

variable (v : View) (now : Int) (order : Order)

/-! Choosing the agent. -/

/-- The station of a probe, the agent it works on, the agent that heard it and the SSID. -/
structure Probe where
  station : Ref
  currentAgent : Ref
  pAgent : Ref
  workingSsid : Text
  deriving DecidableEq

/-- `probeMsgCheck`; `none` also where it throws. -/
def probeMsgCheck (msg : ProbeInfoMessage) : Option Probe := do
  let station ← v.stationMap.lookup msg.staMacAddr
  let working ← (v.stations station).workingVapContainer
  let workingSsid := (v.vaps working).ssid
  let pAgent ← v.agentMap (v.agents msg.agent).macAddress
  if msg.staMacAddr.length = 12 ∧ (v.agents pAgent).ssidSet.contains workingSsid then
    some ⟨station, (v.vaps working).agent, pAgent, workingSsid⟩
  else none

structure Marks where
  forceRoam : Bool := false
  noForceRoam : Bool := false
  deCurrentAp : Bool := false

/-- The marks from the two signal strengths and the times of the last probes. -/
def roamMarks (probe : Probe) (tchannel crssi prssi : Int) (cApNode tApNode : ApHandNode) : Marks :=
  let channel := (v.agents probe.currentAgent).channel
  let cmark := int32 (2 * crssi - 3 * getVapContainerOnline v probe.currentAgent)
  let sameFreq := (channel ≤ 13 ∧ tchannel ≤ 13) ∨ (channel ≥ 14 ∧ tchannel ≥ 14)
  let pmark := int32 (2 * prssi - 3 * getVapContainerOnline v probe.pAgent -
    (if tchannel ≠ channel then 15 else 0) - (if sameFreq then 0 else 50))
  { noForceRoam := pmark ≥ int32 (cmark + threshold1) ∨
      tApNode.oldDate - cApNode.newDate > 12 * 1000
    forceRoam := pmark ≥ int32 (cmark + threshold1) ∧ pmark > int32 (cmark + threshold2) }

def hasVap (s a : Ref) (ssid : Text) : Bool :=
  (v.stations s).vapContainerSet.values.any fun c =>
    (v.vaps c).station = s && (v.vaps c).ssid = ssid && (v.vaps c).agent = a

/-- `handOff`: the agent to roam to, if any, and the marks; `none` where it throws. The
comparison of the two address objects at its end always finds them different. -/
def handOff (probe : Probe) (scan : Scan) (tchannel : Int) (tAgentMacAddr : Text) :
    Option (Option Ref × Marks) :=
  let channelIndex := channeltoIndex (v.agents probe.currentAgent).channel
  let cAgentMacAddr := (v.agents probe.currentAgent).macAddress
  if inBounds channelIndex then
    match scan channelIndex with
    | none => some (none, {})
    | some current =>
        match scan (channeltoIndex tchannel) with
        | none => none
        | some target =>
            match current.list.lookup cAgentMacAddr, target.list.lookup tAgentMacAddr with
            | some cApNode, some tApNode =>
                let marks := roamMarks v probe tchannel (findAvgRssiByApMac current cAgentMacAddr)
                  (findAvgRssiByApMac target tAgentMacAddr) cApNode tApNode
                -- the container is in the view from the moment the add command was accepted
                if hasVap v probe.station probe.pAgent probe.workingSsid then
                  some (none, { marks with deCurrentAp := true })
                else if getVapContainerIdle v probe.pAgent > 0 then some (some probe.pAgent, marks)
                else some (none, marks)
            | _, _ => some (none, {})
  else none

/-! The bookkeeping of `handle`. -/

def setNewAgent (app : App) (staMacAddr : Text) (agent : Option Ref) : App :=
  { app with sta2DisedNewAgent := Function.update app.sta2DisedNewAgent staMacAddr agent }

def setOldAgent (app : App) (staMacAddr : Text) (agent : Option Ref) : App :=
  { app with sta2DisedOldAgent := Function.update app.sta2DisedOldAgent staMacAddr agent }

/-- A station that has arrived, or whose container is gone, has no pending agent. -/
def forgetArrived (app : App) (staMacAddr : Text) (probe : Probe) : App :=
  match app.sta2DisedNewAgent staMacAddr with
  | none => app
  | some new =>
      let roamOK := (v.agents new).macAddress = (v.agents probe.currentAgent).macAddress
      let addOK := agentSetContains v probe.station (.agent new)
      if roamOK ∨ ¬ addOK then setNewAgent app staMacAddr none else app

/-- Adds the probe to the station's lists; `none` for a channel outside of the array. -/
def addProbe (app : App) (msg : ProbeInfoMessage) : App × Option Scan :=
  let scan := (app.sta2ChannelScan.lookup msg.staMacAddr).getD fun _ => none
  let channelIndex := channeltoIndex msg.channel
  if inBounds channelIndex then
    let cha := addAP ((scan channelIndex).getD {}) (v.agents msg.agent).macAddress msg.rssi
        channelIndex now
    let heard := Function.update scan channelIndex (some cha)
    ({ app with sta2ChannelScan := app.sta2ChannelScan.insert msg.staMacAddr heard }, some heard)
  else ({ app with sta2ChannelScan := app.sta2ChannelScan.insert msg.staMacAddr scan }, none)

def tooSoon (app : App) (staMacAddr : Text) : Bool :=
  match app.sta2DisTime staMacAddr with
  | none => false
  | some last => now - last < handoffinterval * 1000

/-- The test on the date of a list; a missing list never passes it. -/
def channelExpired (channels : Option ChaHandList) : Bool :=
  let dtime := match channels with
    | none => now + waitTimeout * 1000 - 1
    | some cha => cha.date
  dtime - now > waitTimeout * 1000

def dropOldAps (cha : ChaHandList) : ChaHandList :=
  { cha with list := cha.list.keys.foldl (fun list mac =>
      match cha.list.lookup mac with
      | some ap => if now - ap.newDate > waitTimeout * 1000 then list.erase mac else list
      | none => list) cha.list }

def maintainStation (staMacAddr : Text) (app : App) (mac : Text) : App :=
  match app.sta2ChannelScan.lookup mac with
  | none => app
  | some scan =>
      -- the channels 1 to 25; a missing list keeps the station
      if (List.range 25).all fun i => channelExpired now (scan (i + 1)) then
        { setOldAgent (setNewAgent app mac none) mac none with
          sta2ChannelScan := app.sta2ChannelScan.erase mac
          sta2DisTime := Function.update app.sta2DisTime staMacAddr none }
      else
        let kept : Scan := fun i =>
          if 1 ≤ i ∧ i < allChannel ∧ channelExpired now (scan i) then (scan i).map (dropOldAps now)
          else scan i
        { app with sta2ChannelScan := app.sta2ChannelScan.insert mac kept }

/-- The end of `handle`: records the time and cleans up every two minutes. -/
def finish (app : App) (staMacAddr : Text) : App :=
  let timed := { app with sta2DisTime := Function.update app.sta2DisTime staMacAddr (some now) }
  if timed.timeout.all fun last => now - last > waitTimeout * 100 then
    timed.sta2ChannelScan.keys.foldl (maintainStation now staMacAddr) { timed with
      timeout := some now }
  else timed

/-- `handle`: roams by force (type 1), without force (type 2), or cuts the current agent when
the view says that the other one has the container already (type 3). -/
def handle (app : App) (msg : ProbeInfoMessage) : View × App :=
  match probeMsgCheck v msg with
  | none => (v, app)
  | some probe =>
      let staMacAddress := msg.staMacAddr
      let agentMacAddress := (v.agents msg.agent).macAddress
      let heard := addProbe v now (forgetArrived v app staMacAddress probe) msg
      match heard.2 with
      | none => (v, heard.1)
      | some scan =>
          if (v.agents probe.currentAgent).macAddress = agentMacAddress then (v, heard.1)
          else if tooSoon now heard.1 staMacAddress then (v, heard.1)
          else
            let app := setOldAgent heard.1 staMacAddress (some probe.currentAgent)
            match handOff v probe scan msg.channel agentMacAddress with
            | none => (v, app)
            | some (some pAgent, marks) =>
                -- this agent was chosen with the SSID, so the test does not fail
                if (v.agents pAgent).ssidSet.contains probe.workingSsid then
                  if marks.forceRoam then
                    ((handoffVap v now order probe.station probe.currentAgent pAgent
                      probe.workingSsid).1,
                      finish now (setNewAgent app staMacAddress none) staMacAddress)
                  else if marks.noForceRoam then
                    (addVapContainer v now order true pAgent staMacAddress msg.mode
                      probe.workingSsid,
                      finish now (setNewAgent app staMacAddress (some pAgent)) staMacAddress)
                  else (v, finish now app staMacAddress)
                else (v, app)
            | some (none, marks) =>
                if marks.forceRoam ∧ marks.deCurrentAp then
                  (delVapContainer v now order (some .delCAgent) probe.currentAgent probe.station
                    probe.workingSsid, finish now app staMacAddress)
                else (v, finish now app staMacAddress)

/-! What a call can do to the view. -/

theorem handOff_target (probe : Probe) (scan : Scan) (tchannel : Int) (tAgentMacAddr : Text)
    (a : Ref) (marks : Marks)
    (chosen : handOff v probe scan tchannel tAgentMacAddr = some (some a, marks)) :
    a = probe.pAgent := by
  unfold handOff at chosen
  grind

def CutsCurrent (app : App) (msg : ProbeInfoMessage) (probe : Probe) : Prop :=
  probeMsgCheck v msg = some probe ∧
  (v.agents probe.currentAgent).macAddress ≠ (v.agents msg.agent).macAddress ∧
  let heard := addProbe v now (forgetArrived v app msg.staMacAddr probe) msg
  tooSoon now heard.1 msg.staMacAddr = false ∧ ∃ scan marks, heard.2 = some scan ∧
    handOff v probe scan msg.channel (v.agents msg.agent).macAddress = some (none, marks) ∧
    marks.forceRoam = true ∧ marks.deCurrentAp = true

end LazyAS.HandoffApp

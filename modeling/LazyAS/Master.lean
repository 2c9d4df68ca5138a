import LazyAS.ControllerView

/-! `cn.fi.main.Master`: the handlers of the AP's messages, the commands, their checks and
the timer tasks, each a function from the view to the view. An exception ends a handler
where it is thrown, so the function returns the view of that moment. `now` is the time of
the call and `order` the order in which it iterates its tables. -/
namespace LazyAS.Master
open WireText ControllerView

/-! The types of the AP's messages. -/

def FNII_MSG_OK : Text := "100".toList

def FNII_MSG_ERR : Text := "101".toList

def FNII_MSG_NEW_STA : Text := "104".toList

def FNII_MSG_DEL_STA : Text := "105".toList

def FNII_MSG_FLOW_INFO : Text := "106".toList

def FNII_MSG_PROBE_INFO : Text := "107".toList

def FNII_MSG_LOCAL_MAC : Text := "109".toList

def FNII_MSG_HEART_BEAT : Text := "110".toList

def FNII_MSG_INTERFACE_NUM : Text := "111".toList

/-! Reading a message body. -/

def takeText (message : Text) (curPos count : Int) : Option (Text × Int) :=
  (substring message curPos (curPos + count)).map fun field => (field, curPos + count)

def takeNumber (message : Text) (curPos count : Int) : Option (Int × Int) := do
  let (field, curPos) ← takeText message curPos count
  let number ← parseInt field
  return (number, curPos)

def takeSized (message : Text) (curPos : Int) : Option (Text × Int) := do
  let (length, curPos) ← takeNumber message curPos 2
  takeText message curPos length

def takeSizedNumber (message : Text) (curPos : Int) : Option (Int × Int) := do
  let (field, curPos) ← takeSized message curPos
  let number ← parseInt field
  return (number, curPos)

def takeSizedLong (message : Text) (curPos : Int) : Option (Int64 × Int) := do
  let (field, curPos) ← takeSized message curPos
  let number ← parseLong field
  return (Int64.ofInt number, curPos)

def bodyStart : Int := 10

/-- What the station reports start with: the id of the message, the station and where
the SSID follows. The address of the AP is read and not used. -/
def takeStation (message : Text) : Option (Text × Text × Int) := do
  let msgId ← substring message 0 4
  let (staMacAddr, curPos) ← takeSized message bodyStart
  let (_, curPos) ← takeSized message curPos
  return (msgId, staMacAddr, curPos)

variable (v : View) (now : Int) (order : Order)

/-- The SSID of a station report: the agent's first one in a short message of an old AP,
else the reported one, if the agent has it. -/
def resolveSsid (a : Ref) (message : Text) (curPos : Int) : Option Text :=
  if message.length ≤ 48 then (order.arrange (v.agents a).ssidSet).head?
  else do
    let (ssid, _) ← takeSized message curPos
    if (v.agents a).ssidSet.contains ssid then some ssid else none

/-! Commands. -/

/-- `delVapContainer`: submits the deletion, or closes the connection of a silent agent. -/
def delVapContainer (roamType : Option RoamType) (a s : Ref) (ssid : Text) : View :=
  match (v.agents a).sc with
  | none => v
  | some sc =>
      if (v.sc2AgentMap sc).isSome then
        if agentStatus v a now = .onLine then
          -- the view is changed when the AP has confirmed
          if agentSetContains v s (.agent a) then submit v (.del roamType a s ssid) else v
        else closeSocket v order sc
      else v

/-- `checkSsidExist`; `none` is the exception when an agent's mode is still unset. -/
def checkSsidExist (isRoam : Bool) (s a : Ref) (addSsid : Text) : Option Bool :=
  let own := (order.arrange (v.stations s).vapContainerSet.values).filter fun c =>
    (v.vaps c).station = s ∧ (v.vaps c).ssid = addSsid
  if isRoam then some (own.any fun c => (v.vaps c).agent = a)
  else do
    let mode ← (v.agents a).mode
    if mode = "010".toList then some ((stationSsidSet v s).contains addSsid)
    else if mode = "011".toList then
      -- the 2.4G container of the same SSID may be replaced, a 5G one not
      own.foldr (fun c rest =>
        if (v.vaps c).agent = a then some true
        else do
          let oldMode ← (v.agents (v.vaps c).agent).mode
          let found ← rest
          return found || oldMode = "011".toList) (some false)
    else some false

def createVap (s a : Ref) (ssid : Text) : View :=
  let c := v.nextVap
  let w := setLastProbeHeard (newVapContainer v s a ssid) c now
  stationAddVap (agentAddVap w a c) s c

/-- `excuteAddVap`; `false` when it ends with an exception. -/
def excuteAddVap (isRoam : Bool) (message : StationCtrlMessage) : View × Bool :=
  let a := message.agent
  match (v.agents a).sc with
  | none => (v, true)
  | some sc =>
      if (v.sc2AgentMap sc).isSome then
        match v.stationMap.lookup message.staMacAddr with
        | none => (v, true)
        | some s =>
            if agentStatus v a now = .onLine then
              match checkSsidExist v order isRoam s a message.ssid with
              | none => (v, false)
              | some true => (v, true)
              | some false =>
                  match agentVap v a s message.ssid with
                  | some _ => (v, true)
                  -- the view is changed before the AP has answered
                  | none => (submit (createVap v now s a message.ssid) (.add a s message), true)
            else (closeSocket v order sc, true)
      else (v, true)

/-- `handoffVap`: the first command of a forced roam. -/
def handoffVap (s fromAgent toAgent : Ref) (ssid : Text) : View × Bool :=
  excuteAddVap v now order true
    { msgType := .addVapRoam, staMacAddr := (v.stations s).macAddress, ssid := ssid
      mode := (v.agents toAgent).mode, fromAgentMacAddr := (v.agents fromAgent).macAddress
      agent := toAgent }

/-- `addVapContainer` of the applications: at once when roaming, else through the queue,
where only a 2.4G command gives way to a later one. -/
def addVapContainer (isNoForceRoam : Bool) (a : Ref) (staMacAddress mode ssid : Text) : View :=
  let message : StationCtrlMessage :=
    { msgType := .addVap, staMacAddr := staMacAddress, ssid := ssid, mode := some mode, agent := a }
  let key := staMacAddress ++ ssid
  if isNoForceRoam then (excuteAddVap v now order true message).1
  else match v.cmdQueue.lookup key with
    | none => { v with cmdQueue := v.cmdQueue.insert key ⟨message, now⟩ }
    | some queued =>
        if queued.message.staMacAddr = staMacAddress then
          if queued.message.mode = some "011".toList ∧ mode = "010".toList then v
          else { v with cmdQueue := v.cmdQueue.insert key ⟨message, queued.firstHeart⟩ }
        else v

/-- `cancelTask`: takes back the view change of a failed command. -/
def cancelTask (message : StationCtrlMessage) : View :=
  match (v.agents message.agent).sc with
  | none => v
  | some sc =>
      if (v.sc2AgentMap sc).isSome then
        match message.msgType with
        | .addVap | .addVapRoam =>
            let agentMacAddr := (v.agents message.agent).macAddress
            match v.stationMap.lookup message.staMacAddr, v.agentMap agentMacAddr with
            | some s, some a =>
                -- the source looks for the station in its own set of agents
                if agentSetContains v s (.station s) then
                  let undone :=
                    if agentStatus v a now = .onLine ∧ (agentStationSet v a).contains s then
                      match stationVap v s a message.ssid with
                      | none => v
                      | some c => stationRemoveVap (agentRemoveVap v a c) s c
                    else v
                  if (agentSet undone s).length = 0 ∧ (undone.stations s).status = .onLine then
                    let off := setStationStatus undone s .offLine
                    match (off.stations s).workingVapContainer with
                    | none => off
                    | some c => setWorking (setVapStatus off c .offLine) s none
                  else undone
                else v
            | _, _ => v
        | .delVap =>
            if agentStatus v message.agent now = .offLine then closeSocket v order sc else v
        | .offlineVap => v
      else v

/-! Messages of the AP. -/

def updateAgentHeard (sc : Ref) : View :=
  match v.sc2AgentMap sc with
  | none => v
  | some a => updAgent v a fun agent => { agent with lastHeard := now }

/-- A new `Agent` for the connection; it is registered if the channel is still tracked. -/
def registerAgent (sc : Ref) (agentMacAddr : Text) : View :=
  let a := v.nextAgent
  let created := { v with
    agents := Function.update v.agents a
      { macAddress := agentMacAddr, sc := some sc, lastHeard := now }
    nextAgent := v.nextAgent + 1 }
  if created.socketMap sc then
    let registered := { created with
      agentMap := Function.update created.agentMap agentMacAddr (some a)
      sc2AgentMap := Function.update created.sc2AgentMap sc (some a) }
    mirror registered fun redis =>
      Redis.addAgent redis agentMacAddr (Redis.decimal (created.agents a).channel)
      (((created.agents a).mode).getD "null".toList)
  else created

def processMsgLocalMac (sc : Ref) (message : Text) : View :=
  match takeSized message bodyStart with
  | none => v
  | some (agentMacAddr, _) =>
      let closed := match v.agentMap agentMacAddr with
        | none => v
        | some old =>
            match (v.agents old).sc with
            | none => v
            | some agentSc => if agentSc ≠ sc then closeSocket v order agentSc else v
      -- the remote address of a closed channel cannot be read
      if closed.isOpen sc then registerAgent closed now sc agentMacAddr else closed

/-- `processMsgHeartBeat`: the message is sent back; `written` is what the channel does. -/
def processMsgHeartBeat (sc : Ref) (message : Text) (written : Bool) : View :=
  match v.sc2AgentMap sc with
  | none => v
  | some a =>
      let heard := updAgent v a fun agent => { agent with lastHeartBeat := now }
      if heard.isOpen sc ∧ written then
        { heard with sent := heard.sent ++ [(sc, message ++ [';'])] }
      else heard

def bringOnline (s c : Ref) : View :=
  setWorking (setLastProbeHeard (setVapStatus v c .onLine) c now) s (some c)

/-- The part of `processMsgNewStation` for a station that already has the agent; `false`
is the exception when an on-line station has no working container. -/
def newStationKnown (s a : Ref) (ssid : Text) : View × Bool :=
  if (v.stations s).status = .onLine then
    let heard := stationHeard v s now (v.agents a).mode
    match (heard.stations s).workingVapContainer with
    | none => (heard, false)
    | some w =>
        if (heard.vaps w).agent = a then (heard, true)
        else match stationVap heard s a ssid with
          | some c => (setStationStatus (updateSumTraffic (bringOnline heard now s c) s) s .onLine,
              true)
          | none =>
              let c := heard.nextVap
              let created := setLastProbeHeard (newVapContainer heard s a ssid) c now
              let stored := stationAddVap (setVapStatus created c .onLine) s c
              (agentAddVap (setWorking stored s (some c)) a c, true)
  else
    -- a container that is created here is not stored on either side
    let found := match stationVap v s a ssid with
      | some c => (v, c)
      | none => (newVapContainer v s a ssid, v.nextVap)
    if agentSetContains found.1 s (.agent a) then
      let heard := stationHeard found.1 s now (found.1.agents a).mode
      (setStationStatus (updateSumTraffic (bringOnline heard now s found.2) s) s .onLine, true)
    else (found.1, true)

/-- `StationManager.addStation`, which mirrors every new station as off line. -/
def addStation (staMacAddr : Text) (s : Ref) : View :=
  mirror { v with stationMap := v.stationMap.insert staMacAddr s } fun redis =>
    Redis.addStation redis staMacAddr Status.offLine.text

/-- A station that is not known yet, brought on line with its first container. -/
def createStation (a : Ref) (staMacAddr ssid : Text) : View :=
  let s := v.nextStation
  let c := v.nextVap
  let created := { v with
    stations := Function.update v.stations s { macAddress := staMacAddr, status := .onLine }
    nextStation := v.nextStation + 1 }
  let online := bringOnline (newVapContainer created s a ssid) now s c
  let stored := agentAddVap (stationAddVap online s c) a c
  addStation stored staMacAddr s

/-- The part of `processMsgNewStation` that links the agent to the station. -/
def newStationLink (s a : Ref) (ssid : Text) : View :=
  -- a container that is stored already stays as it is, also when it is off line
  let linked := match stationVap v s a ssid with
    | some _ => v
    | none =>
        match agentVap v a s ssid with
        | none =>
            let c := v.nextVap
            let created := setLastProbeHeard (setVapStatus (newVapContainer v s a ssid) c .onLine) c
                now
            agentAddVap (setWorking (stationAddVap created s c) s (some c)) a c
        | some c =>
            let online := setLastProbeHeard (setVapStatus v c .onLine) c now
            setWorking (stationAddVap online s c) s (some c)
  stationHeard linked s now (linked.agents a).mode

/-- The commands that delete the same SSID's containers at the other agents. -/
def delOtherVaps (s a : Ref) (ssid : Text) : View :=
  (order.arrange (v.stations s).vapContainerSet.values).foldl (fun w c =>
    if (w.vaps c).agent ≠ a ∧ (w.vaps c).ssid = ssid then
      delVapContainer w now order none (w.vaps c).agent s (w.vaps c).ssid
    else w) v

def isLinked (s a : Ref) : Bool :=
  agentSetContains v s (.agent a) && (agentStationSet v a).contains s

/-- The change `processMsgNewStation` makes to the station and the reporting agent. -/
def admitStation (a : Ref) (staMacAddr ssid : Text) : (View × Bool) × Ref :=
  match v.stationMap.lookup staMacAddr with
  | none =>
      let created := createStation v now a staMacAddr ssid
      ((newStationLink created now v.nextStation a ssid, true), v.nextStation)
  | some s =>
      if isLinked v s a then (newStationKnown v now s a ssid, s)
      else ((newStationLink v now s a ssid, true), s)

def processMsgNewStation (sc : Ref) (message : Text) : View :=
  match v.sc2AgentMap sc, takeStation message with
  | some a, some (msgId, staMacAddr, curPos) =>
      match resolveSsid v order a message curPos with
      | none => v
      | some ssid =>
          let admitted := admitStation v now a staMacAddr ssid
          if admitted.1.2 then
            let cleaned := delOtherVaps admitted.1.1 now order admitted.2 a ssid
            { cleaned with published := cleaned.published ++ [.newSta msgId staMacAddr a] }
          else admitted.1.1
  | _, _ => v

def leaveVap (s c : Ref) : View :=
  let left := if (v.stations s).workingVapContainer = some c then
      setWorking (setStationStatus v s .offLine) s none
    else v
  let off := if (left.vaps c).status = .onLine then setVapStatus left c .offLine else left
  setLastProbeHeard off c now

def processMsgDelStation (sc : Ref) (message : Text) : View :=
  match v.sc2AgentMap sc, takeStation message with
  | some a, some (_, staMacAddr, curPos) =>
      match v.stationMap.lookup staMacAddr, resolveSsid v order a message curPos with
      | some s, some ssid =>
          match stationVap v s a ssid with
          | none => v
          | some c => leaveVap v now s c
      | _, _ => v
  | _, _ => v

/-- The counters of an accepted flow report: smaller ones are those of a station that came
on line again. -/
def countTraffic (a s : Ref) (upTraffic downTraffic : Int64) : View :=
  let station := v.stations s
  let counted :=
    if station.upTraffic > upTraffic ∨ station.downTraffic > downTraffic then
      updateSumTraffic (addSumTraffic v a upTraffic downTraffic) s
    else addSumTraffic v a (upTraffic - station.upTraffic) (downTraffic - station.downTraffic)
  setUpTraffic (setDownTraffic counted s downTraffic) s upTraffic

def processMsgFlowInfo (sc : Ref) (message : Text) : View :=
  match takeSized message bodyStart, v.sc2AgentMap sc with
  | some (staMacAddr, curPos), some a =>
      match v.stationMap.lookup staMacAddr with
      | none => v
      | some s =>
          if (v.stations s).status = .onLine then
            match (v.stations s).workingVapContainer with
            | none => v
            | some w =>
                if (v.agents (v.vaps w).agent).macAddress = (v.agents a).macAddress then
                  match takeSizedLong message curPos with
                  | none => v
                  | some (upTraffic, curPos) =>
                      match takeSizedLong message curPos with
                      | none => v
                      | some (downTraffic, _) => countTraffic v a s upTraffic downTraffic
                else v
          else v
  | _, _ => v

/-- The station, the reporting agent and the counters of a flow report that is accepted. -/
def flowReport (sc : Ref) (message : Text) : Option (Ref × Ref × Int64 × Int64) := do
  let (staMacAddr, curPos) ← takeSized message bodyStart
  let a ← v.sc2AgentMap sc
  let s ← v.stationMap.lookup staMacAddr
  let w ← (v.stations s).workingVapContainer
  let (upTraffic, curPos) ← takeSizedLong message curPos
  let (downTraffic, _) ← takeSizedLong message curPos
  if (v.stations s).status = .onLine ∧
      (v.agents (v.vaps w).agent).macAddress = (v.agents a).macAddress then
    some (s, a, upTraffic, downTraffic)
  else none

theorem processMsgFlowInfo_eq (sc : Ref) (message : Text) :
    processMsgFlowInfo v sc message = match flowReport v sc message with
      | none => v
      | some (s, a, upTraffic, downTraffic) => countTraffic v a s upTraffic downTraffic := by
  unfold processMsgFlowInfo flowReport
  cases takeSized message bodyStart with
  | none => rfl
  | some taken =>
      cases v.sc2AgentMap sc with
      | none => rfl
      | some a =>
          dsimp only [bind, Option.bind]
          cases v.stationMap.lookup taken.1 with
          | none => rfl
          | some s =>
              dsimp only
              cases (v.stations s).workingVapContainer with
              | none => simp
              | some w =>
                  dsimp only
                  cases takeSizedLong message taken.2 with
                  | none => simp
                  | some up =>
                      dsimp only
                      cases takeSizedLong message up.2 with
                      | none => simp
                      | some down =>
                          dsimp only
                          by_cases online : (v.stations s).status = .onLine
                          · by_cases here : (v.agents (v.vaps w).agent).macAddress =
                              (v.agents a).macAddress
                            · simp only [online, here, and_self, if_true]
                            · simp only [online, here, and_false, if_true, if_false]
                          · simp only [online, false_and, if_false]

structure ProbeInfo where
  msgId : Text
  staMacAddr : Text
  rssi : Int
  au : Int
  channel : Int
  mode : Text

def takeProbe (message : Text) : Option ProbeInfo := do
  let msgId ← substring message 0 4
  let (staMacAddr, curPos) ← takeSized message bodyStart
  let (rssi, curPos) ← takeSizedNumber message curPos
  let (au, curPos) ← takeSizedNumber message curPos
  let (channel, curPos) ← takeSizedNumber message curPos
  let (mode, _) ← takeText message curPos 3
  return ⟨msgId, staMacAddr, rssi, au, channel, mode⟩

def probeStation (staMacAddr : Text) : View × Ref :=
  match v.stationMap.lookup staMacAddr with
  | some s => (v, s)
  | none =>
      let created := { v with
        stations := Function.update v.stations v.nextStation
          { macAddress := staMacAddr, status := .offLine }
        nextStation := v.nextStation + 1 }
      (addStation created staMacAddr v.nextStation, v.nextStation)

def processMsgProbeInfo (sc : Ref) (message : Text) : View :=
  match v.sc2AgentMap sc, takeProbe message with
  | some a, some probe =>
      let (seen, s) := probeStation v probe.staMacAddr
      if agentStatus seen a now = .onLine then
        -- a weak probe counts only for a station that is on line
        if (seen.stations s).status ≠ .onLine ∧ probe.rssi < -75 then seen
        else
          let heard := stationHeard seen s now (seen.agents a).mode
          let touched := (order.arrange (heard.agents a).ssidSet).foldl (fun w ssid =>
            match stationVap w s a ssid with
            | some c => setLastProbeHeard w c now
            | none => w) heard
          { touched with published := touched.published ++
            [.probeInfo probe.msgId probe.staMacAddr probe.rssi probe.au probe.channel probe.mode a]
              }
      else seen
  | _, _ => v

/-- What an acknowledged deletion does to the view. A station without a working container,
or one whose working container was just cleared, ends the handler with an exception. -/
def acknowledgeDel (a s : Ref) (ssid : Text) : View :=
  if agentSetContains v s (.agent a) then
    match stationVap v s a ssid with
    | none => v
    | some c =>
        let remove := fun w : View =>
          if (w.agentMap (w.agents a).macAddress).isSome ∧ agentStatus w a now = .onLine then
            stationRemoveVap (agentRemoveVap w a c) s c
          else w
        if (v.vaps c).status = .onLine then
          let off := setVapStatus (setStationStatus v s .offLine) c .offLine
          match (off.stations s).workingVapContainer with
          | none => off
          | some w => if w = c then setWorking off s none else remove off
        else if (agentSet v s).length = 0 then
          remove (setVapStatus (setStationStatus v s .offLine) c .offLine)
        else remove v
  else v

def processMsgOk (sc : Ref) (message : Text) : View :=
  match v.sc2AgentMap sc, substring message 0 4 with
  | some a, some msgId =>
      let sendMsgId := (v.agents a).macAddress ++ msgId
      match v.sendMsgBuffer sendMsgId with
      | none => v
      | some sendMsg =>
          -- the entry is confirmed whatever the command was
          let confirmed := putSendMsg v sendMsgId (some { sendMsg with status := .ok })
          let message := sendMsg.msg
          match message.msgType with
          | .addVapRoam =>
              match v.agentMap message.fromAgentMacAddr, v.stationMap.lookup message.staMacAddr with
              | some fromAgent, some s =>
                  match stationVap v s fromAgent message.ssid with
                  | none => confirmed
                  | some c =>
                      delVapContainer confirmed now order (some .force) fromAgent s (v.vaps c).ssid
              | _, _ => confirmed
          | .delVap =>
              match v.stationMap.lookup message.staMacAddr with
              | none => confirmed
              | some s => acknowledgeDel confirmed now a s message.ssid
          | .offlineVap | .addVap => confirmed
  | _, _ => v

def processMsgErr (sc : Ref) (message : Text) : View :=
  match v.sc2AgentMap sc, substring message 0 4 with
  | some a, some msgId =>
      let sendMsgId := (v.agents a).macAddress ++ msgId
      match v.sendMsgBuffer sendMsgId with
      | none => v
      | some sendMsg => putSendMsg v sendMsgId (some { sendMsg with status := .err })
  | _, _ => v

def takeSsids (message : Text) : Nat → Int → List Text → List Text
  | 0, _, ssids => ssids
  | fuel + 1, curPos, ssids =>
      if curPos < message.length then
        match takeSized message curPos with
        | none => ssids
        | some (ssid, next) =>
            takeSsids message fuel next (if ssids.contains ssid then ssids else ssids ++ [ssid])
      else ssids

/-- The capacity, the channel, the mode and where the SSID list starts. -/
def takeInterface (message : Text) : Option (Int × Int × Text × Int) := do
  let (totStaSize, curPos) ← takeSizedNumber message bodyStart
  let (channel, curPos) ← takeSizedNumber message curPos
  let (mode, curPos) ← takeText message curPos 3
  return (totStaSize, channel, mode, curPos)

/-- The idle count is set to the capacity, whatever the agent holds. -/
def informAgent (a : Ref) (totStaSize channel : Int) (mode message : Text) (curPos : Int) : View :=
  let known := updAgent v a fun agent => { agent with
    statCountSum := totStaSize
    staCountIdle := totStaSize
    mode := some mode
    channel := channel
    ssidSet := takeSsids message message.length curPos agent.ssidSet }
  mirror known fun redis =>
    let modeSet := Redis.hsetKnown redis (v.agents a).macAddress .agentMode mode
    Redis.hsetKnown modeSet (v.agents a).macAddress .agentChannel (Redis.decimal channel)

def processMsgInterfaceNum (sc : Ref) (message : Text) : View :=
  match v.sc2AgentMap sc, takeInterface message with
  | some a, some (totStaSize, channel, mode, curPos) =>
      informAgent v a totStaSize channel mode message curPos
  | _, _ => v

/-! Timer tasks. -/

/-- `isVirtualMac`; `none` for an address shorter than two characters. -/
def isVirtualMac (macAddress : Text) : Option Bool :=
  (substring macAddress 1 2).map fun digit =>
    digit = ['2'] || digit = ['3'] || digit = ['6'] || digit = ['7']

def dropVap (s c : Ref) : View :=
  let a := (v.vaps c).agent
  let asked := delVapContainer v now order none a s (v.vaps c).ssid
  stationRemoveVap (agentRemoveVap asked a c) s c

/-- A container of an off-line station that was heard lately; `false` is the exception
that ends the whole run. -/
def ageVap (s c : Ref) : View × Bool :=
  let vap := v.vaps c
  if vap.station = s ∧ vap.status = .offLine then
    match isVirtualMac (v.stations s).macAddress with
    | none => (v, false)
    | some virtual =>
        if (virtual ∧ now - vap.lastProbeHeard > 300 * 1000) ∨
          now - vap.lastProbeHeard > 600 * 1000 then
          (dropVap v now order s c, true)
        else if (v.stations s).lastHeard - vap.lastProbeHeard > 12 * 1000 then
          match (v.stations s).lastHeardMode with
          | none => (v, false)
          | some mode =>
              if (v.agents vap.agent).mode = some mode then
                if vap.lastProbeHeard = vap.savedProbeHeard then (dropVap v now order s c, true)
                else
                  (updVap v c fun vap => { vap with
                    lastProbeHeard := (v.stations s).lastHeard
                    savedProbeHeard := (v.stations s).lastHeard }, true)
              else (v, true)
        else (v, true)
  else (v, true)

def whileFine (body : View → Ref → View × Bool) : View → List Ref → View × Bool
  | w, [] => (w, true)
  | w, item :: rest =>
      let next := body w item
      if next.2 then whileFine body next.1 rest else next

theorem whileFine_within (within : View → View → Prop) (refl : ∀ w, within w w)
    (trans : ∀ {u w x}, within u w → within w x → within u x) (body : View → Ref → View × Bool)
    (each : ∀ w item, within w (body w item).1) (items : List Ref) (w : View) :
    within w (whileFine body w items).1 := by
  -- wherever the loop ends, it stays within a relation that each of its passes stays within
  induction items generalizing w with
  | nil => exact refl w
  | cons item items ih =>
      unfold whileFine
      dsimp only
      split
      · exact trans (each w item) (ih _)
      · exact each w item

def removeStation (staMacAddr : Text) : View :=
  mirror { v with stationMap := v.stationMap.erase staMacAddr } fun redis =>
    Redis.delStation redis staMacAddr

def ageStation (s : Ref) : View × Bool :=
  if (v.stations s).status = .onLine then (v, true)
  else if now - (v.stations s).lastHeard > 600 * 1000 then
    if (v.stations s).vapContainerSet.values.length > 0 then
      ((order.arrange (v.stations s).vapContainerSet.values).foldl (fun w c =>
        if (w.vaps c).station = s then dropVap w now order s c else w) v, true)
    else (removeStation v (v.stations s).macAddress, true)
  else
    whileFine (fun w c => ageVap w now order s c) v
      (order.arrange (v.stations s).vapContainerSet.values)

def ageTask : View :=
  (whileFine (fun w s => ageStation w now order s) v (order.arrange v.stationMap.values)).1

/-- One entry in the loop of `CmdTask.run`: a command that has waited long enough is executed
if its station is known. An exception ends the task for good. -/
def cmdTask (key : Text) : View :=
  match v.cmdQueue.lookup key with
  | none => v
  | some appCmd =>
      if v.cmdTaskRuns ∧ now - appCmd.firstHeart > 3 * 1000 then
        if (v.stationMap.lookup appCmd.message.staMacAddr).isSome then
          let executed := excuteAddVap v now order false appCmd.message
          if executed.2 then { executed.1 with cmdQueue := executed.1.cmdQueue.erase key }
          else { executed.1 with cmdTaskRuns := false }
        else { v with cmdQueue := v.cmdQueue.erase key }
      else v

/-- `CheckSendMsgTask.run`; a missing entry ends the check with an exception. -/
def checkSendMsg (sendMsgId : Text) : View :=
  match v.sendMsgBuffer sendMsgId with
  | none => v
  | some sendMsg =>
      match sendMsg.status with
      | .ok => putSendMsg v sendMsgId none
      -- the entry of a cancelled command stays in the buffer
      | .err | .unreply => cancelTask v now order sendMsg.msg

/-! The executor. -/

def commandCode : CommandType → Text
  | .addVap | .addVapRoam => "102".toList
  | .delVap => "103".toList
  | .offlineVap => "117".toList

def commandFrame (msgId : Text) (type : CommandType) (staMacAddr mode ssid : Text) : Text :=
  let length := Nat.toDigits 10 staMacAddr.length
  let tmp := length ++ staMacAddr ++ length ++ "ffffffffffff".toList ++ mode ++
    zeroPad 2 ssid.length ++ ssid
  msgId ++ commandCode type ++ zeroPad 3 tmp.length ++ tmp ++ [';']

/-- A missing mode is appended as the text `null`. -/
def modeText (mode : Option Text) : Text := mode.getD "null".toList

def delType : Option RoamType → CommandType
  | none => .delVap
  | some _ => .offlineVap

/-- Sending a command: takes an id, writes the frame and goes on to store the command; a
write that fails is taken back. A channel without agent ends the task with an exception,
after the frame was written if the channel is open. -/
def sendCommand (a : Ref) (frame : Text → Text) (message : StationCtrlMessage) (written : Bool) :
    View :=
  let id := nextId (v.agents a)
  let msgId := zeroPad 4 id
  let numbered := updAgent v a fun agent => { agent with currentId := id }
  match (numbered.agents a).sc with
  | none => cancelTask numbered now order message
  | some sc =>
      if numbered.isOpen sc then
        if written then
          -- the frame is on its way before the command is stored
          let wrote := { numbered with sent := numbered.sent ++ [(sc, frame msgId)] }
          if (wrote.sc2AgentMap sc).isSome then
            submit wrote (.putSendMsg ((wrote.agents a).macAddress ++ msgId) message)
          else wrote
        else cancelTask numbered now order message
      else if (numbered.sc2AgentMap sc).isSome then cancelTask numbered now order message
      else numbered

def runTask (task : Task) (written : Bool) : View :=
  match task with
  | .add a s message =>
      sendCommand v now order a (fun msgId => commandFrame msgId .addVap (v.stations s).macAddress
        (modeText message.mode) message.ssid) message written
  | .del roamType a s ssid =>
      let message : StationCtrlMessage :=
        { msgType := delType roamType, staMacAddr := (v.stations s).macAddress, ssid := ssid
          mode := none, agent := a }
      sendCommand v now order a (fun msgId => commandFrame msgId (delType roamType)
        (v.stations s).macAddress (modeText (v.agents a).mode) ssid) message written
  | .putSendMsg sendMsgId message =>
      submit (putSendMsg v sendMsgId (some ⟨message, .unreply⟩)) (.schedule sendMsgId)
  | .schedule sendMsgId => { v with checks := v.checks ++ [sendMsgId] }

/-! Whole runs. -/

inductive Op where
  | accept
  | heard (sc : Ref)
  | localMac (sc : Ref) (message : Text)
  | heartBeat (sc : Ref) (message : Text) (written : Bool)
  | newStation (sc : Ref) (message : Text)
  | delStation (sc : Ref) (message : Text)
  | flowInfo (sc : Ref) (message : Text)
  | probeInfo (sc : Ref) (message : Text)
  | interfaceNum (sc : Ref) (message : Text)
  | ok (sc : Ref) (message : Text)
  | err (sc : Ref) (message : Text)
  | closeSocket (sc : Ref)
  | addVap (isRoam : Bool) (message : StationCtrlMessage)
  | queueVap (a : Ref) (staMacAddress mode ssid : Text)
  | delVap (roamType : Option RoamType) (a s : Ref) (ssid : Text)
  | cancel (message : StationCtrlMessage)
  | age
  | cmd (key : Text)
  | task (index : Nat) (written : Bool)
  | check (index : Nat)

def accept : View :=
  { v with
    socketMap := Function.update v.socketMap v.nextSocket true
    isOpen := Function.update v.isOpen v.nextSocket true
    nextSocket := v.nextSocket + 1 }

def step : Op → View
  | .accept => accept v
  | .heard sc => updateAgentHeard v now sc
  | .localMac sc message => processMsgLocalMac v now order sc message
  | .heartBeat sc message written => processMsgHeartBeat v now sc message written
  | .newStation sc message => processMsgNewStation v now order sc message
  | .delStation sc message => processMsgDelStation v now order sc message
  | .flowInfo sc message => processMsgFlowInfo v sc message
  | .probeInfo sc message => processMsgProbeInfo v now order sc message
  | .interfaceNum sc message => processMsgInterfaceNum v sc message
  | .ok sc message => processMsgOk v now order sc message
  | .err sc message => processMsgErr v sc message
  | .closeSocket sc => closeSocket v order sc
  | .addVap isRoam message => (excuteAddVap v now order isRoam message).1
  | .queueVap a staMacAddress mode ssid =>
      addVapContainer v now order false a staMacAddress mode ssid
  | .delVap roamType a s ssid => delVapContainer v now order roamType a s ssid
  | .cancel message => cancelTask v now order message
  | .age => ageTask v now order
  | .cmd key => cmdTask v now order key
  | .task index written =>
      match v.tasks[index]? with
      | none => v
      | some task => runTask { v with tasks := v.tasks.eraseIdx index } now order task written
  | .check index =>
      match v.checks[index]? with
      | none => v
      | some sendMsgId =>
          checkSendMsg { v with checks := v.checks.eraseIdx index } now order sendMsgId

end LazyAS.Master

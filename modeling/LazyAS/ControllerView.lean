import LazyAS.Redis
import Mathlib.Data.List.AList

/-! The controller's view: the objects of `cn.fi.obj`, the managers of `cn.fi.store` and
their methods. Objects live in heaps and are named by references, so two objects with
equal fields stay different. Times are milliseconds, and the traffic counters wrap as `long`
does. The Redis mirror is written as with `REDIS_USED`; no method reads the view from it.
Console and log output are left out. -/
namespace LazyAS.ControllerView
open WireText

abbrev Ref := Nat

abbrev Table := AList fun _ : Text => Ref

def Table.values (table : Table) : List Ref := table.entries.map Sigma.snd

/-- The order in which a hash table is iterated, which nothing fixes. -/
structure Order where
  arrange : {α : Type} → List α → List α
  perm : ∀ {α : Type} (items : List α), (arrange items).Perm items

def Order.stored : Order := ⟨fun items => items, fun items => List.Perm.refl items⟩

inductive Status where
  | onLine | offLine
  deriving DecidableEq, Repr

def Status.text : Status → Text
  | .onLine => "online".toList
  | .offLine => "offline".toList

structure VapContainer where
  agent : Ref
  station : Ref
  ssid : Text
  status : Status := .offLine
  savedProbeHeard : Int := 0
  lastProbeHeard : Int := 0

structure Station where
  macAddress : Text
  status : Status
  lastHeard : Int := 0
  lastHeardMode : Option Text := none
  sumUpTraffic : Int64 := 0
  sumDownTraffic : Int64 := 0
  upTraffic : Int64 := 0
  downTraffic : Int64 := 0
  workingVapContainer : Option Ref := none
  vapContainerSet : Table := ∅

structure Agent where
  macAddress : Text := []
  staCountIdle : Int := 32
  staCountOnline : Int := 0
  statCountSum : Int := 32
  mode : Option Text := none
  channel : Int := 0
  currentId : Nat := 0
  sc : Option Ref := none
  lastHeard : Int := 0
  lastHeartBeat : Int := 0
  ssidSet : List Text := []
  vapContainerSet : Table := ∅
  sumUpTraffic : Int64 := 0
  sumDownTraffic : Int64 := 0

/-- The commands of the controller; the AP is sent 102 for both kinds of adding. -/
inductive CommandType where
  | addVap | addVapRoam | delVap | offlineVap
  deriving DecidableEq, Repr

inductive RoamType where
  | force | delCAgent
  deriving DecidableEq, Repr

/-- A `StationCtrlMessage`; `fromAgentMacAddr` is set in a `HandoffMessage` only. -/
structure StationCtrlMessage where
  msgType : CommandType
  staMacAddr : Text
  ssid : Text
  mode : Option Text
  fromAgentMacAddr : Text := []
  agent : Ref
  deriving DecidableEq

inductive MsgStatus where
  | unreply | ok | err
  deriving DecidableEq, Repr

structure SendMsg where
  msg : StationCtrlMessage
  status : MsgStatus
  deriving DecidableEq

structure AppCmd where
  message : StationCtrlMessage
  firstHeart : Int

/-- What the executor still has to run. `AgentStationAddRunnable` and
`AgentStationDelRunnable` go through three phases: write the frame, put the command
into the send buffer, schedule its check. -/
inductive Task where
  | add (agent station : Ref) (message : StationCtrlMessage)
  | del (roamType : Option RoamType) (agent station : Ref) (ssid : Text)
  | putSendMsg (sendMsgId : Text) (message : StationCtrlMessage)
  | schedule (sendMsgId : Text)
  deriving DecidableEq

inductive Published where
  | newSta (msgId staMacAddr : Text) (agent : Ref)
  | probeInfo (msgId staMacAddr : Text) (rssi au channel : Int) (mode : Text) (agent : Ref)

structure View where
  agents : Ref → Agent
  stations : Ref → Station
  vaps : Ref → VapContainer
  nextAgent : Ref
  nextStation : Ref
  nextVap : Ref
  nextSocket : Ref
  agentMap : Text → Option Ref
  sc2AgentMap : Ref → Option Ref
  socketMap : Ref → Bool
  isOpen : Ref → Bool
  stationMap : Table
  sendMsgBuffer : Text → Option SendMsg
  cmdQueue : AList fun _ : Text => AppCmd
  cmdTaskRuns : Bool
  tasks : List Task
  checks : List Text
  sent : List (Ref × Text)
  published : List Published
  redis : Redis.Hashes

def View.empty : View where
  agents := fun _ => {}
  stations := fun _ => { macAddress := [], status := .offLine }
  vaps := fun _ => { agent := 0, station := 0, ssid := [] }
  nextAgent := 0
  nextStation := 0
  nextVap := 0
  nextSocket := 0
  agentMap := fun _ => none
  sc2AgentMap := fun _ => none
  socketMap := fun _ => false
  isOpen := fun _ => false
  stationMap := ∅
  sendMsgBuffer := fun _ => none
  cmdQueue := ∅
  cmdTaskRuns := true
  tasks := []
  checks := []
  sent := []
  published := []
  redis := fun _ => none

variable (v : View)

def updAgent (a : Ref) (change : Agent → Agent) : View :=
  { v with agents := Function.update v.agents a (change (v.agents a)) }

def updStation (s : Ref) (change : Station → Station) : View :=
  { v with stations := Function.update v.stations s (change (v.stations s)) }

def updVap (c : Ref) (change : VapContainer → VapContainer) : View :=
  { v with vaps := Function.update v.vaps c (change (v.vaps c)) }

def mirror (write : Redis.Hashes → Redis.Hashes) : View := { v with redis := write v.redis }

/-! VapContainer. -/

def vapKey (c : Ref) : Text :=
  (v.agents (v.vaps c).agent).macAddress ++ (v.stations (v.vaps c).station).macAddress ++
    (v.vaps c).ssid

/-- `new VapContainer(station, agent, ssid)`; the new reference is `v.nextVap`. -/
def newVapContainer (s a : Ref) (ssid : Text) : View :=
  { v with
    vaps := Function.update v.vaps v.nextVap { agent := a, station := s, ssid := ssid }
    nextVap := v.nextVap + 1 }

/-- `VapContainer.setStatus`, which also keeps the agent's online count. -/
def setVapStatus (c : Ref) (status : Status) : View :=
  let counted := match (v.vaps c).status, status with
    | .onLine, .offLine =>
        updAgent v (v.vaps c).agent fun agent =>
          { agent with staCountOnline := agent.staCountOnline - 1 }
    | .offLine, .onLine =>
        updAgent v (v.vaps c).agent fun agent =>
          { agent with staCountOnline := agent.staCountOnline + 1 }
    | _, _ => v
  updVap counted c fun vap => { vap with status := status }

def setLastProbeHeard (c : Ref) (now : Int) : View :=
  updVap v c fun vap => { vap with lastProbeHeard := now }

/-! Station. -/

def setStationStatus (s : Ref) (status : Status) : View :=
  mirror (updStation v s fun station => { station with status := status }) fun redis =>
    Redis.hsetKnown redis (v.stations s).macAddress .staStatus status.text

def setWorking (s : Ref) (working : Option Ref) : View :=
  updStation v s fun station => { station with workingVapContainer := working }

def stationHeard (s : Ref) (now : Int) (mode : Option Text) : View :=
  updStation v s fun station => { station with lastHeard := now, lastHeardMode := mode }

def updateSumTraffic (s : Ref) : View :=
  let summed := updStation v s fun station => { station with
    sumDownTraffic := station.sumDownTraffic + station.downTraffic
    sumUpTraffic := station.sumUpTraffic + station.upTraffic
    downTraffic := 0
    upTraffic := 0 }
  let station := summed.stations s
  -- the source writes the sums and the counters of the other direction
  mirror summed fun redis =>
    let sumUp := Redis.hsetKnown redis station.macAddress .staSumUpTraffic
        (Redis.long station.sumDownTraffic)
    let sumDown := Redis.hsetKnown sumUp station.macAddress .staSumDownTraffic
        (Redis.long station.sumUpTraffic)
    let up := Redis.hsetKnown sumDown station.macAddress .staUpTraffic
        (Redis.long station.downTraffic)
    Redis.hsetKnown up station.macAddress .staDownTraffic (Redis.long station.upTraffic)

def setUpTraffic (s : Ref) (upTraffic : Int64) : View :=
  mirror (updStation v s fun station => { station with upTraffic := upTraffic }) fun redis =>
    Redis.hsetKnown redis (v.stations s).macAddress .staUpTraffic (Redis.long upTraffic)

def setDownTraffic (s : Ref) (downTraffic : Int64) : View :=
  mirror (updStation v s fun station => { station with downTraffic := downTraffic }) fun redis =>
    Redis.hsetKnown redis (v.stations s).macAddress .staDownTraffic (Redis.long downTraffic)

/-- `Station.addVapContainer`: whatever is stored under the key is replaced. -/
def stationAddVap (s c : Ref) : View :=
  updStation v s fun station =>
    { station with vapContainerSet := station.vapContainerSet.insert (vapKey v c) c }

def stationRemoveVap (s c : Ref) : View :=
  updStation v s fun station =>
    { station with vapContainerSet := station.vapContainerSet.erase (vapKey v c) }

def stationVap (s a : Ref) (ssid : Text) : Option Ref :=
  (v.stations s).vapContainerSet.lookup
    ((v.agents a).macAddress ++ (v.stations s).macAddress ++ ssid)

def ownVaps (s : Ref) : List Ref :=
  (v.stations s).vapContainerSet.values.filter fun c => (v.vaps c).station = s

def agentSet (s : Ref) : List Ref := (ownVaps v s).map fun c => (v.vaps c).agent

def stationSsidSet (s : Ref) : List Text := (ownVaps v s).map fun c => (v.vaps c).ssid

/-- An argument of `Set.contains`, which takes any object. -/
inductive Obj where
  | agent (ref : Ref)
  | station (ref : Ref)

/-- `station.getAgentSet().contains(object)`: only an agent can be found there. -/
def agentSetContains (s : Ref) : Obj → Bool
  | .agent a => (agentSet v s).contains a
  | .station _ => false

/-! Agent. -/

/-- `Agent.getStatus`: silent for more than `AGENT_TIME_OUT` seconds is off line. -/
def agentStatus (a : Ref) (now : Int) : Status :=
  if now - (v.agents a).lastHeard > 30 * 1000 then .offLine else .onLine

/-- `Agent.addVapContainer`: a key that is taken keeps its container. -/
def agentAddVap (a c : Ref) : View :=
  if vapKey v c ∈ (v.agents a).vapContainerSet then v
  else updAgent v a fun agent =>
    { agent with
      staCountIdle := agent.staCountIdle - 1
      vapContainerSet := agent.vapContainerSet.insert (vapKey v c) c }

def agentRemoveVap (a c : Ref) : View :=
  if vapKey v c ∈ (v.agents a).vapContainerSet then
    updAgent v a fun agent =>
      { agent with
        staCountIdle := agent.staCountIdle + 1
        vapContainerSet := agent.vapContainerSet.erase (vapKey v c) }
  else v

def agentVap (a s : Ref) (ssid : Text) : Option Ref :=
  (v.agents a).vapContainerSet.lookup
    ((v.agents a).macAddress ++ (v.stations s).macAddress ++ ssid)

def agentStationSet (a : Ref) : List Ref :=
  (v.agents a).vapContainerSet.values.map fun c => (v.vaps c).station

/-- `Agent.getVapContainerIdle`, which `getStaCountIdle` returns: counted down from 32, whatever
the AP reported. -/
def getVapContainerIdle (a : Ref) : Int :=
  let vapNum := (v.agents a).vapContainerSet.values.length
  if vapNum > 32 then 0 else 32 - vapNum

/-- `Agent.getVapContainerOnline`, which `getStaCountOnline` returns. -/
def getVapContainerOnline (a : Ref) : Nat :=
  (v.agents a).vapContainerSet.values.countP fun c => (v.vaps c).status = .onLine

def addSumTraffic (a : Ref) (upTraffic downTraffic : Int64) : View :=
  updAgent v a fun agent => { agent with
    sumUpTraffic := agent.sumUpTraffic + upTraffic
    sumDownTraffic := agent.sumDownTraffic + downTraffic }

/-- `Agent.getMsgId`: the next id, from 1 to 10000. -/
def nextId (agent : Agent) : Nat :=
  if agent.currentId + 1 > 10000 then agent.currentId + 1 - 10000 else agent.currentId + 1

def resetVap (a c : Ref) : View :=
  let s := (v.vaps c).station
  let detached :=
    -- the station may have another container under the key
    if (v.stations s).vapContainerSet.values.contains c then
      let removed := stationRemoveVap v s c
      if (removed.stations s).workingVapContainer = some c then
        updateSumTraffic (setWorking (setStationStatus removed s .offLine) s none) s
      else removed
    else v
  agentRemoveVap detached a c

def clearVaps (order : Order) (a : Ref) : View :=
  (order.arrange (v.agents a).vapContainerSet.values).foldl (fun w c => resetVap w a c) v

def reset (order : Order) (a : Ref) : View :=
  updAgent (clearVaps v order a) a fun agent => { agent with lastHeard := 0, sc := none }

/-! Master: sockets, the send buffer and the executor. -/

/-- `removeAgentBySc` and `removeAgent` of `AgentManager`. -/
def removeAgent (sc a : Ref) : View :=
  let removed := { v with
    sc2AgentMap := Function.update v.sc2AgentMap sc none
    agentMap := Function.update v.agentMap (v.agents a).macAddress none }
  mirror removed fun redis => Redis.delAgent redis (v.agents a).macAddress

/-- `closeSocket`. The address of a closed channel cannot be read, which ends the method
before it does anything. -/
def closeSocket (order : Order) (sc : Ref) : View :=
  if v.isOpen sc then
    let forgotten := { v with socketMap := Function.update v.socketMap sc false }
    let cleared := match forgotten.sc2AgentMap sc with
      | none => forgotten
      | some a => removeAgent (reset forgotten order a) sc a
    { cleared with isOpen := Function.update cleared.isOpen sc false }
  else v

def submit (task : Task) : View := { v with tasks := v.tasks ++ [task] }

def putSendMsg (sendMsgId : Text) (entry : Option SendMsg) : View :=
  { v with sendMsgBuffer := Function.update v.sendMsgBuffer sendMsgId entry }

end LazyAS.ControllerView

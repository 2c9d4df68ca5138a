import LazyAS.Master

/-! Who is bound to whom: the part of the view that ties stations, agents and containers
together. Heartbeats, counters, queues and frames are not in it, so most assignments of
the handlers leave the bindings as they are. -/
namespace LazyAS.VapBindings
open WireText ControllerView Master

structure Bindings where
  stationMac : Ref → Text
  status : Ref → Status
  working : Ref → Option Ref
  stored : Ref → Table
  vapAgent : Ref → Ref
  vapStation : Ref → Ref
  vapSsid : Ref → Text
  vapStatus : Ref → Status
  agentMac : Ref → Text
  agentSc : Ref → Option Ref
  held : Ref → Table
  stationMap : Table
  sc2AgentMap : Ref → Option Ref
  nextAgent : Ref
  nextStation : Ref
  nextVap : Ref

def bindings (v : View) : Bindings where
  stationMac := Station.macAddress ∘ v.stations
  status := Station.status ∘ v.stations
  working := Station.workingVapContainer ∘ v.stations
  stored := Station.vapContainerSet ∘ v.stations
  vapAgent := VapContainer.agent ∘ v.vaps
  vapStation := VapContainer.station ∘ v.vaps
  vapSsid := VapContainer.ssid ∘ v.vaps
  vapStatus := VapContainer.status ∘ v.vaps
  agentMac := Agent.macAddress ∘ v.agents
  agentSc := Agent.sc ∘ v.agents
  held := Agent.vapContainerSet ∘ v.agents
  stationMap := v.stationMap
  sc2AgentMap := v.sc2AgentMap
  nextAgent := v.nextAgent
  nextStation := v.nextStation
  nextVap := v.nextVap

namespace Bindings

variable (b : Bindings)

def key (c : Ref) : Text :=
  b.agentMac (b.vapAgent c) ++ b.stationMac (b.vapStation c) ++ b.vapSsid c

def setStatus (s : Ref) (status : Status) : Bindings :=
  { b with status := Function.update b.status s status }

def setWorking (s : Ref) (working : Option Ref) : Bindings :=
  { b with working := Function.update b.working s working }

def setVap (c : Ref) (status : Status) : Bindings :=
  { b with vapStatus := Function.update b.vapStatus c status }

def store (s c : Ref) : Bindings :=
  { b with stored := Function.update b.stored s ((b.stored s).insert (b.key c) c) }

def drop (s c : Ref) : Bindings :=
  { b with stored := Function.update b.stored s ((b.stored s).erase (b.key c)) }

def hold (a c : Ref) : Bindings :=
  if b.key c ∈ b.held a then b
  else { b with held := Function.update b.held a ((b.held a).insert (b.key c) c) }

def release (a c : Ref) : Bindings :=
  { b with held := Function.update b.held a ((b.held a).erase (b.key c)) }

def create (s a : Ref) (ssid : Text) : Bindings :=
  { b with
    vapAgent := Function.update b.vapAgent b.nextVap a
    vapStation := Function.update b.vapStation b.nextVap s
    vapSsid := Function.update b.vapSsid b.nextVap ssid
    vapStatus := Function.update b.vapStatus b.nextVap .offLine
    nextVap := b.nextVap + 1 }

def createStation (mac : Text) (status : Status) : Bindings :=
  { b with
    stationMac := Function.update b.stationMac b.nextStation mac
    status := Function.update b.status b.nextStation status
    working := Function.update b.working b.nextStation none
    stored := Function.update b.stored b.nextStation ∅
    nextStation := b.nextStation + 1 }

def createAgent (mac : Text) (sc : Ref) : Bindings :=
  { b with
    agentMac := Function.update b.agentMac b.nextAgent mac
    agentSc := Function.update b.agentSc b.nextAgent (some sc)
    held := Function.update b.held b.nextAgent ∅
    nextAgent := b.nextAgent + 1 }

end Bindings

/-! What the assignments of the view do to the bindings. -/

theorem comp_update_same {α β : Type*} (read : α → β) (heap : Ref → α) (i : Ref) (x : α)
    (same : read x = read (heap i)) : read ∘ Function.update heap i x = read ∘ heap := by
  rw [Function.comp_update, same]
  exact Function.update_eq_self i (read ∘ heap)

theorem bindings_agent_frame (v : View) (a : Ref) (change : Agent → Agent)
    (mac : (change (v.agents a)).macAddress = (v.agents a).macAddress)
    (sc : (change (v.agents a)).sc = (v.agents a).sc)
    (held : (change (v.agents a)).vapContainerSet = (v.agents a).vapContainerSet) :
    bindings (updAgent v a change) = bindings v := by
  simp only [bindings, updAgent, comp_update_same _ _ _ _ mac, comp_update_same _ _ _ _ sc,
    comp_update_same _ _ _ _ held]

theorem bindings_station_frame (v : View) (s : Ref) (change : Station → Station)
    (mac : (change (v.stations s)).macAddress = (v.stations s).macAddress)
    (status : (change (v.stations s)).status = (v.stations s).status)
    (working : (change (v.stations s)).workingVapContainer = (v.stations s).workingVapContainer)
    (stored : (change (v.stations s)).vapContainerSet = (v.stations s).vapContainerSet) :
    bindings (updStation v s change) = bindings v := by
  simp only [bindings, updStation, comp_update_same _ _ _ _ mac, comp_update_same _ _ _ _ status,
    comp_update_same _ _ _ _ working, comp_update_same _ _ _ _ stored]

theorem bindings_vap_frame (v : View) (c : Ref) (change : VapContainer → VapContainer)
    (agent : (change (v.vaps c)).agent = (v.vaps c).agent)
    (station : (change (v.vaps c)).station = (v.vaps c).station)
    (ssid : (change (v.vaps c)).ssid = (v.vaps c).ssid)
    (status : (change (v.vaps c)).status = (v.vaps c).status) :
    bindings (updVap v c change) = bindings v := by
  simp only [bindings, updVap, comp_update_same _ _ _ _ agent, comp_update_same _ _ _ _ station,
    comp_update_same _ _ _ _ ssid, comp_update_same _ _ _ _ status]

theorem bindings_station_status (v : View) (s : Ref) (change : Station → Station)
    (mac : (change (v.stations s)).macAddress = (v.stations s).macAddress)
    (working : (change (v.stations s)).workingVapContainer = (v.stations s).workingVapContainer)
    (stored : (change (v.stations s)).vapContainerSet = (v.stations s).vapContainerSet) :
    bindings (updStation v s change) =
      (bindings v).setStatus s (change (v.stations s)).status := by
  simp only [bindings, updStation, Bindings.setStatus, comp_update_same _ _ _ _ mac,
    comp_update_same _ _ _ _ working, comp_update_same _ _ _ _ stored]
  rw [Function.comp_update]

theorem bindings_station_working (v : View) (s : Ref) (change : Station → Station)
    (mac : (change (v.stations s)).macAddress = (v.stations s).macAddress)
    (status : (change (v.stations s)).status = (v.stations s).status)
    (stored : (change (v.stations s)).vapContainerSet = (v.stations s).vapContainerSet) :
    bindings (updStation v s change) =
      (bindings v).setWorking s (change (v.stations s)).workingVapContainer := by
  simp only [bindings, updStation, Bindings.setWorking, comp_update_same _ _ _ _ mac,
    comp_update_same _ _ _ _ status, comp_update_same _ _ _ _ stored]
  rw [Function.comp_update]

theorem bindings_station_stored (v : View) (s : Ref) (change : Station → Station)
    (mac : (change (v.stations s)).macAddress = (v.stations s).macAddress)
    (status : (change (v.stations s)).status = (v.stations s).status)
    (working : (change (v.stations s)).workingVapContainer = (v.stations s).workingVapContainer) :
    bindings (updStation v s change) = { bindings v with
      stored := Function.update (bindings v).stored s (change (v.stations s)).vapContainerSet
        } := by
  simp only [bindings, updStation, comp_update_same _ _ _ _ mac,
    comp_update_same _ _ _ _ status, comp_update_same _ _ _ _ working]
  rw [Function.comp_update]

theorem bindings_agent_held (v : View) (a : Ref) (change : Agent → Agent)
    (mac : (change (v.agents a)).macAddress = (v.agents a).macAddress)
    (sc : (change (v.agents a)).sc = (v.agents a).sc) :
    bindings (updAgent v a change) = { bindings v with
      held := Function.update (bindings v).held a (change (v.agents a)).vapContainerSet } := by
  simp only [bindings, updAgent, comp_update_same _ _ _ _ mac, comp_update_same _ _ _ _ sc]
  rw [Function.comp_update]

theorem bindings_agent_sc (v : View) (a : Ref) (change : Agent → Agent)
    (mac : (change (v.agents a)).macAddress = (v.agents a).macAddress)
    (held : (change (v.agents a)).vapContainerSet = (v.agents a).vapContainerSet) :
    bindings (updAgent v a change) = { bindings v with
      agentSc := Function.update (bindings v).agentSc a (change (v.agents a)).sc } := by
  simp only [bindings, updAgent, comp_update_same _ _ _ _ mac, comp_update_same _ _ _ _ held]
  rw [Function.comp_update]

theorem bindings_vap_status (v : View) (c : Ref) (change : VapContainer → VapContainer)
    (agent : (change (v.vaps c)).agent = (v.vaps c).agent)
    (station : (change (v.vaps c)).station = (v.vaps c).station)
    (ssid : (change (v.vaps c)).ssid = (v.vaps c).ssid) :
    bindings (updVap v c change) = (bindings v).setVap c (change (v.vaps c)).status := by
  simp only [bindings, updVap, Bindings.setVap, comp_update_same _ _ _ _ agent,
    comp_update_same _ _ _ _ station, comp_update_same _ _ _ _ ssid]
  rw [Function.comp_update]

section Assignments

variable (v : View)

@[simp] theorem bindings_mirror (write : Redis.Hashes → Redis.Hashes) :
    bindings (mirror v write) = bindings v := rfl

@[simp] theorem bindings_stationHeard (s : Ref) (now : Int) (mode : Option Text) :
    bindings (stationHeard v s now mode) = bindings v :=
  bindings_station_frame v s _ rfl rfl rfl rfl

@[simp] theorem bindings_updateSumTraffic (s : Ref) :
    bindings (updateSumTraffic v s) = bindings v :=
  (bindings_mirror _ _).trans (bindings_station_frame v s _ rfl rfl rfl rfl)

@[simp] theorem bindings_setUpTraffic (s : Ref) (upTraffic : Int64) :
    bindings (setUpTraffic v s upTraffic) = bindings v :=
  (bindings_mirror _ _).trans (bindings_station_frame v s _ rfl rfl rfl rfl)

@[simp] theorem bindings_setDownTraffic (s : Ref) (downTraffic : Int64) :
    bindings (setDownTraffic v s downTraffic) = bindings v :=
  (bindings_mirror _ _).trans (bindings_station_frame v s _ rfl rfl rfl rfl)

@[simp] theorem bindings_addSumTraffic (a : Ref) (upTraffic downTraffic : Int64) :
    bindings (addSumTraffic v a upTraffic downTraffic) = bindings v :=
  bindings_agent_frame v a _ rfl rfl rfl

@[simp] theorem bindings_setLastProbeHeard (c : Ref) (now : Int) :
    bindings (setLastProbeHeard v c now) = bindings v :=
  bindings_vap_frame v c _ rfl rfl rfl rfl

@[simp] theorem bindings_submit (task : Task) : bindings (submit v task) = bindings v := rfl

@[simp] theorem bindings_putSendMsg (sendMsgId : Text) (entry : Option SendMsg) :
    bindings (putSendMsg v sendMsgId entry) = bindings v := rfl

@[simp] theorem bindings_setStationStatus (s : Ref) (status : Status) :
    bindings (setStationStatus v s status) = (bindings v).setStatus s status :=
  (bindings_mirror _ _).trans (bindings_station_status v s _ rfl rfl rfl)

@[simp] theorem bindings_setWorking (s : Ref) (working : Option Ref) :
    bindings (setWorking v s working) = (bindings v).setWorking s working :=
  bindings_station_working v s _ rfl rfl rfl

@[simp] theorem bindings_stationAddVap (s c : Ref) :
    bindings (stationAddVap v s c) = (bindings v).store s c :=
  bindings_station_stored v s _ rfl rfl rfl

@[simp] theorem bindings_stationRemoveVap (s c : Ref) :
    bindings (stationRemoveVap v s c) = (bindings v).drop s c :=
  bindings_station_stored v s _ rfl rfl rfl

@[simp] theorem bindings_agentAddVap (a c : Ref) :
    bindings (agentAddVap v a c) = (bindings v).hold a c := by
  by_cases taken : vapKey v c ∈ (v.agents a).vapContainerSet
  · rw [agentAddVap, if_pos taken]
    exact (if_pos taken).symm
  · rw [agentAddVap, if_neg taken]
    exact (bindings_agent_held v a _ rfl rfl).trans (if_neg taken).symm

@[simp] theorem bindings_agentRemoveVap (a c : Ref) :
    bindings (agentRemoveVap v a c) = (bindings v).release a c := by
  by_cases taken : vapKey v c ∈ (v.agents a).vapContainerSet
  · rw [agentRemoveVap, if_pos taken]
    exact bindings_agent_held v a _ rfl rfl
  · have absent : ((bindings v).held a).erase ((bindings v).key c) = (bindings v).held a :=
      AList.ext (List.kerase_of_notMem_keys taken)
    rw [agentRemoveVap, if_neg taken, Bindings.release, absent, Function.update_eq_self]

@[simp] theorem bindings_setVapStatus (c : Ref) (status : Status) :
    bindings (setVapStatus v c status) = (bindings v).setVap c status := by
  have counted (change : Agent → Agent) (frame : ∀ agent,
      (change agent).macAddress = agent.macAddress ∧
      (change agent).sc = agent.sc ∧ (change agent).vapContainerSet = agent.vapContainerSet) :
      bindings (updVap (updAgent v (v.vaps c).agent change) c
        fun vap => { vap with status := status }) = (bindings v).setVap c status := by
    rw [bindings_vap_status _ _ _ rfl rfl rfl,
      bindings_agent_frame _ _ _ (frame _).1 (frame _).2.1 (frame _).2.2]
  cases before : (v.vaps c).status <;> cases status <;> simp only [setVapStatus, before]
  · exact bindings_vap_status v c _ rfl rfl rfl
  · exact counted _ fun _ => ⟨rfl, rfl, rfl⟩
  · exact counted _ fun _ => ⟨rfl, rfl, rfl⟩
  · exact bindings_vap_status v c _ rfl rfl rfl

@[simp] theorem bindings_newVapContainer (s a : Ref) (ssid : Text) :
    bindings (newVapContainer v s a ssid) = (bindings v).create s a ssid := by
  simp only [bindings, newVapContainer, Function.comp_update]
  rfl

end Assignments

end LazyAS.VapBindings

import LazyAS.BindingLaws
import LazyAS.Runs

/-! Who is who: the addresses of stations and agents, the tables that find them by address and
the queue of commands that wait. An object keeps its address for good, a table finds only
objects with the address it is asked for, and the queue holds plain add commands. -/
namespace LazyAS.Directory
open WireText ControllerView Master
open VapBindings (comp_update_same)
open BindingLaws (lookup_erase_some)

structure Names where
  stationMac : Ref → Text
  agentMac : Ref → Text
  agentSc : Ref → Option Ref
  nextStation : Ref
  nextAgent : Ref
  stationMap : Table
  agentMap : Text → Option Ref
  cmdQueue : AList fun _ : Text => AppCmd

def names (v : View) : Names where
  stationMac := Station.macAddress ∘ v.stations
  agentMac := Agent.macAddress ∘ v.agents
  agentSc := Agent.sc ∘ v.agents
  nextStation := v.nextStation
  nextAgent := v.nextAgent
  stationMap := v.stationMap
  agentMap := v.agentMap
  cmdQueue := v.cmdQueue

structure Named (n : Names) : Prop where
  tracked : ∀ mac s, n.stationMap.lookup mac = some s → s < n.nextStation ∧ n.stationMac s = mac
  registered : ∀ mac a, n.agentMap mac = some a → a < n.nextAgent ∧ n.agentMac a = mac
  connected : ∀ a sc, n.agentSc a = some sc → a < n.nextAgent
  waiting : ∀ key cmd, n.cmdQueue.lookup key = some cmd → cmd.message.msgType = .addVap

/-- Known objects keep their addresses; what a table finds, it found before or is named so. -/
structure Extends (n n' : Names) : Prop where
  stations : ∀ s, s < n.nextStation → n'.stationMac s = n.stationMac s
  agents : ∀ a, a < n.nextAgent → n'.agentMac a = n.agentMac a
  nextStation : n.nextStation ≤ n'.nextStation
  nextAgent : n.nextAgent ≤ n'.nextAgent
  tracked : ∀ mac s, n'.stationMap.lookup mac = some s →
    n.stationMap.lookup mac = some s ∨ s < n'.nextStation ∧ n'.stationMac s = mac
  registered : ∀ mac a, n'.agentMap mac = some a →
    n.agentMap mac = some a ∨ a < n'.nextAgent ∧ n'.agentMac a = mac
  connected : ∀ a sc, n'.agentSc a = some sc → n.agentSc a = some sc ∨ a < n'.nextAgent
  waiting : ∀ key cmd, n'.cmdQueue.lookup key = some cmd →
    n.cmdQueue.lookup key = some cmd ∨ cmd.message.msgType = .addVap

theorem Extends.refl (n : Names) : Extends n n :=
  ⟨fun _ _ => rfl, fun _ _ => rfl, Nat.le_refl _,
    Nat.le_refl _, fun _ _ h => .inl h, fun _ _ h => .inl h,
    fun _ _ h => .inl h, fun _ _ h => .inl h⟩

theorem Extends.trans {n n' n'' : Names} (first : Extends n n') (second : Extends n' n'') :
    Extends n n'' where
  stations := fun s old =>
    (second.stations s (Nat.lt_of_lt_of_le old first.nextStation)).trans (first.stations s old)
  agents := fun a old =>
    (second.agents a (Nat.lt_of_lt_of_le old first.nextAgent)).trans (first.agents a old)
  nextStation := Nat.le_trans first.nextStation second.nextStation
  nextAgent := Nat.le_trans first.nextAgent second.nextAgent
  tracked := by
    intro mac s found
    rcases second.tracked mac s found with before | new
    -- a station that the first step named keeps its address in the second
    · rcases first.tracked mac s before with old | ⟨known, named⟩
      · exact .inl old
      · exact .inr ⟨Nat.lt_of_lt_of_le known second.nextStation,
          (second.stations s known).trans named⟩
    · exact .inr new
  registered := by
    intro mac a found
    rcases second.registered mac a found with before | new
    · rcases first.registered mac a before with old | ⟨known, named⟩
      · exact .inl old
      · exact .inr ⟨Nat.lt_of_lt_of_le known second.nextAgent, (second.agents a known).trans named⟩
    · exact .inr new
  connected := by
    intro a sc found
    rcases second.connected a sc found with before | new
    · exact (first.connected a sc before).imp_right fun old =>
        Nat.lt_of_lt_of_le old second.nextAgent
    · exact .inr new
  waiting := by
    intro key cmd found
    rcases second.waiting key cmd found with before | new
    · exact first.waiting key cmd before
    · exact .inr new

theorem Extends.named {n n' : Names} (more : Extends n n') (named : Named n) : Named n' where
  tracked := by
    intro mac s found
    rcases more.tracked mac s found with before | new
    · obtain ⟨known, same⟩ := named.tracked mac s before
      exact ⟨Nat.lt_of_lt_of_le known more.nextStation, (more.stations s known).trans same⟩
    · exact new
  registered := by
    intro mac a found
    rcases more.registered mac a found with before | new
    · obtain ⟨known, same⟩ := named.registered mac a before
      exact ⟨Nat.lt_of_lt_of_le known more.nextAgent, (more.agents a known).trans same⟩
    · exact new
  connected := by
    intro a sc found
    rcases more.connected a sc found with before | new
    · exact Nat.lt_of_lt_of_le (named.connected a sc before) more.nextAgent
    · exact new
  waiting := by
    intro key cmd found
    rcases more.waiting key cmd found with before | new
    · exact named.waiting key cmd before
    · exact new

/-! The ways names change. -/

theorem Extends.forget (n : Names) (mac : Text) :
    Extends n { n with agentMap := Function.update n.agentMap mac none } :=
  { Extends.refl n with
    registered := by
      intro other a found
      by_cases same : other = mac
      · subst same
        simp at found
      · exact .inl (by simpa [same] using found) }

theorem Extends.newAgent (n : Names) (mac : Text) (sc : Ref) :
    Extends n { n with
      agentMac := Function.update n.agentMac n.nextAgent mac
      agentSc := Function.update n.agentSc n.nextAgent (some sc)
      nextAgent := n.nextAgent + 1 } :=
  { Extends.refl n with
    agents := fun _ old => Function.update_of_ne (Nat.ne_of_lt old) _ _
    nextAgent := Nat.le_succ _
    registered := fun _ _ found => .inl found
    connected := by
      intro a other found
      by_cases same : a = n.nextAgent
      · exact .inr (same ▸ Nat.lt_succ_self _)
      · exact .inl (by simpa [same] using found) }

theorem Extends.register (n : Names) (a : Ref) (known : a < n.nextAgent) :
    Extends n { n with agentMap := Function.update n.agentMap (n.agentMac a) (some a) } :=
  { Extends.refl n with
    registered := by
      intro mac b found
      by_cases same : mac = n.agentMac a
      · subst same
        simp only [Function.update_self, Option.some.injEq] at found
        exact .inr ⟨found ▸ known, by rw [found]⟩
      · exact .inl (by simpa [same] using found) }

theorem Extends.newStation (n : Names) (mac : Text) :
    Extends n { n with
      stationMac := Function.update n.stationMac n.nextStation mac
      nextStation := n.nextStation + 1 } :=
  { Extends.refl n with
    stations := fun _ old => Function.update_of_ne (Nat.ne_of_lt old) _ _
    nextStation := Nat.le_succ _
    tracked := fun _ _ found => .inl found }

theorem Extends.track (n : Names) (s : Ref) (known : s < n.nextStation) :
    Extends n { n with stationMap := n.stationMap.insert (n.stationMac s) s } :=
  { Extends.refl n with
    tracked := by
      intro mac t found
      by_cases same : mac = n.stationMac s
      · subst same
        simp only [AList.lookup_insert, Option.some.injEq] at found
        exact .inr ⟨found ▸ known, by rw [found]⟩
      · exact .inl (by simpa [AList.lookup_insert_ne same] using found) }

theorem Extends.untrack (n : Names) (mac : Text) :
    Extends n { n with stationMap := n.stationMap.erase mac } :=
  { Extends.refl n with
    tracked := fun _ _ found => .inl (lookup_erase_some found) }

theorem Extends.queue (n : Names) (key : Text) (cmd : AppCmd)
    (plain : cmd.message.msgType = .addVap) :
    Extends n { n with cmdQueue := n.cmdQueue.insert key cmd } :=
  { Extends.refl n with
    waiting := by
      intro other later found
      by_cases same : other = key
      · subst same
        simp only [AList.lookup_insert, Option.some.injEq] at found
        exact .inr (found ▸ plain)
      · exact .inl (by simpa [AList.lookup_insert_ne same] using found) }

theorem Extends.dequeue (n : Names) (key : Text) :
    Extends n { n with cmdQueue := n.cmdQueue.erase key } :=
  { Extends.refl n with
    waiting := by
      intro other cmd found
      by_cases same : other = key
      · subst same
        simp at found
      · exact .inl (by simpa [AList.lookup_erase_ne same] using found) }

/-- The names of the second view extend those of the first. -/
def Keeps (v w : View) : Prop := Extends (names v) (names w)

theorem Keeps.of_eq {v w : View} (same : names w = names v) : Keeps v w := by
  rw [Keeps, same]
  exact .refl _

theorem Keeps.trans {v w x : View} (first : Keeps v w) (second : Keeps w x) : Keeps v x :=
  Extends.trans first second

theorem Keeps.foldl {Item : Type} (v : View) (body : View → Item → View)
    (each : ∀ w item, Keeps w (body w item)) (items : List Item) : Keeps v (items.foldl body v) :=
  Runs.foldl_within Keeps (fun _ => .of_eq rfl) Keeps.trans body each items v

theorem Keeps.whileFine (v : View) (body : View → Ref → View × Bool)
    (each : ∀ w item, Keeps w (body w item).1) (items : List Ref) :
    Keeps v (whileFine body v items).1 :=
  whileFine_within Keeps (fun _ => .of_eq rfl) Keeps.trans body each items v

section Assignments

variable (v : View)

theorem names_agent_frame (a : Ref) (change : Agent → Agent)
    (mac : (change (v.agents a)).macAddress = (v.agents a).macAddress)
    (sc : (change (v.agents a)).sc = (v.agents a).sc) : names (updAgent v a change) = names v := by
  simp only [names, updAgent, comp_update_same _ _ _ _ mac, comp_update_same _ _ _ _ sc]

theorem names_station_frame (s : Ref) (change : Station → Station)
    (mac : (change (v.stations s)).macAddress = (v.stations s).macAddress) :
    names (updStation v s change) = names v := by
  simp only [names, updStation, comp_update_same _ _ _ _ mac]

@[simp] theorem names_mirror (write : Redis.Hashes → Redis.Hashes) :
    names (mirror v write) = names v := rfl

@[simp] theorem names_updVap (c : Ref) (change : VapContainer → VapContainer) :
    names (updVap v c change) = names v := rfl

@[simp] theorem names_newVapContainer (s a : Ref) (ssid : Text) :
    names (newVapContainer v s a ssid) = names v := rfl

@[simp] theorem names_setLastProbeHeard (c : Ref) (now : Int) :
    names (setLastProbeHeard v c now) = names v := rfl

@[simp] theorem names_submit (task : Task) : names (submit v task) = names v := rfl

@[simp] theorem names_putSendMsg (sendMsgId : Text) (entry : Option SendMsg) :
    names (putSendMsg v sendMsgId entry) = names v := rfl

@[simp] theorem names_setStationStatus (s : Ref) (status : Status) :
    names (setStationStatus v s status) = names v :=
  (names_mirror _ _).trans (names_station_frame v s _ rfl)

@[simp] theorem names_setWorking (s : Ref) (working : Option Ref) :
    names (setWorking v s working) = names v := names_station_frame v s _ rfl

@[simp] theorem names_stationHeard (s : Ref) (now : Int) (mode : Option Text) :
    names (stationHeard v s now mode) = names v := names_station_frame v s _ rfl

@[simp] theorem names_updateSumTraffic (s : Ref) : names (updateSumTraffic v s) = names v :=
  (names_mirror _ _).trans (names_station_frame v s _ rfl)

@[simp] theorem names_setUpTraffic (s : Ref) (upTraffic : Int64) :
    names (setUpTraffic v s upTraffic) = names v :=
  (names_mirror _ _).trans (names_station_frame v s _ rfl)

@[simp] theorem names_setDownTraffic (s : Ref) (downTraffic : Int64) :
    names (setDownTraffic v s downTraffic) = names v :=
  (names_mirror _ _).trans (names_station_frame v s _ rfl)

@[simp] theorem names_stationAddVap (s c : Ref) : names (stationAddVap v s c) = names v :=
  names_station_frame v s _ rfl

@[simp] theorem names_stationRemoveVap (s c : Ref) : names (stationRemoveVap v s c) = names v :=
  names_station_frame v s _ rfl

@[simp] theorem names_setVapStatus (c : Ref) (status : Status) :
    names (setVapStatus v c status) = names v := by
  unfold setVapStatus
  simp only [names_updVap]
  split
  · exact names_agent_frame v _ _ rfl rfl
  · exact names_agent_frame v _ _ rfl rfl
  · rfl

@[simp] theorem names_agentAddVap (a c : Ref) : names (agentAddVap v a c) = names v := by
  unfold agentAddVap
  split
  · rfl
  · exact names_agent_frame v a _ rfl rfl

@[simp] theorem names_agentRemoveVap (a c : Ref) : names (agentRemoveVap v a c) = names v := by
  unfold agentRemoveVap
  split
  · exact names_agent_frame v a _ rfl rfl
  · rfl

@[simp] theorem names_bringOnline (now : Int) (s c : Ref) :
    names (bringOnline v now s c) = names v := by
  simp [bringOnline]

@[simp] theorem names_resetVap (a c : Ref) : names (resetVap v a c) = names v := by
  unfold resetVap
  simp only [names_agentRemoveVap]
  split
  · split
    · simp
    · simp
  · rfl

end Assignments

section Handlers

variable (v : View) (now : Int) (order : Order)

theorem reset_keeps (a : Ref) : Keeps v (reset v order a) := by
  have emptied : Keeps v (clearVaps v order a) :=
    .foldl v _ (fun w c => .of_eq (names_resetVap w a c)) _
  refine emptied.trans ?_
  unfold reset
  generalize clearVaps v order a = w
  have mac : Agent.macAddress ∘ Function.update w.agents a { w.agents a with
      lastHeard := 0, sc := none } =
      Agent.macAddress ∘ w.agents := comp_update_same _ _ _ _ rfl
  exact { Extends.refl (names w) with
    agents := fun b _ => congrFun mac b
    registered := fun mac' b found => .inl found
    connected := by
      intro b sc found
      simp only [names, updAgent, Function.comp_update] at found
      by_cases same : b = a
      · subst same
        simp at found
      · exact .inl (by simpa [names, same] using found) }

theorem closeSocket_keeps (sc : Ref) : Keeps v (closeSocket v order sc) := by
  unfold closeSocket
  split
  · dsimp only
    cases v.sc2AgentMap sc with
    | none => exact .of_eq rfl
    | some a =>
        have emptied := reset_keeps { v with socketMap := Function.update v.socketMap sc false }
            order a
        exact Keeps.trans emptied (Extends.forget _ _)
  · exact .of_eq rfl

theorem delVapContainer_keeps (roamType : Option RoamType) (a s : Ref) (ssid : Text) :
    Keeps v (delVapContainer v now order roamType a s ssid) := by
  unfold delVapContainer
  split
  · exact .of_eq rfl
  · split
    · split
      · split
        · exact .of_eq rfl
        · exact .of_eq rfl
      · exact closeSocket_keeps v order _
    · exact .of_eq rfl

theorem excuteAddVap_keeps (isRoam : Bool) (message : StationCtrlMessage) :
    Keeps v (excuteAddVap v now order isRoam message).1 := by
  unfold excuteAddVap
  dsimp only
  split
  · exact .of_eq rfl
  · split
    · split
      · exact .of_eq rfl
      · split
        · split
          · exact .of_eq rfl
          · exact .of_eq rfl
          · split
            · exact .of_eq rfl
            · exact .of_eq (by simp [createVap])
        · exact closeSocket_keeps v order _
    · exact .of_eq rfl

theorem addVapContainer_keeps (isNoForceRoam : Bool) (a : Ref) (staMacAddress mode ssid : Text) :
    Keeps v (addVapContainer v now order isNoForceRoam a staMacAddress mode ssid) := by
  unfold addVapContainer
  dsimp only
  split
  · exact excuteAddVap_keeps v now order true _
  · split
    · exact Extends.queue _ _ _ rfl
    · split
      · split
        · exact .of_eq rfl
        · exact Extends.queue _ _ _ rfl
      · exact .of_eq rfl

theorem cancelTask_keeps (message : StationCtrlMessage) :
    Keeps v (cancelTask v now order message) := by
  unfold cancelTask
  simp only [agentSetContains]
  split
  · exact .of_eq rfl
  · split
    · split
      · split <;> exact .of_eq rfl
      · split <;> exact .of_eq rfl
      · split
        · exact closeSocket_keeps v order _
        · exact .of_eq rfl
      · exact .of_eq rfl
    · exact .of_eq rfl

theorem registerAgent_keeps (sc : Ref) (agentMacAddr : Text) :
    Keeps v (registerAgent v now sc agentMacAddr) := by
  have created : Extends (names v) (names { v with
      agents := Function.update v.agents v.nextAgent
        { macAddress := agentMacAddr, sc := some sc, lastHeard := now }
      nextAgent := v.nextAgent + 1 }) := by
    simpa only [names, Function.comp_update] using Extends.newAgent (names v) agentMacAddr sc
  unfold registerAgent
  dsimp only
  split
  · refine created.trans ?_
    have registered := Extends.register (names { v with
      agents := Function.update v.agents v.nextAgent
        { macAddress := agentMacAddr, sc := some sc, lastHeard := now }
      nextAgent := v.nextAgent + 1 }) v.nextAgent (Nat.lt_succ_self _)
    simp only [names, Function.comp_apply, Function.update_self] at registered
    exact registered
  · exact created

theorem processMsgLocalMac_keeps (sc : Ref) (message : Text) :
    Keeps v (processMsgLocalMac v now order sc message) := by
  have closes (closed : View) (mac : Text) (kept : Keeps v closed) :
      Keeps v (if closed.isOpen sc then registerAgent closed now sc mac else closed) := by
    split
    · exact kept.trans (registerAgent_keeps closed now sc mac)
    · exact kept
  unfold processMsgLocalMac
  split
  · exact .of_eq rfl
  · apply closes
    split
    · exact .of_eq rfl
    · split
      · exact .of_eq rfl
      · split
        · exact closeSocket_keeps v order _
        · exact .of_eq rfl

theorem processMsgHeartBeat_names (sc : Ref) (message : Text) (written : Bool) :
    names (processMsgHeartBeat v now sc message written) = names v := by
  unfold processMsgHeartBeat
  split
  · rfl
  · rename_i a _
    have heard := names_agent_frame v a (fun agent => { agent with lastHeartBeat := now }) rfl rfl
    dsimp only
    split
    · exact heard
    · exact heard

theorem newStationKnown_names (s a : Ref) (ssid : Text) :
    names (newStationKnown v now s a ssid).1 = names v := by
  unfold newStationKnown
  dsimp only
  split
  · split
    · simp
    · split
      · simp
      · split
        · simp
        · simp
  · split
    · split <;> simp
    · split <;> simp

theorem newStation_keeps (station : Station) :
    Keeps v { v with
      stations := Function.update v.stations v.nextStation station
      nextStation := v.nextStation + 1
      stationMap := v.stationMap.insert station.macAddress v.nextStation } := by
  have created : Extends (names v) (names { v with
      stations := Function.update v.stations v.nextStation station
      nextStation := v.nextStation + 1 }) := by
    simpa only [names, Function.comp_update] using Extends.newStation (names v) station.macAddress
  have tracked := Extends.track (names { v with
      stations := Function.update v.stations v.nextStation station
      nextStation := v.nextStation + 1 }) v.nextStation (Nat.lt_succ_self _)
  simp only [names, Function.comp_apply, Function.update_self] at tracked
  exact created.trans tracked

theorem createStation_keeps (a : Ref) (staMacAddr ssid : Text) :
    Keeps v (createStation v now a staMacAddr ssid) := by
  let created : View := { v with
    stations := Function.update v.stations v.nextStation
      { macAddress := staMacAddr, status := .onLine }
    nextStation := v.nextStation + 1 }
  have stored : names (agentAddVap
      (stationAddVap (bringOnline (newVapContainer created v.nextStation a ssid)
      now v.nextStation v.nextVap) v.nextStation v.nextVap) a v.nextVap) = names created := by
    simp
  have result : names (createStation v now a staMacAddr ssid) =
      { names created with
          stationMap := (names created).stationMap.insert staMacAddr v.nextStation } := by
    rw [← stored]
    rfl
  rw [Keeps, result]
  exact newStation_keeps v { macAddress := staMacAddr, status := .onLine }

theorem newStationLink_names (s a : Ref) (ssid : Text) :
    names (newStationLink v now s a ssid) = names v := by
  unfold newStationLink
  simp only [names_stationHeard]
  split
  · rfl
  · split <;> simp

theorem admitStation_keeps (a : Ref) (staMacAddr ssid : Text) :
    Keeps v (admitStation v now a staMacAddr ssid).1.1 := by
  unfold admitStation
  split
  · exact (createStation_keeps v now a staMacAddr ssid).trans
      (.of_eq (newStationLink_names _ now _ a ssid))
  · split
    · exact .of_eq (newStationKnown_names v now _ a ssid)
    · exact .of_eq (newStationLink_names v now _ a ssid)

theorem processMsgNewStation_keeps (sc : Ref) (message : Text) :
    Keeps v (processMsgNewStation v now order sc message) := by
  unfold processMsgNewStation
  split
  · split
    · exact .of_eq rfl
    · rename_i a _ staMacAddr _ _ _ _ ssid _
      have admitted := admitStation_keeps v now a staMacAddr ssid
      dsimp only
      split
      · refine admitted.trans (Keeps.foldl _ _ ?_ _)
        intro w c
        split
        · exact delVapContainer_keeps w now order _ _ _ _
        · exact .of_eq rfl
      · exact admitted
  · exact .of_eq rfl

theorem processMsgDelStation_names (sc : Ref) (message : Text) :
    names (processMsgDelStation v now order sc message) = names v := by
  unfold processMsgDelStation
  split
  · split
    · split
      · rfl
      · unfold leaveVap
        simp only [names_setLastProbeHeard]
        split
        · split <;> simp
        · split <;> simp
    · rfl
  · rfl

theorem processMsgFlowInfo_names (sc : Ref) (message : Text) :
    names (processMsgFlowInfo v sc message) = names v := by
  rw [processMsgFlowInfo_eq]
  split
  · rfl
  · rename_i s a upTraffic downTraffic _
    unfold countTraffic
    rw [names_setUpTraffic, names_setDownTraffic]
    split
    · rw [names_updateSumTraffic]
      exact names_agent_frame _ _ _ rfl rfl
    · exact names_agent_frame _ _ _ rfl rfl

theorem probeStation_keeps (staMacAddr : Text) : Keeps v (probeStation v staMacAddr).1 := by
  unfold probeStation
  split
  · exact .of_eq rfl
  · exact newStation_keeps v { macAddress := staMacAddr, status := .offLine }

theorem processMsgProbeInfo_keeps (sc : Ref) (message : Text) :
    Keeps v (processMsgProbeInfo v now order sc message) := by
  unfold processMsgProbeInfo
  split
  · rename_i probe _ _
    have seen := probeStation_keeps v probe.staMacAddr
    dsimp only
    split
    · split
      · exact seen
      · refine seen.trans ((Keeps.of_eq (names_stationHeard _ _ now _)).trans
          (Keeps.foldl _ _ ?_ _))
        intro w ssid
        split <;> exact .of_eq rfl
    · exact seen
  · exact .of_eq rfl

theorem processMsgInterfaceNum_names (sc : Ref) (message : Text) :
    names (processMsgInterfaceNum v sc message) = names v := by
  unfold processMsgInterfaceNum
  split
  · rw [informAgent, names_mirror]
    exact names_agent_frame v _ _ rfl rfl
  · rfl

theorem acknowledgeDel_names (a s : Ref) (ssid : Text) :
    names (acknowledgeDel v now a s ssid) = names v := by
  have removed (w : View) (c : Ref) (same : names w = names v) :
      names (if (w.agentMap (w.agents a).macAddress).isSome ∧ agentStatus w a now = .onLine then
        stationRemoveVap (agentRemoveVap w a c) s c else w) = names v := by
    split
    · simpa using same
    · exact same
  unfold acknowledgeDel
  split
  · split
    · rfl
    · dsimp only
      split
      · split
        · simp
        · split
          · simp
          · exact removed _ _ (by simp)
      · split
        · exact removed _ _ (by simp)
        · exact removed _ _ rfl
  · rfl

theorem processMsgOk_keeps (sc : Ref) (message : Text) :
    Keeps v (processMsgOk v now order sc message) := by
  unfold processMsgOk
  split
  · dsimp only
    split
    · exact .of_eq rfl
    · split
      · split
        · split
          · exact .of_eq rfl
          · exact delVapContainer_keeps (putSendMsg v _ _) now order _ _ _ _
        · exact .of_eq rfl
      · split
        · exact .of_eq rfl
        · exact .of_eq ((acknowledgeDel_names _ now _ _ _).trans rfl)
      · exact .of_eq rfl
      · exact .of_eq rfl
  · exact .of_eq rfl

theorem processMsgErr_names (sc : Ref) (message : Text) :
    names (processMsgErr v sc message) = names v := by
  unfold processMsgErr
  split
  · dsimp only
    split <;> rfl
  · rfl

theorem dropVap_keeps (s c : Ref) : Keeps v (dropVap v now order s c) := by
  unfold dropVap
  refine (delVapContainer_keeps v now order none (v.vaps c).agent s (v.vaps c).ssid).trans
    (.of_eq ?_)
  simp

theorem ageVap_keeps (s c : Ref) : Keeps v (ageVap v now order s c).1 := by
  unfold ageVap
  dsimp only
  split
  · split
    · exact .of_eq rfl
    · split
      · exact dropVap_keeps v now order s c
      · split
        · split
          · exact .of_eq rfl
          · split
            · split
              · exact dropVap_keeps v now order s c
              · exact .of_eq rfl
            · exact .of_eq rfl
        · exact .of_eq rfl
  · exact .of_eq rfl

theorem ageStation_keeps (s : Ref) : Keeps v (ageStation v now order s).1 := by
  unfold ageStation
  split
  · exact .of_eq rfl
  · split
    · split
      · refine Keeps.foldl v _ ?_ _
        intro w c
        split
        · exact dropVap_keeps w now order s c
        · exact .of_eq rfl
      · exact Extends.untrack _ _
    · exact Keeps.whileFine v _ (fun w c => ageVap_keeps w now order s c) _

theorem cmdTask_keeps (key : Text) : Keeps v (cmdTask v now order key) := by
  unfold cmdTask
  split
  · exact .of_eq rfl
  · split
    · split
      · have executed := excuteAddVap_keeps v now order false
        dsimp only
        split
        · exact (executed _).trans (Extends.dequeue _ _)
        · exact (executed _).trans (.of_eq rfl)
      · exact Extends.dequeue _ _
    · exact .of_eq rfl

theorem checkSendMsg_keeps (sendMsgId : Text) : Keeps v (checkSendMsg v now order sendMsgId) := by
  unfold checkSendMsg
  split
  · exact .of_eq rfl
  · split
    · exact .of_eq rfl
    · exact cancelTask_keeps v now order _
    · exact cancelTask_keeps v now order _

theorem sendCommand_keeps (a : Ref) (frame : Text → Text) (message : StationCtrlMessage)
    (written : Bool) :
    Keeps v (sendCommand v now order a frame message written) := by
  have numbered : Keeps v (updAgent v a fun agent => { agent with
      currentId := nextId (v.agents a) }) :=
    .of_eq (names_agent_frame v a _ rfl rfl)
  -- taking an id renames nobody; the rest of the task is a write or a cancellation
  refine numbered.trans ?_
  unfold sendCommand
  dsimp only
  split
  · exact cancelTask_keeps _ now order message
  · split
    · split
      · split <;> exact .of_eq rfl
      · exact cancelTask_keeps _ now order message
    · split
      · exact cancelTask_keeps _ now order message
      · exact .of_eq rfl

theorem runTask_keeps (task : Task) (written : Bool) :
    Keeps v (runTask v now order task written) := by
  cases task with
  | add a s message =>
      rw [runTask]
      exact sendCommand_keeps v now order a _ message written
  | del roamType a s ssid =>
      rw [runTask]
      exact sendCommand_keeps v now order a _ _ written
  | putSendMsg sendMsgId message => exact .of_eq rfl
  | schedule sendMsgId => exact .of_eq rfl

theorem step_keeps (op : Op) : Keeps v (step v now order op) := by
  cases op with
  | accept => exact .of_eq rfl
  | heard sc =>
      refine .of_eq ?_
      simp only [step, updateAgentHeard]
      split
      · rfl
      · exact names_agent_frame v _ _ rfl rfl
  | localMac sc message => exact processMsgLocalMac_keeps v now order sc message
  | heartBeat sc message written =>
      exact .of_eq (processMsgHeartBeat_names v now sc message written)
  | newStation sc message => exact processMsgNewStation_keeps v now order sc message
  | delStation sc message => exact .of_eq (processMsgDelStation_names v now order sc message)
  | flowInfo sc message => exact .of_eq (processMsgFlowInfo_names v sc message)
  | probeInfo sc message => exact processMsgProbeInfo_keeps v now order sc message
  | interfaceNum sc message => exact .of_eq (processMsgInterfaceNum_names v sc message)
  | ok sc message => exact processMsgOk_keeps v now order sc message
  | err sc message => exact .of_eq (processMsgErr_names v sc message)
  | closeSocket sc => exact closeSocket_keeps v order sc
  | addVap isRoam message => exact excuteAddVap_keeps v now order isRoam message
  | queueVap a staMacAddress mode ssid =>
      exact addVapContainer_keeps v now order false a staMacAddress mode ssid
  | delVap roamType a s ssid => exact delVapContainer_keeps v now order roamType a s ssid
  | cancel message => exact cancelTask_keeps v now order message
  | age => exact Keeps.whileFine v _ (fun w s => ageStation_keeps w now order s) _
  | cmd key => exact cmdTask_keeps v now order key
  | task index written =>
      simp only [step]
      split
      · exact .of_eq rfl
      · exact runTask_keeps { v with tasks := v.tasks.eraseIdx index } now order _ written
  | check index =>
      simp only [step]
      split
      · exact .of_eq rfl
      · exact checkSendMsg_keeps { v with checks := v.checks.eraseIdx index } now order _

end Handlers

end LazyAS.Directory

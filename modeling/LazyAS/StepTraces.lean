import LazyAS.Directory

/-! What few operations leave a trace in: the counters of the agents, which only commands move,
and the messages for the applications, which only two reports publish. -/
namespace LazyAS.StepTraces
open WireText ControllerView Master
open VapBindings (comp_update_same)

def ids (v : View) : Ref → Nat := Agent.currentId ∘ v.agents

def traces (v : View) : (Ref → Nat) × List Published := (ids v, v.published)

section Assignments

variable (v : View)

theorem traces_agent_frame (a : Ref) (change : Agent → Agent)
    (kept : (change (v.agents a)).currentId = (v.agents a).currentId) :
    traces (updAgent v a change) = traces v :=
  congrArg (fun counters => (counters, v.published))
    (comp_update_same Agent.currentId v.agents a _ kept)

@[simp] theorem traces_mirror (write : Redis.Hashes → Redis.Hashes) :
    traces (mirror v write) = traces v := rfl

@[simp] theorem traces_updStation (s : Ref) (change : Station → Station) :
    traces (updStation v s change) = traces v := rfl

@[simp] theorem traces_updVap (c : Ref) (change : VapContainer → VapContainer) :
    traces (updVap v c change) = traces v := rfl

@[simp] theorem traces_newVapContainer (s a : Ref) (ssid : Text) :
    traces (newVapContainer v s a ssid) = traces v := rfl

@[simp] theorem traces_setLastProbeHeard (c : Ref) (now : Int) :
    traces (setLastProbeHeard v c now) = traces v := rfl

@[simp] theorem traces_setStationStatus (s : Ref) (status : Status) :
    traces (setStationStatus v s status) = traces v := rfl

@[simp] theorem traces_setWorking (s : Ref) (working : Option Ref) :
    traces (setWorking v s working) = traces v := rfl

@[simp] theorem traces_stationHeard (s : Ref) (now : Int) (mode : Option Text) :
    traces (stationHeard v s now mode) = traces v := rfl

@[simp] theorem traces_updateSumTraffic (s : Ref) : traces (updateSumTraffic v s) = traces v := rfl

@[simp] theorem traces_stationAddVap (s c : Ref) : traces (stationAddVap v s c) = traces v := rfl

@[simp] theorem traces_stationRemoveVap (s c : Ref) : traces (stationRemoveVap v s c) = traces v :=
  rfl

@[simp] theorem traces_setVapStatus (c : Ref) (status : Status) :
    traces (setVapStatus v c status) = traces v := by
  unfold setVapStatus
  simp only [traces_updVap]
  split
  · exact traces_agent_frame v _ _ rfl
  · exact traces_agent_frame v _ _ rfl
  · rfl

@[simp] theorem traces_agentAddVap (a c : Ref) : traces (agentAddVap v a c) = traces v := by
  unfold agentAddVap
  split
  · rfl
  · exact traces_agent_frame v a _ rfl

@[simp] theorem traces_agentRemoveVap (a c : Ref) : traces (agentRemoveVap v a c) = traces v := by
  unfold agentRemoveVap
  split
  · exact traces_agent_frame v a _ rfl
  · rfl

@[simp] theorem traces_bringOnline (now : Int) (s c : Ref) :
    traces (bringOnline v now s c) = traces v := by
  simp [bringOnline]

@[simp] theorem traces_resetVap (a c : Ref) : traces (resetVap v a c) = traces v := by
  unfold resetVap
  simp only [traces_agentRemoveVap]
  split
  · split
    · simp
    · simp
  · rfl

theorem traces_foldl {Item : Type} (body : View → Item → View)
    (each : ∀ w item, traces (body w item) = traces w) (items : List Item) :
    traces (items.foldl body v) = traces v :=
  Runs.foldl_within (fun v w => traces w = traces v) (fun _ => rfl)
    (fun first second => second.trans first) body
    each items v

theorem traces_whileFine (body : View → Ref → View × Bool)
    (each : ∀ w item, traces (body w item).1 = traces w) (items : List Ref) :
    traces (whileFine body v items).1 = traces v :=
  whileFine_within (fun v w => traces w = traces v) (fun _ => rfl)
    (fun first second => second.trans first) body
    each items v

@[simp] theorem traces_closeSocket (order : Order) (sc : Ref) :
    traces (closeSocket v order sc) = traces v := by
  unfold closeSocket
  split
  · dsimp only
    cases v.sc2AgentMap sc with
    | none => rfl
    | some a =>
        have emptied : traces (clearVaps { v with
            socketMap := Function.update v.socketMap sc false } order a) =
            traces v := traces_foldl _ _ (fun w c => traces_resetVap w a c) _
        exact (traces_agent_frame _ a (fun agent => { agent with lastHeard := 0, sc := none })
          rfl).trans emptied
  · rfl

end Assignments

section Handlers

variable (v : View) (now : Int) (order : Order)

@[simp] theorem traces_delVapContainer (roamType : Option RoamType) (a s : Ref) (ssid : Text) :
    traces (delVapContainer v now order roamType a s ssid) = traces v := by
  unfold delVapContainer
  split
  · rfl
  · split
    · split
      · split <;> rfl
      · exact traces_closeSocket v order _
    · rfl

theorem traces_excuteAddVap (isRoam : Bool) (message : StationCtrlMessage) :
    traces (excuteAddVap v now order isRoam message).1 = traces v := by
  have created (s a : Ref) (ssid : Text) : traces (createVap v now s a ssid) = traces v := by
    simp [createVap]
  unfold excuteAddVap
  dsimp only
  split
  · rfl
  · split
    · split
      · rfl
      · split
        · split
          · rfl
          · rfl
          · split
            · rfl
            · exact created _ _ _
        · exact traces_closeSocket v order _
    · rfl

theorem traces_addVapContainer (isNoForceRoam : Bool) (a : Ref) (staMacAddress mode ssid : Text) :
    traces (addVapContainer v now order isNoForceRoam a staMacAddress mode ssid) = traces v := by
  unfold addVapContainer
  dsimp only
  split
  · exact traces_excuteAddVap v now order true _
  · split
    · rfl
    · split
      · split <;> rfl
      · rfl

theorem traces_cancelTask (message : StationCtrlMessage) :
    traces (cancelTask v now order message) = traces v := by
  unfold cancelTask
  simp only [agentSetContains]
  split
  · rfl
  · split
    · split
      · split <;> rfl
      · split <;> rfl
      · split
        · exact traces_closeSocket v order _
        · rfl
      · rfl
    · rfl

theorem traces_processMsgLocalMac (sc : Ref) (message : Text) :
    (processMsgLocalMac v now order sc message).published = v.published ∧
      ∀ a, a < v.nextAgent → ids (processMsgLocalMac v now order sc message) a = ids v a := by
  -- a new agent starts its own counter; the other agents keep theirs
  have closes (closed : View) (mac : Text) (kept : traces closed = traces v)
      (bound : v.nextAgent ≤ closed.nextAgent) :
      (if closed.isOpen sc then registerAgent closed now sc mac else closed).published =
        v.published ∧
        ∀ a, a < v.nextAgent →
          ids (if closed.isOpen sc then registerAgent closed now sc mac else closed) a =
              ids v a := by
    have counters : ids closed = ids v := congrArg Prod.fst kept
    have messages : closed.published = v.published := congrArg Prod.snd kept
    split
    · constructor
      · rw [← messages]
        unfold registerAgent
        dsimp only
        split <;> rfl
      · intro a known
        have older : a ≠ closed.nextAgent := Nat.ne_of_lt (Nat.lt_of_lt_of_le known bound)
        rw [← counters]
        unfold registerAgent
        dsimp only
        split
        · simp only [ids, mirror, Function.comp_apply, Function.update_of_ne older]
        · simp only [ids, Function.comp_apply, Function.update_of_ne older]
    · exact ⟨messages, fun a _ => congrFun counters a⟩
  unfold processMsgLocalMac
  split
  · exact ⟨rfl, fun _ _ => rfl⟩
  · apply closes
    · split
      · rfl
      · split
        · rfl
        · split
          · exact traces_closeSocket v order _
          · rfl
    · split
      · rfl
      · split
        · rfl
        · split
          · exact (Directory.closeSocket_keeps v order _).nextAgent
          · exact Nat.le_refl _

theorem traces_newStationKnown (s a : Ref) (ssid : Text) :
    traces (newStationKnown v now s a ssid).1 = traces v := by
  unfold newStationKnown
  dsimp only
  split
  · split
    · simp
    · split
      · simp
      · split
        · simp
        · simp
  · split
    · split <;> simp
    · split <;> simp

theorem traces_newStationLink (s a : Ref) (ssid : Text) :
    traces (newStationLink v now s a ssid) = traces v := by
  unfold newStationLink
  simp only [traces_stationHeard]
  split
  · rfl
  · split <;> simp

def Publishes (v w : View) (fresh : List Published) : Prop :=
  traces w = (ids v, v.published ++ fresh)

theorem publishes_none {v w : View} (same : traces w = traces v) : Publishes v w [] := by
  unfold Publishes
  rw [same, List.append_nil]
  rfl

theorem publishes_one {v w : View} (message : Published) (same : traces w = traces v) :
    Publishes v { w with published := w.published ++ [message] } [message] := by
  have counters : ids w = ids v := congrArg Prod.fst same
  have messages : w.published = v.published := congrArg Prod.snd same
  unfold Publishes
  rw [← counters, ← messages]
  rfl

theorem processMsgNewStation_publishes (sc : Ref) (message : Text) :
    ∃ fresh, Publishes v (processMsgNewStation v now order sc message) fresh ∧
      ∀ published ∈ fresh, ∃ msgId mac a, published = .newSta msgId mac a := by
  have admitted (a : Ref) (staMacAddr ssid : Text) :
      traces (admitStation v now a staMacAddr ssid).1.1 = traces v := by
    unfold admitStation
    split
    · exact (traces_newStationLink _ now _ a ssid).trans (by
        unfold createStation addStation
        simp only [traces_mirror]
        exact (traces_agentAddVap _ _ _).trans
          ((traces_stationAddVap _ _ _).trans (traces_bringOnline _ _ _ _)))
    · split
      · exact traces_newStationKnown v now _ a ssid
      · exact traces_newStationLink v now _ a ssid
  unfold processMsgNewStation
  split
  · split
    · exact ⟨[], publishes_none rfl, by simp⟩
    · dsimp only
      split
      · refine ⟨[.newSta _ _ _], publishes_one _ ((traces_foldl _ _ ?_ _).trans (admitted _ _ _)),
          ?_⟩
        · intro w c
          split
          · exact traces_delVapContainer w now order _ _ _ _
          · rfl
        · intro published member
          exact ⟨_, _, _, List.mem_singleton.mp member⟩
      · exact ⟨[], publishes_none (admitted _ _ _), by simp⟩
  · exact ⟨[], publishes_none rfl, by simp⟩

theorem traces_processMsgDelStation (sc : Ref) (message : Text) :
    traces (processMsgDelStation v now order sc message) = traces v := by
  unfold processMsgDelStation
  split
  · split
    · split
      · rfl
      · unfold leaveVap
        simp only [traces_setLastProbeHeard]
        split
        · split <;> simp
        · split <;> simp
    · rfl
  · rfl

theorem traces_processMsgFlowInfo (sc : Ref) (message : Text) :
    traces (processMsgFlowInfo v sc message) = traces v := by
  rw [processMsgFlowInfo_eq]
  split
  · rfl
  · unfold countTraffic setUpTraffic setDownTraffic
    simp only [traces_mirror, traces_updStation]
    split
    · rw [traces_updateSumTraffic]
      exact traces_agent_frame _ _ _ rfl
    · exact traces_agent_frame _ _ _ rfl

theorem stationMap_foldl {Item : Type} (body : View → Item → View)
    (each : ∀ w item, (body w item).stationMap = w.stationMap) (items : List Item) :
    (items.foldl body v).stationMap = v.stationMap :=
  Runs.foldl_within (fun v w : View => w.stationMap = v.stationMap) (fun _ => rfl)
    (fun first second => second.trans first) body each items v

theorem processMsgProbeInfo_publishes (sc : Ref) (message : Text) :
    ∃ fresh, Publishes v (processMsgProbeInfo v now order sc message) fresh ∧
      ∀ published ∈ fresh, ∃ msgId mac rssi au channel mode a,
        published = .probeInfo msgId mac rssi au channel mode a ∧
          mac ∈ (processMsgProbeInfo v now order sc message).stationMap := by
  -- a probe is published for a station that is tracked by then
  unfold processMsgProbeInfo
  split
  · rename_i a probe _ _
    have seen : traces (probeStation v probe.staMacAddr).1 = traces v := by
      unfold probeStation
      split <;> rfl
    have tracked : probe.staMacAddr ∈ (probeStation v probe.staMacAddr).1.stationMap := by
      unfold probeStation
      cases found : v.stationMap.lookup probe.staMacAddr with
      | some s => exact AList.lookup_isSome.mp (by rw [found]; rfl)
      | none => exact (AList.mem_insert _).mpr (Or.inl rfl)
    dsimp only
    split
    · split
      · exact ⟨[], publishes_none seen, by simp⟩
      · refine ⟨[.probeInfo _ _ _ _ _ _ _],
          publishes_one _ ((traces_foldl (stationHeard _ _ now _) _ ?_ _).trans seen), ?_⟩
        · intro w ssid
          split <;> rfl
        · intro published member
          refine ⟨_, _, _, _, _, _, _, List.mem_singleton.mp member, ?_⟩
          dsimp only
          rw [stationMap_foldl]
          · exact tracked
          · intro w ssid
            split <;> rfl
    · exact ⟨[], publishes_none seen, by simp⟩
  · exact ⟨[], publishes_none rfl, by simp⟩

theorem traces_processMsgOk (sc : Ref) (message : Text) :
    traces (processMsgOk v now order sc message) = traces v := by
  have acknowledged (w : View) (a s : Ref) (ssid : Text) : traces (acknowledgeDel w now a s ssid) =
      traces w := by
    have removed (x : View) (c : Ref) (same : traces x = traces w) :
        traces (if (x.agentMap (x.agents a).macAddress).isSome ∧ agentStatus x a now = .onLine then
          stationRemoveVap (agentRemoveVap x a c) s c else x) = traces w := by
      split
      · simpa using same
      · exact same
    unfold acknowledgeDel
    split
    · split
      · rfl
      · dsimp only
        split
        · split
          · simp
          · split
            · simp
            · exact removed _ _ (by simp)
        · split
          · exact removed _ _ (by simp)
          · exact removed _ _ rfl
    · rfl
  unfold processMsgOk
  split
  · dsimp only
    split
    · rfl
    · split
      · split
        · split
          · rfl
          · exact traces_delVapContainer (putSendMsg v _ _) now order _ _ _ _
        · rfl
      · split
        · rfl
        · exact acknowledged (putSendMsg v _ _) _ _ _
      · rfl
      · rfl
  · rfl

theorem traces_dropVap (s c : Ref) : traces (dropVap v now order s c) = traces v := by
  unfold dropVap
  simp

theorem traces_ageTask : traces (ageTask v now order) = traces v := by
  have aged (w : View) (s c : Ref) : traces (ageVap w now order s c).1 = traces w := by
    unfold ageVap
    dsimp only
    split
    · split
      · rfl
      · split
        · exact traces_dropVap w now order s c
        · split
          · split
            · rfl
            · split
              · split
                · exact traces_dropVap w now order s c
                · rfl
              · rfl
          · rfl
    · rfl
  refine traces_whileFine v _ (fun w s => ?_) _
  unfold ageStation
  split
  · rfl
  · split
    · split
      · refine traces_foldl w _ (fun x c => ?_) _
        split
        · exact traces_dropVap x now order s c
        · rfl
      · rfl
    · exact traces_whileFine w _ (fun x c => aged x s c) _

theorem traces_cmdTask (key : Text) : traces (cmdTask v now order key) = traces v := by
  unfold cmdTask
  split
  · rfl
  · split
    · split
      · dsimp only
        split
        · exact traces_excuteAddVap v now order false _
        · exact traces_excuteAddVap v now order false _
      · rfl
    · rfl

theorem traces_checkSendMsg (sendMsgId : Text) :
    traces (checkSendMsg v now order sendMsgId) = traces v := by
  unfold checkSendMsg
  split
  · rfl
  · split
    · rfl
    · exact traces_cancelTask v now order _
    · exact traces_cancelTask v now order _

theorem traces_sendCommand (a : Ref) (frame : Text → Text) (message : StationCtrlMessage)
    (written : Bool) :
    traces (sendCommand v now order a frame message written) =
      (Function.update (ids v) a (nextId (v.agents a)), v.published) := by
  have numbered : traces (updAgent v a fun agent => { agent with
      currentId := nextId (v.agents a) }) =
      (Function.update (ids v) a (nextId (v.agents a)), v.published) :=
    congrArg (fun counters => (counters, v.published)) (Function.comp_update _ _ _ _)
  rw [← numbered]
  unfold sendCommand
  dsimp only
  split
  · exact traces_cancelTask _ now order message
  · split
    · split
      · split <;> rfl
      · exact traces_cancelTask _ now order message
    · split
      · exact traces_cancelTask _ now order message
      · rfl

theorem traces_informAgent (a : Ref) (totStaSize channel : Int) (mode message : Text)
    (curPos : Int) :
    traces (informAgent v a totStaSize channel mode message curPos) = traces v := by
  rw [informAgent, traces_mirror]
  exact traces_agent_frame v _ _ rfl

theorem step_publishes (op : Op) :
    ∃ fresh, (step v now order op).published = v.published ++ fresh ∧
      ∀ published ∈ fresh, (∃ msgId mac a, published = .newSta msgId mac a) ∨
        ∃ msgId mac rssi au channel mode a, published =
          .probeInfo msgId mac rssi au channel mode a ∧
          mac ∈ (step v now order op).stationMap := by
  -- only the two reports publish, and a probe is published for a tracked station
  have silent {w : View} (same : traces w = traces v) : ∃ fresh, w.published = v.published ++
      fresh ∧
      ∀ published ∈ fresh, (∃ msgId mac a, published = .newSta msgId mac a) ∨
        ∃ msgId mac rssi au channel mode a, published =
          .probeInfo msgId mac rssi au channel mode a ∧
          mac ∈ w.stationMap :=
    ⟨[], by rw [List.append_nil]; exact congrArg Prod.snd same, by simp⟩
  have quiet {w : View} (same : w.published = v.published) : ∃ fresh, w.published = v.published ++
      fresh ∧
      ∀ published ∈ fresh, (∃ msgId mac a, published = .newSta msgId mac a) ∨
        ∃ msgId mac rssi au channel mode a, published =
          .probeInfo msgId mac rssi au channel mode a ∧
          mac ∈ w.stationMap :=
    ⟨[], by rw [List.append_nil, same], by simp⟩
  cases op with
  | accept => exact silent rfl
  | heard sc =>
      apply quiet
      simp only [step, updateAgentHeard]
      split <;> rfl
  | localMac sc message => exact quiet (traces_processMsgLocalMac v now order sc message).1
  | heartBeat sc message written =>
      apply quiet
      simp only [step, processMsgHeartBeat]
      split
      · rfl
      · split <;> rfl
  | newStation sc message =>
      obtain ⟨fresh, traced, kinds⟩ := processMsgNewStation_publishes v now order sc message
      exact ⟨fresh, congrArg Prod.snd traced, fun published member => Or.inl
        (kinds published member)⟩
  | delStation sc message => exact silent (traces_processMsgDelStation v now order sc message)
  | flowInfo sc message => exact silent (traces_processMsgFlowInfo v sc message)
  | probeInfo sc message =>
      obtain ⟨fresh, traced, kinds⟩ := processMsgProbeInfo_publishes v now order sc message
      exact ⟨fresh, congrArg Prod.snd traced, fun published member => Or.inr
        (kinds published member)⟩
  | interfaceNum sc message =>
      apply silent
      simp only [step, processMsgInterfaceNum]
      split
      · exact traces_informAgent v _ _ _ _ _ _
      · rfl
  | ok sc message => exact silent (traces_processMsgOk v now order sc message)
  | err sc message =>
      apply silent
      simp only [step, processMsgErr]
      split
      · split <;> rfl
      · rfl
  | closeSocket sc => exact silent (traces_closeSocket v order sc)
  | addVap isRoam message => exact silent (traces_excuteAddVap v now order isRoam message)
  | queueVap b staMacAddress mode ssid =>
      exact silent (traces_addVapContainer v now order false b _ mode ssid)
  | delVap roamType b s ssid => exact silent (traces_delVapContainer v now order roamType b s ssid)
  | cancel message => exact silent (traces_cancelTask v now order message)
  | age => exact silent (traces_ageTask v now order)
  | cmd key => exact silent (traces_cmdTask v now order key)
  | check index =>
      apply silent
      simp only [step]
      split
      · rfl
      · exact traces_checkSendMsg { v with checks := v.checks.eraseIdx index } now order _
  | task index written =>
      apply quiet
      simp only [step]
      split
      · rfl
      · rename_i task _
        cases task with
        | add b s message =>
            exact congrArg Prod.snd (traces_sendCommand { v with
              tasks := v.tasks.eraseIdx index } now order b _
              message written)
        | del roamType b s ssid =>
            exact congrArg Prod.snd (traces_sendCommand { v with
              tasks := v.tasks.eraseIdx index } now order b _
              _ written)
        | putSendMsg sendMsgId message => rfl
        | schedule sendMsgId => rfl

end Handlers

end LazyAS.StepTraces

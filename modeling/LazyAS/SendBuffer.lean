import LazyAS.Master
import LazyAS.Runs

/-! The send buffer and the executor's queue: which operations leave them alone. Only storing
a command, its reply and its check change the buffer; every operation but the forced roam
asks for plain commands only. -/
namespace LazyAS.SendBuffer
open WireText ControllerView Master

def outbox (v : View) : (Text → Option SendMsg) × List Task := (v.sendMsgBuffer, v.tasks)

section Assignments

variable (v : View)

@[simp] theorem outbox_updAgent (a : Ref) (change : Agent → Agent) :
    outbox (updAgent v a change) = outbox v := rfl

@[simp] theorem outbox_updStation (s : Ref) (change : Station → Station) :
    outbox (updStation v s change) = outbox v := rfl

@[simp] theorem outbox_updVap (c : Ref) (change : VapContainer → VapContainer) :
    outbox (updVap v c change) = outbox v := rfl

@[simp] theorem outbox_newVapContainer (s a : Ref) (ssid : Text) :
    outbox (newVapContainer v s a ssid) = outbox v := rfl

@[simp] theorem outbox_setLastProbeHeard (c : Ref) (now : Int) :
    outbox (setLastProbeHeard v c now) = outbox v := rfl

@[simp] theorem outbox_setStationStatus (s : Ref) (status : Status) :
    outbox (setStationStatus v s status) = outbox v := rfl

@[simp] theorem outbox_setWorking (s : Ref) (working : Option Ref) :
    outbox (setWorking v s working) = outbox v := rfl

@[simp] theorem outbox_stationHeard (s : Ref) (now : Int) (mode : Option Text) :
    outbox (stationHeard v s now mode) = outbox v := rfl

@[simp] theorem outbox_updateSumTraffic (s : Ref) : outbox (updateSumTraffic v s) = outbox v := rfl

@[simp] theorem outbox_stationAddVap (s c : Ref) : outbox (stationAddVap v s c) = outbox v := rfl

@[simp] theorem outbox_stationRemoveVap (s c : Ref) : outbox (stationRemoveVap v s c) = outbox v :=
  rfl

@[simp] theorem outbox_setVapStatus (c : Ref) (status : Status) :
    outbox (setVapStatus v c status) = outbox v := by
  unfold setVapStatus
  simp only [outbox_updVap]
  split <;> rfl

@[simp] theorem outbox_agentAddVap (a c : Ref) : outbox (agentAddVap v a c) = outbox v := by
  unfold agentAddVap
  split <;> rfl

@[simp] theorem outbox_agentRemoveVap (a c : Ref) : outbox (agentRemoveVap v a c) = outbox v := by
  unfold agentRemoveVap
  split <;> rfl

@[simp] theorem outbox_bringOnline (now : Int) (s c : Ref) :
    outbox (bringOnline v now s c) = outbox v := by
  simp [bringOnline]

@[simp] theorem outbox_resetVap (a c : Ref) : outbox (resetVap v a c) = outbox v := by
  unfold resetVap
  simp only [outbox_agentRemoveVap]
  split
  · split
    · simp
    · simp
  · rfl

theorem outbox_foldl {Item : Type} (body : View → Item → View)
    (each : ∀ w item, outbox (body w item) = outbox w) (items : List Item) :
    outbox (items.foldl body v) = outbox v :=
  Runs.foldl_within (fun v w => outbox w = outbox v) (fun _ => rfl)
    (fun first second => second.trans first) body
    each items v

@[simp] theorem outbox_reset (order : Order) (a : Ref) : outbox (reset v order a) = outbox v := by
  unfold reset
  simp only [outbox_updAgent]
  exact outbox_foldl v _ (fun w c => outbox_resetVap w a c) _

@[simp] theorem outbox_closeSocket (order : Order) (sc : Ref) :
    outbox (closeSocket v order sc) = outbox v := by
  unfold closeSocket
  split
  · dsimp only
    cases v.sc2AgentMap sc with
    | none => rfl
    | some a =>
        exact outbox_reset { v with socketMap := Function.update v.socketMap sc false } order a
  · rfl

end Assignments

def plain : Task → Bool
  | .add _ _ message => message.msgType = .addVap
  | .del none _ _ _ => true
  | _ => false

/-- The buffer is the same and only plain commands were submitted. -/
def Quiet (v w : View) : Prop :=
  ∃ new, outbox w = (v.sendMsgBuffer, v.tasks ++ new) ∧ ∀ task ∈ new, plain task = true

theorem Quiet.of_eq {v w : View} (same : outbox w = outbox v) : Quiet v w :=
  ⟨[], by simpa [outbox] using same, by simp⟩

theorem Quiet.trans {v w x : View} (first : Quiet v w) (second : Quiet w x) : Quiet v x := by
  obtain ⟨new, same, fine⟩ := first
  obtain ⟨more, same', fine'⟩ := second
  simp only [outbox, Prod.mk.injEq] at same same'
  refine ⟨new ++ more, ?_, ?_⟩
  · simp [outbox, same', same]
  · intro task member
    rcases List.mem_append.mp member with old | late
    · exact fine task old
    · exact fine' task late

theorem quiet_foldl {Item : Type} (v : View) (body : View → Item → View)
    (each : ∀ w item, Quiet w (body w item)) (items : List Item) : Quiet v (items.foldl body v) :=
  Runs.foldl_within Quiet (fun _ => .of_eq rfl) Quiet.trans body each items v

theorem quiet_whileFine (v : View) (body : View → Ref → View × Bool)
    (each : ∀ w item, Quiet w (body w item).1) (items : List Ref) :
    Quiet v (whileFine body v items).1 :=
  whileFine_within Quiet (fun _ => .of_eq rfl) Quiet.trans body each items v

section Handlers

variable (v : View) (now : Int) (order : Order)

theorem delVapContainer_outbox (roamType : Option RoamType) (a s : Ref) (ssid : Text) :
    outbox (delVapContainer v now order roamType a s ssid) = outbox v ∨
    outbox (delVapContainer v now order roamType a s ssid) =
      (v.sendMsgBuffer, v.tasks ++ [.del roamType a s ssid]) := by
  unfold delVapContainer
  split
  · exact .inl rfl
  · split
    · split
      · split
        · exact .inr rfl
        · exact .inl rfl
      · exact .inl (outbox_closeSocket v order _)
    · exact .inl rfl

theorem delVapContainer_quiet (a s : Ref) (ssid : Text) :
    Quiet v (delVapContainer v now order none a s ssid) := by
  rcases delVapContainer_outbox v now order none a s ssid with same | submitted
  · exact .of_eq same
  · exact ⟨[.del none a s ssid], submitted, by simp [plain]⟩

theorem createVap_outbox (s a : Ref) (ssid : Text) :
    outbox (createVap v now s a ssid) = outbox v := by
  simp [createVap]

theorem excuteAddVap_outbox (isRoam : Bool) (message : StationCtrlMessage) :
    outbox (excuteAddVap v now order isRoam message).1 = outbox v ∨
    ∃ s, outbox (excuteAddVap v now order isRoam message).1 =
      (v.sendMsgBuffer, v.tasks ++ [.add message.agent s message]) := by
  unfold excuteAddVap
  dsimp only
  split
  · exact .inl rfl
  · split
    · split
      · exact .inl rfl
      · rename_i s _
        split
        · split
          · exact .inl rfl
          · exact .inl rfl
          · split
            · exact .inl rfl
            · have same := createVap_outbox v now s message.agent message.ssid
              simp only [outbox, Prod.mk.injEq] at same
              exact .inr ⟨s, by simp [outbox, submit, same]⟩
        · exact .inl (outbox_closeSocket v order _)
    · exact .inl rfl

theorem excuteAddVap_quiet (isRoam : Bool) (message : StationCtrlMessage)
    (fine : message.msgType = .addVap) : Quiet v (excuteAddVap v now order isRoam message).1 := by
  rcases excuteAddVap_outbox v now order isRoam message with same | ⟨s, submitted⟩
  · exact .of_eq same
  · exact ⟨[.add message.agent s message], submitted, by simp [plain, fine]⟩

theorem addVapContainer_quiet (isNoForceRoam : Bool) (a : Ref) (staMacAddress mode ssid : Text) :
    Quiet v (addVapContainer v now order isNoForceRoam a staMacAddress mode ssid) := by
  unfold addVapContainer
  dsimp only
  split
  · exact excuteAddVap_quiet v now order true _ rfl
  · split
    · exact .of_eq rfl
    · split
      · split
        · exact .of_eq rfl
        · exact .of_eq rfl
      · exact .of_eq rfl

theorem cancelTask_outbox (message : StationCtrlMessage) :
    outbox (cancelTask v now order message) = outbox v := by
  unfold cancelTask
  simp only [agentSetContains]
  split
  · rfl
  · split
    · split
      · split <;> rfl
      · split <;> rfl
      · split
        · exact outbox_closeSocket v order _
        · rfl
      · rfl
    · rfl

theorem registerAgent_outbox (sc : Ref) (agentMacAddr : Text) :
    outbox (registerAgent v now sc agentMacAddr) = outbox v := by
  unfold registerAgent
  dsimp only
  split <;> rfl

theorem processMsgLocalMac_outbox (sc : Ref) (message : Text) :
    outbox (processMsgLocalMac v now order sc message) = outbox v := by
  have closes (closed : View) (mac : Text) (same : outbox closed = outbox v) :
      outbox (if closed.isOpen sc then registerAgent closed now sc mac else closed) = outbox v := by
    split
    · rw [registerAgent_outbox, same]
    · exact same
  unfold processMsgLocalMac
  split
  · rfl
  · apply closes
    split
    · rfl
    · split
      · rfl
      · split
        · exact outbox_closeSocket v order _
        · rfl

theorem processMsgHeartBeat_outbox (sc : Ref) (message : Text) (written : Bool) :
    outbox (processMsgHeartBeat v now sc message written) = outbox v := by
  unfold processMsgHeartBeat
  split
  · rfl
  · dsimp only
    split <;> rfl

theorem newStationKnown_outbox (s a : Ref) (ssid : Text) :
    outbox (newStationKnown v now s a ssid).1 = outbox v := by
  unfold newStationKnown
  dsimp only
  split
  · split
    · rfl
    · split
      · rfl
      · split
        · simp
        · simp
  · split
    · split <;> simp
    · split <;> simp

theorem createStation_outbox (a : Ref) (staMacAddr ssid : Text) :
    outbox (createStation v now a staMacAddr ssid) = outbox v := by
  unfold createStation
  dsimp only
  change outbox (agentAddVap _ _ _) = _
  simp only [outbox_agentAddVap, outbox_stationAddVap, outbox_bringOnline, outbox_newVapContainer]
  rfl

theorem newStationLink_outbox (s a : Ref) (ssid : Text) :
    outbox (newStationLink v now s a ssid) = outbox v := by
  unfold newStationLink
  simp only [outbox_stationHeard]
  split
  · rfl
  · split <;> simp

theorem admitStation_outbox (a : Ref) (staMacAddr ssid : Text) :
    outbox (admitStation v now a staMacAddr ssid).1.1 = outbox v := by
  unfold admitStation
  split
  · exact (newStationLink_outbox _ now _ a ssid).trans
      (createStation_outbox v now a staMacAddr ssid)
  · split
    · exact newStationKnown_outbox v now _ a ssid
    · exact newStationLink_outbox v now _ a ssid

theorem processMsgNewStation_quiet (sc : Ref) (message : Text) :
    Quiet v (processMsgNewStation v now order sc message) := by
  unfold processMsgNewStation
  split
  · split
    · exact .of_eq rfl
    · rename_i a _ staMacAddr _ _ _ _ ssid _
      have admitted := admitStation_outbox v now a staMacAddr ssid
      dsimp only
      split
      · refine (Quiet.of_eq admitted).trans (quiet_foldl _ _ ?_ _)
        intro w c
        split
        · exact delVapContainer_quiet w now order _ _ _
        · exact .of_eq rfl
      · exact .of_eq admitted
  · exact .of_eq rfl

theorem processMsgDelStation_outbox (sc : Ref) (message : Text) :
    outbox (processMsgDelStation v now order sc message) = outbox v := by
  unfold processMsgDelStation
  split
  · split
    · split
      · rfl
      · unfold leaveVap
        simp only [outbox_setLastProbeHeard]
        split
        · split <;> simp
        · split <;> simp
    · rfl
  · rfl

theorem processMsgFlowInfo_outbox (sc : Ref) (message : Text) :
    outbox (processMsgFlowInfo v sc message) = outbox v := by
  rw [processMsgFlowInfo_eq]
  split
  · rfl
  · unfold countTraffic
    dsimp only
    split
    · rfl
    · rfl

theorem processMsgProbeInfo_outbox (sc : Ref) (message : Text) :
    outbox (processMsgProbeInfo v now order sc message) = outbox v := by
  have seen (mac : Text) : outbox (probeStation v mac).1 = outbox v := by
    unfold probeStation
    split <;> rfl
  unfold processMsgProbeInfo
  split
  · dsimp only
    split
    · split
      · exact seen _
      · refine (outbox_foldl _ _ ?_ _).trans (seen _)
        intro w ssid
        split <;> rfl
    · exact seen _
  · rfl

theorem processMsgInterfaceNum_outbox (sc : Ref) (message : Text) :
    outbox (processMsgInterfaceNum v sc message) = outbox v := by
  unfold processMsgInterfaceNum
  split
  · rfl
  · rfl

theorem dropVap_quiet (s c : Ref) : Quiet v (dropVap v now order s c) := by
  unfold dropVap
  refine (delVapContainer_quiet v now order (v.vaps c).agent s (v.vaps c).ssid).trans (.of_eq ?_)
  simp

theorem ageVap_quiet (s c : Ref) : Quiet v (ageVap v now order s c).1 := by
  unfold ageVap
  dsimp only
  split
  · split
    · exact .of_eq rfl
    · split
      · exact dropVap_quiet v now order s c
      · split
        · split
          · exact .of_eq rfl
          · split
            · split
              · exact dropVap_quiet v now order s c
              · exact .of_eq rfl
            · exact .of_eq rfl
        · exact .of_eq rfl
  · exact .of_eq rfl

theorem ageStation_quiet (s : Ref) : Quiet v (ageStation v now order s).1 := by
  unfold ageStation
  split
  · exact .of_eq rfl
  · split
    · split
      · refine quiet_foldl v _ ?_ _
        intro w c
        split
        · exact dropVap_quiet w now order s c
        · exact .of_eq rfl
      · exact .of_eq rfl
    · exact quiet_whileFine v _ (fun w c => ageVap_quiet w now order s c) _

theorem ageTask_quiet : Quiet v (ageTask v now order) :=
  quiet_whileFine v _ (fun w s => ageStation_quiet w now order s) _

theorem cmdTask_outbox (key : Text) :
    outbox (cmdTask v now order key) = outbox v ∨
    ∃ appCmd, v.cmdQueue.lookup key = some appCmd ∧
      outbox (cmdTask v now order key) =
        outbox (excuteAddVap v now order false appCmd.message).1 := by
  unfold cmdTask
  split
  · exact .inl rfl
  · rename_i appCmd waiting
    split
    · split
      · dsimp only
        split
        · exact .inr ⟨appCmd, waiting, rfl⟩
        · exact .inr ⟨appCmd, waiting, rfl⟩
      · exact .inl rfl
    · exact .inl rfl

/-! The commands under way. -/

def replyKey (sc : Ref) (message : Text) : Option Text := do
  let a ← v.sc2AgentMap sc
  let msgId ← substring message 0 4
  return (v.agents a).macAddress ++ msgId

def answer (buffer : Text → Option SendMsg) (key : Option Text) (status : MsgStatus) :
    Text → Option SendMsg :=
  match key with
  | none => buffer
  | some key =>
      match buffer key with
      | none => buffer
      | some entry => Function.update buffer key (some { entry with status := status })

theorem acknowledgeDel_outbox (a s : Ref) (ssid : Text) :
    outbox (acknowledgeDel v now a s ssid) = outbox v := by
  have removed (w : View) (c : Ref) (same : outbox w = outbox v) :
      outbox (if (w.agentMap (w.agents a).macAddress).isSome ∧ agentStatus w a now = .onLine then
        stationRemoveVap (agentRemoveVap w a c) s c else w) = outbox v := by
    split
    · simpa using same
    · exact same
  unfold acknowledgeDel
  split
  · split
    · rfl
    · dsimp only
      split
      · split
        · simp
        · split
          · simp
          · exact removed _ _ (by simp)
      · split
        · exact removed _ _ (by simp)
        · exact removed _ _ rfl
  · rfl

theorem processMsgOk_outbox (sc : Ref) (message : Text) :
    ∃ new, outbox (processMsgOk v now order sc message) =
      (answer v.sendMsgBuffer (replyKey v sc message) .ok, v.tasks ++ new) ∧
      ∀ task ∈ new, ∃ key entry a s c, replyKey v sc message = some key ∧
        v.sendMsgBuffer key = some entry ∧ entry.msg.msgType = .addVapRoam ∧
        v.agentMap entry.msg.fromAgentMacAddr = some a ∧
        v.stationMap.lookup entry.msg.staMacAddr = some s ∧
        stationVap v s a entry.msg.ssid = some c ∧
        task = .del (some .force) a s (v.vaps c).ssid := by
  unfold processMsgOk
  split
  · rename_i a msgId registered taken
    have key : replyKey v sc message = some ((v.agents a).macAddress ++ msgId) := by
      simp [replyKey, registered, taken]
    rw [key]
    dsimp only
    cases stored : v.sendMsgBuffer ((v.agents a).macAddress ++ msgId) with
    | none => exact ⟨[], by simp [outbox, answer, stored], by simp⟩
    | some entry =>
        have confirmed : outbox (putSendMsg v ((v.agents a).macAddress ++ msgId)
            (some { entry with status := .ok })) =
            (answer v.sendMsgBuffer (some ((v.agents a).macAddress ++ msgId)) .ok, v.tasks) := by
          simp [outbox, answer, stored, putSendMsg]
        have unchanged : outbox (putSendMsg v ((v.agents a).macAddress ++ msgId)
            (some { entry with status := .ok })) =
            (answer v.sendMsgBuffer (some ((v.agents a).macAddress ++ msgId)) .ok,
                v.tasks ++ []) := by
          rw [confirmed, List.append_nil]
        dsimp only
        cases type : entry.msg.msgType with
        | addVap => exact ⟨[], unchanged, by simp⟩
        | offlineVap => exact ⟨[], unchanged, by simp⟩
        | delVap =>
            refine ⟨[], ?_, by simp⟩
            dsimp only
            split
            · exact unchanged
            · rw [acknowledgeDel_outbox, unchanged]
        | addVapRoam =>
            dsimp only
            split
            · rename_i fromAgent s from_ known
              split
              · exact ⟨[], unchanged, by simp⟩
              · rename_i c found
                rcases delVapContainer_outbox (putSendMsg v ((v.agents a).macAddress ++ msgId)
                    (some { entry with status := .ok })) now order (some .force) fromAgent s
                    (v.vaps c).ssid with same | submitted
                · exact ⟨[], by rw [same, unchanged], by simp⟩
                · refine ⟨[.del (some .force) fromAgent s (v.vaps c).ssid], ?_, ?_⟩
                  · rw [submitted]
                    exact congrArg (fun out : (Text → Option SendMsg) × List Task =>
                      (out.1, out.2 ++ [Task.del (some .force) fromAgent s (v.vaps c).ssid]))
                        confirmed
                  · intro task member
                    rw [List.mem_singleton] at member
                    exact ⟨_, entry, fromAgent, s, c, rfl, stored, type, from_, known, found,
                      member⟩
            · exact ⟨[], unchanged, by simp⟩
  · rename_i unread
    have key : replyKey v sc message = none := by
      unfold replyKey
      cases registered : v.sc2AgentMap sc with
      | none => rfl
      | some a =>
          cases taken : substring message 0 4 with
          | none => simp
          | some msgId => exact absurd taken (unread a msgId registered)
    rw [key]
    exact ⟨[], by simp [outbox, answer], by simp⟩

theorem processMsgErr_outbox (sc : Ref) (message : Text) :
    outbox (processMsgErr v sc message) =
      (answer v.sendMsgBuffer (replyKey v sc message) .err, v.tasks) := by
  cases registered : v.sc2AgentMap sc with
  | none => simp [processMsgErr, replyKey, registered, outbox, answer]
  | some a =>
      cases taken : substring message 0 4 with
      | none => simp [processMsgErr, replyKey, registered, taken, outbox, answer]
      | some msgId =>
          cases stored : v.sendMsgBuffer ((v.agents a).macAddress ++ msgId) with
          | none => simp [processMsgErr, replyKey, registered, taken, outbox, answer, stored]
          | some entry =>
              simp [processMsgErr, replyKey, registered, taken, outbox, answer, stored, putSendMsg]

/-- The branch of `CheckSendMsgTask.run` that calls `cancelTask`. -/
def cancels (buffer : Text → Option SendMsg) (sendMsgId : Text) : Bool :=
  match buffer sendMsgId with
  | some ⟨_, .err⟩ | some ⟨_, .unreply⟩ => true
  | _ => false

theorem checkSendMsg_eq (sendMsgId : Text) :
    checkSendMsg v now order sendMsgId =
      match v.sendMsgBuffer sendMsgId with
      | none => v
      | some sendMsg =>
          if cancels v.sendMsgBuffer sendMsgId then cancelTask v now order sendMsg.msg
          else putSendMsg v sendMsgId none := by
  cases stored : v.sendMsgBuffer sendMsgId with
  | none => simp [checkSendMsg, stored]
  | some sendMsg =>
      obtain ⟨msg, status⟩ := sendMsg
      cases status <;> simp [checkSendMsg, stored, cancels]

theorem checkSendMsg_outbox (sendMsgId : Text) :
    outbox (checkSendMsg v now order sendMsgId) = outbox v ∨
    cancels v.sendMsgBuffer sendMsgId = false ∧
      outbox (checkSendMsg v now order sendMsgId) =
        (Function.update v.sendMsgBuffer sendMsgId none, v.tasks) := by
  rw [checkSendMsg_eq]
  split
  · exact .inl rfl
  · split
    · exact .inl (cancelTask_outbox v now order _)
    · rename_i fine
      exact .inr ⟨by simpa using fine, rfl⟩

/-! The frames that are written. -/

theorem resetVap_sent (a c : Ref) : (resetVap v a c).sent = v.sent := by
  have released (w : View) : (agentRemoveVap w a c).sent = w.sent := by
    unfold agentRemoveVap
    split <;> rfl
  unfold resetVap
  simp only [released]
  split
  · split <;> rfl
  · rfl

theorem reset_sent (a : Ref) : (reset v order a).sent = v.sent := by
  have loop (items : List Ref) (w : View) : (items.foldl (fun w c => resetVap w a c) w).sent =
      w.sent := by
    induction items generalizing w with
    | nil => rfl
    | cons c items ih => exact (ih (resetVap w a c)).trans (resetVap_sent w a c)
  exact loop _ v

theorem closeSocket_sent (sc : Ref) : (closeSocket v order sc).sent = v.sent := by
  unfold closeSocket
  split
  · dsimp only
    cases v.sc2AgentMap sc with
    | none => rfl
    | some a =>
        exact reset_sent { v with socketMap := Function.update v.socketMap sc false } order a
  · rfl

theorem cancelTask_sent (message : StationCtrlMessage) :
    (cancelTask v now order message).sent = v.sent := by
  unfold cancelTask
  simp only [agentSetContains]
  split
  · rfl
  · split
    · split
      · split <;> rfl
      · split <;> rfl
      · split
        · exact closeSocket_sent v order _
        · rfl
      · rfl
    · rfl

/-- Writing a command leaves the buffer alone. Nothing is written, or one frame with the next
id of the agent, and then the task may go on to store the command under that id. -/
theorem sendCommand_outcome (a : Ref) (frame : Text → Text) (message : StationCtrlMessage)
    (written : Bool) :
    outbox (sendCommand v now order a frame message written) = outbox v ∧
      (sendCommand v now order a frame message written).sent = v.sent ∨
    written = true ∧
    (∃ sc, (sendCommand v now order a frame message written).sent =
      v.sent ++ [(sc, frame (zeroPad 4 (nextId (v.agents a))))]) ∧
    (outbox (sendCommand v now order a frame message written) = outbox v ∨
      outbox (sendCommand v now order a frame message written) =
        (v.sendMsgBuffer, v.tasks ++ [.putSendMsg ((v.agents a).macAddress ++
          zeroPad 4 (nextId (v.agents a))) message])) := by
  have cancelled (w : View) (same : outbox w = outbox v) (wire : w.sent = v.sent) :
      outbox (cancelTask w now order message) = outbox v ∧
        (cancelTask w now order message).sent = v.sent := by
    rw [cancelTask_outbox, cancelTask_sent, same, wire]
    exact ⟨rfl, rfl⟩
  unfold sendCommand
  dsimp only
  split
  · exact .inl (cancelled _ rfl rfl)
  · rename_i sc _
    split
    · split
      · rename_i wrote
        refine .inr ⟨wrote, ?_, ?_⟩
        · split
          · exact ⟨sc, rfl⟩
          · exact ⟨sc, rfl⟩
        · split
          · right
            simp [outbox, submit, updAgent]
          · exact .inl rfl
      · exact .inl (cancelled _ rfl rfl)
    · split
      · exact .inl (cancelled _ rfl rfl)
      · exact .inl ⟨rfl, rfl⟩

def background : Op → Bool
  | .ok _ _ | .err _ _ | .task _ _ | .check _ | .delVap (some _) _ _ _ | .addVap _ _ | .cmd _ =>
    false
  | _ => true

theorem step_quiet (op : Op) (free : background op = true) : Quiet v (step v now order op) := by
  cases op with
  | accept => exact .of_eq rfl
  | heard sc =>
      refine .of_eq ?_
      simp only [step, updateAgentHeard]
      split <;> rfl
  | localMac sc message => exact .of_eq (processMsgLocalMac_outbox v now order sc message)
  | heartBeat sc message written =>
      exact .of_eq (processMsgHeartBeat_outbox v now sc message written)
  | newStation sc message => exact processMsgNewStation_quiet v now order sc message
  | delStation sc message => exact .of_eq (processMsgDelStation_outbox v now order sc message)
  | flowInfo sc message => exact .of_eq (processMsgFlowInfo_outbox v sc message)
  | probeInfo sc message => exact .of_eq (processMsgProbeInfo_outbox v now order sc message)
  | interfaceNum sc message => exact .of_eq (processMsgInterfaceNum_outbox v sc message)
  | ok sc message => exact absurd free (by simp [background])
  | err sc message => exact absurd free (by simp [background])
  | closeSocket sc => exact .of_eq (outbox_closeSocket v order sc)
  | addVap isRoam message => exact absurd free (by simp [background])
  | queueVap a staMacAddress mode ssid =>
      exact addVapContainer_quiet v now order false a staMacAddress mode ssid
  | delVap roamType a s ssid =>
      cases roamType with
      | none => exact delVapContainer_quiet v now order a s ssid
      | some roamType => exact absurd free (by simp [background])
  | cancel message => exact .of_eq (cancelTask_outbox v now order message)
  | age => exact ageTask_quiet v now order
  | cmd key => exact absurd free (by simp [background])
  | task index written => exact absurd free (by simp [background])
  | check index => exact absurd free (by simp [background])

end Handlers

end LazyAS.SendBuffer

import LazyAS.ViewMoves
import LazyAS.AgentRegistry

/-! What a step of the controller can do to the view, said once for every operation, and that
every reachable view is grounded. -/
namespace LazyAS.StepEffects
open WireText ControllerView Master VapBindings BindingLaws ViewGrowth StationCoherence
  ViewGround ViewMoves

def closeFormer (v : View) (order : Order) (sc : Ref) (agentMacAddr : Text) : View :=
  match v.agentMap agentMacAddr with
  | none => v
  | some old =>
      match (v.agents old).sc with
      | none => v
      | some agentSc => if agentSc ≠ sc then closeSocket v order agentSc else v

inductive Adds (v : View) : Op → Bool → StationCtrlMessage → Prop where
  | direct (isRoam : Bool) (message : StationCtrlMessage) :
      Adds v (.addVap isRoam message) isRoam message
  | queued (key : Text) (appCmd : AppCmd) (waiting : v.cmdQueue.lookup key = some appCmd) :
      Adds v (.cmd key) false appCmd.message

/-- The agents whose connections an operation closes when they are silent. -/
inductive Asks (v : View) (order : Order) : Op → Ref → Prop where
  | add {op : Op} (isRoam : Bool) (message : StationCtrlMessage) (adds : Adds v op isRoam message) :
      Asks v order op message.agent
  | delete (roamType : Option RoamType) (a s : Ref) (ssid : Text) :
      Asks v order (.delVap roamType a s ssid) a
  | cancel (message : StationCtrlMessage) (b : Ref) (cancels : Cancels message b) :
      Asks v order (.cancel message) b
  | task (index : Nat) (written : Bool) (task : Task) (b : Ref)
      (waiting : v.tasks[index]? = some task)
      (fails : Fails task b) : Asks v order (.task index written) b
  | check (index : Nat) (sendMsgId : Text) (b : Ref) (waiting : v.checks[index]? = some sendMsgId)
      (unconfirmed : Unconfirmed v sendMsgId b) : Asks v order (.check index) b
  | confirm (sc a fromAgent : Ref) (message msgId : Text) (sendMsg : SendMsg)
      (registered : v.sc2AgentMap sc = some a) (taken : substring message 0 4 = some msgId)
      (buffered : v.sendMsgBuffer ((v.agents a).macAddress ++ msgId) = some sendMsg)
      (roams : sendMsg.msg.msgType = .addVapRoam)
      (found : v.agentMap sendMsg.msg.fromAgentMacAddr = some fromAgent) :
      Asks v order (.ok sc message) fromAgent
  | report (sc a s b : Ref) (message mac ssid : Text)
      (report : newReport v order sc message = some (a, mac, ssid))
      (known : v.stationMap.lookup mac = some s) (rival : Rival v s a ssid b) :
      Asks v order (.newStation sc message) b
  | age (b : Ref) : Asks v order .age b

inductive Effect (v : View) (now : Int) (order : Order) : Op → View → Prop where
  | upkeep {op : Op} {w : View} (rest : Upkeeps (Asks v order op) now v w) : Effect v now order op w
  | accept : Effect v now order .accept (accept v)
  | heard (sc a : Ref) (registered : v.sc2AgentMap sc = some a) :
      Effect v now order (.heard sc) (updAgent v a fun agent => { agent with lastHeard := now })
  | close (sc : Ref) : Effect v now order (.closeSocket sc) (closeSocket v order sc)
  | displace (sc : Ref) (message mac : Text) (rest : Int)
      (taken : takeSized message bodyStart = some (mac, rest)) :
      Effect v now order (.localMac sc message) (closeFormer v order sc mac)
  | register (sc : Ref) (message mac : Text) (rest : Int)
      (taken : takeSized message bodyStart = some (mac, rest))
      (opened : (closeFormer v order sc mac).isOpen sc = true) :
      Effect v now order (.localMac sc message)
        (registerAgent (closeFormer v order sc mac) now sc mac)
  | create {w : View} (sc a : Ref) (message mac ssid : Text)
      (report : newReport v order sc message = some (a, mac, ssid))
      (unknown : v.stationMap.lookup mac = none)
      (rest : Upkeeps (Rival (createStation v now a mac ssid) v.nextStation a ssid) now
        (createStation v now a mac ssid) w) : Effect v now order (.newStation sc message) w
  | admitted {u w : View} (sc a s : Ref) (message mac ssid : Text)
      (report : newReport v order sc message = some (a, mac, ssid))
      (known : v.stationMap.lookup mac = some s) (admission : Admission v now s a ssid u)
      (rest : Upkeeps (Rival u s a ssid) now u w) : Effect v now order (.newStation sc message) w
  | leave (sc a s c : Ref) (message mac ssid : Text) (registered : v.sc2AgentMap sc = some a)
      (known : v.stationMap.lookup mac = some s) (stored : stationVap v s a ssid = some c)
      (left : departed v order sc message = some (s, c)) :
      Effect v now order (.delStation sc message) (leaveVap v now s c)
  | flow (sc s a : Ref) (message : Text) (up down : Int64)
      (report : flowReport v sc message = some (s, a, up, down)) :
      Effect v now order (.flowInfo sc message) (countTraffic v a s up down)
  | probe {w : View} (sc : Ref) (message : Text) (info : ProbeInfo)
      (taken : takeProbe message = some info)
      (unknown : v.stationMap.lookup info.staMacAddr = none)
      (same : Alike (probeStation v info.staMacAddr).1 w) :
      Effect v now order (.probeInfo sc message) w
  | inform (sc a : Ref) (message mode : Text) (totStaSize channel curPos : Int)
      (registered : v.sc2AgentMap sc = some a)
      (taken : takeInterface message = some (totStaSize, channel, mode, curPos)) :
      Effect v now order (.interfaceNum sc message)
        (informAgent v a totStaSize channel mode message curPos)
  | acknowledge {u w : View} (sc a s c : Ref) (message mac ssid : Text) (same : Alike v u)
      (registered : v.sc2AgentMap sc = some a) (known : v.stationMap.lookup mac = some s)
      (stored : stationVap v s a ssid = some c) (listed : acknowledged v sc message = some (s, c))
      (done : Acknowledgement u a s c w) : Effect v now order (.ok sc message) w
  | add {op : Op} {w : View} (isRoam : Bool) (message : StationCtrlMessage) (s : Ref)
      (adds : Adds v op isRoam message) (accepted : Accepted v now order isRoam message s)
      (same : Alike (createVap v now s message.agent message.ssid) w) : Effect v now order op w
  | age {w : View} (moves : Ages now v w) : Effect v now order .age w

/-! What joins the view keeps it grounded. -/

section Grounded

variable {b : Bindings} {agentMap : Text → Option Ref} {isOpen : Ref → Bool}

theorem resumed_grounded (grounded : Grounded b agentMap isOpen) (s c : Ref) :
    Grounded (resumed b s c) agentMap isOpen :=
  ((grounded.setVap c .onLine).setWorking s (some c)).setStatus s .onLine

theorem adopted_grounded (grounded : Grounded b agentMap isOpen) {s c : Ref} (old : c < b.nextVap)
    (tracked : b.stationMap.lookup (b.stationMac s) = some s) :
    Grounded (adopted b s c) agentMap isOpen := by
  have online := grounded.setVap c .onLine
  exact (online.store old tracked).setWorking s (some c)

theorem joined_grounded (grounded : Grounded b agentMap isOpen) {s a : Ref} (ssid : Text)
    (agent : a < b.nextAgent) (station : s < b.nextStation)
    (tracked : b.stationMap.lookup (b.stationMac s) = some s) :
    Grounded (joined b s a ssid) agentMap isOpen := by
  have created := grounded.create ssid agent station
  have stored := adopted_grounded created (Nat.lt_succ_self b.nextVap) tracked
  exact stored.hold (Nat.lt_succ_self b.nextVap) (Function.update_self _ _ _)

theorem added_grounded (grounded : Grounded b agentMap isOpen) {s a : Ref} (ssid : Text)
    (agent : a < b.nextAgent) (station : s < b.nextStation)
    (tracked : b.stationMap.lookup (b.stationMac s) = some s) :
    Grounded (added b s a ssid) agentMap isOpen := by
  have created := grounded.create ssid agent station
  have holding := created.hold (Nat.lt_succ_self b.nextVap) (Function.update_self _ _ _)
  obtain ⟨held, frame⟩ := hold_frame (b.create s a ssid) a b.nextVap
  unfold added
  rw [frame] at holding ⊢
  exact holding.store (Nat.lt_succ_self b.nextVap) tracked

theorem joined_track (s a : Ref) (ssid : Text) (table : Table) :
    { joined b s a ssid with stationMap := table } =
      joined { b with stationMap := table } s a ssid := by
  unfold joined Bindings.hold
  split
  · rename_i taken
    exact (if_pos taken).symm
  · rename_i free
    exact (if_neg free).symm

end Grounded

theorem registered_lt {v : View} (grounded : GroundedView v) {sc a : Ref}
    (registered : v.sc2AgentMap sc = some a) : a < v.nextAgent :=
  (grounded.registered _ a (grounded.connected sc a registered).2.2).1

theorem channels_createStation (v : View) (now : Int) (a : Ref) (mac ssid : Text) :
    channels (createStation v now a mac ssid) = channels v :=
  (channels_agentAddVap _ a v.nextVap).trans (channels_setVapStatus (newVapContainer { v with
    stations := Function.update v.stations v.nextStation { macAddress := mac, status := .onLine }
    nextStation := v.nextStation + 1 } v.nextStation a ssid) v.nextVap .onLine)

theorem createStation_grounded (v : View) (now : Int) (a : Ref) (mac ssid : Text)
    (grounded : GroundedView v) (agent : a < v.nextAgent)
    (unknown : v.stationMap.lookup mac = none) :
    GroundedView (createStation v now a mac ssid) := by
  have created := Grounded.addStation grounded mac .onLine unknown
  have same := channels_createStation v now a mac ssid
  have after := bindings_createStation v now a mac ssid
  rw [joined_track] at after
  refine grounded_of after same
    (joined_grounded created ssid agent (Nat.lt_succ_self v.nextStation) ?_)
  have named : ((bindings v).createStation mac .onLine).stationMac v.nextStation = mac :=
    Function.update_self _ _ _
  dsimp only
  rw [named]
  exact AList.lookup_insert _

theorem probeStation_grounded (v : View) (mac : Text) (grounded : GroundedView v)
    (unknown : v.stationMap.lookup mac = none) : GroundedView (probeStation v mac).1 := by
  have after : bindings (probeStation v mac).1 =
      { (bindings v).createStation mac .offLine with
          stationMap := v.stationMap.insert mac v.nextStation } := by
    simp only [probeStation, unknown, bindings, addStation, mirror, Bindings.createStation,
      Function.comp_update]
  have same : channels (probeStation v mac).1 = channels v := by
    simp only [probeStation, unknown]
    rfl
  exact grounded_of after same (Grounded.addStation grounded mac .offLine unknown)

theorem Admission.grounded {v w : View} {now : Int} {s a : Ref} {ssid : Text}
    (admission : Admission v now s a ssid w) (grounded : GroundedView v) (agent : a < v.nextAgent)
    (tracked : Tracked v s) : GroundedView w := by
  have station : s < v.nextStation := (grounded.tracked _ s tracked).1
  cases admission with
  | unchanged same => exact same.grounded grounded
  | @resume u c same stored switches =>
      have before := same.grounded grounded
      exact grounded_of (bindings_resumeVap u now s c) (channels_resumeVap u now s c)
        (resumed_grounded before s c)
  | @join u same absent switches free =>
      have before := same.grounded grounded
      refine grounded_of (bindings_joinVap u now s a ssid) (channels_joinVap u now s a ssid) ?_
      rw [same.bindings]
      exact joined_grounded (same.bindings ▸ before) ssid agent station tracked
  | adopt c absent unlinked held =>
      exact grounded_of (bindings_adoptVap v now s c) (channels_adoptVap v now s c)
        (adopted_grounded grounded (grounded.held a _ c held).1 tracked)
  | @stray u same linked absent off =>
      have created : GroundedView (newVapContainer v s a ssid) :=
        grounded_of (bindings_newVapContainer v s a ssid) rfl
          (Grounded.create grounded ssid agent station)
      exact grounded_of (bindings_resumeVap u now s v.nextVap)
        (channels_resumeVap u now s v.nextVap)
        (resumed_grounded (same.grounded created) s v.nextVap)

section Operations

variable (v : View) (now : Int) (order : Order)

theorem Effect.of_alike {v : View} {now : Int} {order : Order} {op : Op} {w : View}
    (same : Alike v w) :
    Effect v now order op w := .upkeep (.of_alike same)

theorem Effect.asked {v : View} {now : Int} {order : Order} {op : Op} {b : Ref} {w : View}
    (asks : Asks v order op b) (moves : Upkeeps (· = b) now v w) : Effect v now order op w := by
  refine .upkeep (Upkeeps.mono (fun c here => ?_) moves)
  subst here
  exact asks

theorem processMsgLocalMac_effect (sc : Ref) (message : Text) :
    Effect v now order (.localMac sc message) (processMsgLocalMac v now order sc message) := by
  unfold processMsgLocalMac
  cases taken : takeSized message bodyStart with
  | none => exact .of_alike (.refl v)
  | some fields =>
      obtain ⟨mac, rest⟩ := fields
      change Effect v now order (.localMac sc message)
        (if (closeFormer v order sc mac).isOpen sc then
          registerAgent (closeFormer v order sc mac) now sc mac
          else closeFormer v order sc mac)
      split
      · rename_i opened
        exact .register sc message mac rest taken opened
      · exact .displace sc message mac rest taken

theorem processMsgHeartBeat_alike (sc : Ref) (message : Text) (written : Bool) :
    Alike v (processMsgHeartBeat v now sc message written) := by
  unfold processMsgHeartBeat
  split
  · exact .refl v
  · rename_i a registered
    have heard : Alike v (updAgent v a fun agent => { agent with lastHeartBeat := now }) :=
      alike_updAgent v a _ rfl
    dsimp only
    split
    · exact heard.trans rfl
    · exact heard

theorem processMsgNewStation_effect (sc : Ref) (message : Text) (grounded : GroundedView v) :
    Effect v now order (.newStation sc message) (processMsgNewStation v now order sc message) := by
  cases report : newReport v order sc message with
  | none =>
      rw [processMsgNewStation_eq, report]
      exact .of_alike (.refl v)
  | some fields =>
      obtain ⟨a, mac, ssid⟩ := fields
      have rest := processMsgNewStation_upkeep v now order sc message report
      have agent := registered_lt grounded (newReport_registered v order report)
      cases known : v.stationMap.lookup mac with
      | none =>
          have created := admitStation_unknown v now a mac ssid known
          have ground := createStation_grounded v now a mac ssid grounded agent known
          rw [admitStation_new v now a mac ssid known] at rest
          refine .create sc a message mac ssid report known ((Upkeeps.of_alike created).trans ?_)
          exact Upkeeps.mono (fun _ rival => Rival.alike created rival)
            (rest (created.grounded ground))
      | some s =>
          obtain ⟨u, admission, same⟩ := admitStation_known v now s a mac ssid grounded known
          have named : (v.stations s).macAddress = mac := (grounded.tracked mac s known).2
          have ground := Admission.grounded admission grounded agent (by subst named; exact known)
          rw [admitStation_station v now a mac ssid known] at rest
          refine .admitted sc a s message mac ssid report known admission
            ((Upkeeps.of_alike same).trans ?_)
          exact Upkeeps.mono (fun _ rival => Rival.alike same rival) (rest (same.grounded ground))

theorem processMsgDelStation_effect (sc : Ref) (message : Text) :
    Effect v now order (.delStation sc message) (processMsgDelStation v now order sc message) := by
  unfold processMsgDelStation
  split
  · rename_i a msgId mac curPos registered taken
    split
    · rename_i s ssid known resolved
      split
      · exact .of_alike (.refl v)
      · rename_i c stored
        refine .leave sc a s c message mac ssid registered known stored ?_
        simp [departed, registered, taken, known, resolved, stored]
    · exact .of_alike (.refl v)
  · exact .of_alike (.refl v)

theorem processMsgFlowInfo_effect (sc : Ref) (message : Text) :
    Effect v now order (.flowInfo sc message) (processMsgFlowInfo v sc message) := by
  rw [processMsgFlowInfo_eq]
  cases report : flowReport v sc message with
  | none => exact .of_alike (.refl v)
  | some fields =>
      obtain ⟨s, a, up, down⟩ := fields
      exact .flow sc s a message up down report

theorem processMsgProbeInfo_effect (sc : Ref) (message : Text) :
    Effect v now order (.probeInfo sc message) (processMsgProbeInfo v now order sc message) := by
  cases registered : v.sc2AgentMap sc with
  | none =>
      simp only [processMsgProbeInfo, registered]
      exact .of_alike (.refl v)
  | some a =>
      cases taken : takeProbe message with
      | none =>
          simp only [processMsgProbeInfo, registered, taken]
          exact .of_alike (.refl v)
      | some info =>
          -- behind the new station only times change and a message is published
          have same : Alike (probeStation v info.staMacAddr).1
              (processMsgProbeInfo v now order sc message) := by
            simp only [processMsgProbeInfo, registered, taken]
            split
            · split
              · exact .refl _
              · refine (alike_stationHeard _ _ now _).trans
                  (Alike.trans (alike_foldl _ _ (fun w ssid => ?_) _) rfl)
                split
                · exact alike_setLastProbeHeard w _ now
                · exact .refl w
            · exact .refl _
          cases known : v.stationMap.lookup info.staMacAddr with
          | none => exact .probe sc message info taken known same
          | some s =>
              have unchanged : (probeStation v info.staMacAddr).1 =
                  v := by simp [probeStation, known]
              rw [unchanged] at same
              exact .of_alike same

theorem processMsgInterfaceNum_effect (sc : Ref) (message : Text) :
    Effect v now order (.interfaceNum sc message) (processMsgInterfaceNum v sc message) := by
  unfold processMsgInterfaceNum
  split
  · rename_i a totStaSize channel mode curPos registered taken
    exact .inform sc a message mode totStaSize channel curPos registered taken
  · exact .of_alike (.refl v)

theorem processMsgOk_effect (sc : Ref) (message : Text) :
    Effect v now order (.ok sc message) (processMsgOk v now order sc message) := by
  unfold processMsgOk
  split
  · rename_i a msgId registered taken
    dsimp only
    split
    · exact .of_alike (.refl v)
    · rename_i sendMsg buffered
      have confirmed : Alike v (putSendMsg v ((v.agents a).macAddress ++ msgId)
          (some { sendMsg with status := .ok })) := rfl
      split
      · rename_i roams
        split
        · rename_i fromAgent s found known
          split
          · exact .of_alike confirmed
          · refine .asked (.confirm sc a fromAgent message msgId sendMsg registered taken buffered
              roams found) ?_
            exact (Upkeeps.of_alike confirmed).trans
              (delVapContainer_upkeep _ now order (some .force) fromAgent s _)
        · exact .of_alike confirmed
      · rename_i deletes
        split
        · exact .of_alike confirmed
        · rename_i s known
          rcases acknowledgeDel_effect (putSendMsg v ((v.agents a).macAddress ++ msgId)
            (some { sendMsg with status := .ok })) now a s sendMsg.msg.ssid
              with result | ⟨c, linked, stored, done⟩
          · rw [result]
            exact .of_alike confirmed
          · have linked' : agentSetContains v s (.agent a) = true := linked
            have stored' : stationVap v s a sendMsg.msg.ssid = some c := stored
            refine .acknowledge sc a s c message _ sendMsg.msg.ssid confirmed registered known
              stored' ?_ done
            simp [acknowledged, registered, taken, buffered, known, stored', deletes, linked']
      · exact .of_alike confirmed
      · exact .of_alike confirmed
  · exact .of_alike (.refl v)

theorem excuteAddVap_effect (isRoam : Bool) (message : StationCtrlMessage) :
    (∃ s, Accepted v now order isRoam message s ∧
      Alike (createVap v now s message.agent message.ssid)
      (excuteAddVap v now order isRoam message).1) ∨
    Upkeeps (· = message.agent) now v (excuteAddVap v now order isRoam message).1 := by
  rcases excuteAddVap_cases v now order isRoam message with ⟨s, accepted⟩ | same |
      ⟨sc, linked, other, closed⟩
  · refine .inl ⟨s, accepted, ?_⟩
    rw [accepted.excuteAddVap_eq]
    rfl
  · rw [same]
    exact .inr .refl
  · rw [closed]
    exact .inr (.single (.close order sc message.agent linked (silent_of_ne other) rfl))

theorem cmdTask_effect (key : Text) : Effect v now order (.cmd key) (cmdTask v now order key) := by
  unfold cmdTask
  split
  · exact .of_alike (.refl v)
  · rename_i appCmd waiting
    split
    · split
      · have dequeued (w : View) (same :
            Alike (excuteAddVap v now order false appCmd.message).1 w) :
            Effect v now order (.cmd key) w := by
          rcases excuteAddVap_effect v now order false appCmd.message with ⟨s, accepted, created⟩ |
              rest
          · exact .add false appCmd.message s (.queued key appCmd waiting) accepted
              (created.trans same)
          · exact .asked (.add false appCmd.message (.queued key appCmd waiting))
              (rest.trans (Upkeeps.of_alike same))
        dsimp only
        split
        · exact dequeued _ rfl
        · exact dequeued _ rfl
      · exact .of_alike rfl
    · exact .of_alike (.refl v)

theorem step_effect (op : Op) (grounded : GroundedView v) :
    Effect v now order op (step v now order op) := by
  -- what any operation does to a view of a run
  cases op with
  | accept => exact .accept
  | heard sc =>
      simp only [step, updateAgentHeard]
      split
      · exact .of_alike (.refl v)
      · rename_i a registered
        exact .heard sc a registered
  | localMac sc message => exact processMsgLocalMac_effect v now order sc message
  | heartBeat sc message written =>
      exact .of_alike (processMsgHeartBeat_alike v now sc message written)
  | newStation sc message => exact processMsgNewStation_effect v now order sc message grounded
  | delStation sc message => exact processMsgDelStation_effect v now order sc message
  | flowInfo sc message => exact processMsgFlowInfo_effect v now order sc message
  | probeInfo sc message => exact processMsgProbeInfo_effect v now order sc message
  | interfaceNum sc message => exact processMsgInterfaceNum_effect v now order sc message
  | ok sc message => exact processMsgOk_effect v now order sc message
  | err sc message =>
      refine .of_alike ?_
      simp only [step, processMsgErr]
      split
      · split
        · exact .refl v
        · exact rfl
      · exact .refl v
  | closeSocket sc => exact .close sc
  | addVap isRoam message =>
      rcases excuteAddVap_effect v now order isRoam message with ⟨s, accepted, created⟩ | rest
      · exact .add isRoam message s (.direct isRoam message) accepted created
      · exact .asked (.add isRoam message (.direct isRoam message)) rest
  | queueVap a staMacAddress mode ssid =>
      exact .of_alike (addVapContainer_queued v now order a staMacAddress mode ssid)
  | delVap roamType a s ssid =>
      exact .asked (.delete roamType a s ssid)
        (delVapContainer_upkeep v now order roamType a s ssid)
  | cancel message =>
      exact .upkeep ((cancelTask_upkeep v now order message).mono fun b cancels => .cancel message b
        cancels)
  | age => exact .age (ageTask_ages v now order grounded).1
  | cmd key => exact cmdTask_effect v now order key
  | task index written =>
      simp only [step]
      split
      · exact .of_alike (.refl v)
      · rename_i task waiting
        have asks (b : Ref) (fails : Fails task b) : Asks v order (.task index written) b :=
          .task index written task b waiting fails
        have moves := Upkeeps.mono asks
          (runTask_upkeep { v with tasks := v.tasks.eraseIdx index } now order task written)
        refine .upkeep (Relation.ReflTransGen.trans ?_ moves)
        exact Upkeeps.of_alike rfl
  | check index =>
      simp only [step]
      split
      · exact .of_alike (.refl v)
      · rename_i sendMsgId waiting
        have asks (b : Ref) (unconfirmed : Unconfirmed v sendMsgId b) :
            Asks v order (.check index) b :=
          .check index sendMsgId b waiting unconfirmed
        have moves := Upkeeps.mono asks
          (checkSendMsg_upkeep { v with checks := v.checks.eraseIdx index } now order sendMsgId)
        refine .upkeep (Relation.ReflTransGen.trans ?_ moves)
        exact Upkeeps.of_alike rfl

end Operations

/-! Every step keeps a view grounded. -/

theorem closeSocket_frees (v : View) (order : Order) (sc : Ref) (opened : v.isOpen sc = true) :
    (closeSocket v order sc).sc2AgentMap sc = none ∧
    ∀ mac a, (closeSocket v order sc).agentMap mac = some a → v.agentMap mac = some a := by
  -- closing a connection that is open frees it and the address of its agent
  have after := AgentRegistry.closeSocket_registry v order sc
  have openChannel : (AgentRegistry.registry v).isOpen sc = true := opened
  cases registered : (AgentRegistry.registry v).sc2AgentMap sc with
  | none =>
      simp only [AgentRegistry.Registry.close, openChannel, if_true, registered] at after
      refine ⟨(congrFun (congrArg AgentRegistry.Registry.sc2AgentMap after) sc).trans registered,
        ?_⟩
      intro mac a found
      exact (congrFun (congrArg AgentRegistry.Registry.agentMap after) mac).symm.trans found
  | some b =>
      simp only [AgentRegistry.Registry.close, openChannel, if_true, registered] at after
      constructor
      · exact (congrFun (congrArg AgentRegistry.Registry.sc2AgentMap after) sc).trans
          (Function.update_self _ _ _)
      · intro mac a found
        have here := (congrFun (congrArg AgentRegistry.Registry.agentMap after) mac).symm.trans
            found
        dsimp only at here
        by_cases same : mac = (AgentRegistry.registry v).mac b
        · rw [same, Function.update_self] at here
          cases here
        · rwa [Function.update_of_ne same] at here

theorem closeSocket_forgets (v : View) (order : Order) (sc a : Ref) (opened : v.isOpen sc = true)
    (registered : v.sc2AgentMap sc = some a) :
    (closeSocket v order sc).agentMap (v.agents a).macAddress = none := by
  have after := AgentRegistry.closeSocket_registry v order sc
  have openChannel : (AgentRegistry.registry v).isOpen sc = true := opened
  have named : (AgentRegistry.registry v).sc2AgentMap sc = some a := registered
  simp only [AgentRegistry.Registry.close, openChannel, if_true, named] at after
  exact (congrFun (congrArg AgentRegistry.Registry.agentMap after) _).trans
    (Function.update_self _ _ _)

theorem closeFormer_grounded (v : View) (order : Order) (sc : Ref) (mac : Text)
    (grounded : GroundedView v) :
    GroundedView (closeFormer v order sc mac) := by
  unfold closeFormer
  split
  · exact grounded
  · split
    · exact grounded
    · split
      · exact closeSocket_grounded v order _ grounded
      · exact grounded

theorem closeFormer_frees (v : View) (order : Order) (sc : Ref) (mac : Text)
    (grounded : GroundedView v) (a channel : Ref)
    (found : (closeFormer v order sc mac).agentMap mac = some a)
    (registered : (closeFormer v order sc mac).sc2AgentMap channel = some a) : channel = sc := by
  -- an agent that is found by its address and by a connection has that connection
  have link (same : v.agentMap mac = some a) (b : Ref) (old : v.agentMap mac = some b)
      (before : v.sc2AgentMap channel = some a) : (v.agents b).sc = some channel ∧
      v.isOpen channel = true := by
    obtain ⟨linked, opened, -⟩ := grounded.connected channel a before
    have one : b = a := Option.some.inj (old.symm.trans same)
    exact ⟨one ▸ linked, opened⟩
  unfold closeFormer at found registered
  cases old : v.agentMap mac with
  | none =>
      simp only [old] at found
      cases found
  | some b =>
      cases linked : (v.agents b).sc with
      | none =>
          simp only [old, linked] at found registered
          have here := (link (old.trans found) b old registered).1
          exact absurd (linked.symm.trans here) (by simp)
      | some agentSc =>
          by_cases same : agentSc = sc
          · subst same
            simp only [old, linked, ne_eq, not_true_eq_false, if_false] at found registered
            have here := (link (old.trans found) b old registered).1
            exact Option.some.inj (here.symm.trans linked)
          · simp only [old, linked, ne_eq, same, not_false_eq_true, if_true] at found registered
            cases opened : v.isOpen agentSc with
            | true =>
                obtain ⟨freed, kept⟩ := closeSocket_frees v order agentSc opened
                have before := (closeSocket_shrinks v order agentSc grounded).registered channel a
                    registered
                have here := (link (kept mac a found) b old before).1
                cases here.symm.trans linked
                exact absurd (freed.symm.trans registered) (by simp)
            | false =>
                have unchanged : closeSocket v order agentSc = v := by simp [closeSocket, opened]
                rw [unchanged] at found registered
                obtain ⟨here, channelOpen⟩ := link found b old registered
                cases here.symm.trans linked
                exact absurd (opened.symm.trans channelOpen) (by simp)

theorem registerAgent_grounded (v : View) (now : Int) (sc : Ref) (mac : Text)
    (grounded : GroundedView v) (opened : v.isOpen sc = true)
    (freed : ∀ a, v.agentMap mac = some a → ∀ channel, v.sc2AgentMap channel = some a →
      channel = sc) :
    GroundedView (registerAgent v now sc mac) := by
  have after := bindings_registerAgent v now sc mac
  cases known : v.socketMap sc with
  | true =>
      have maps : (registerAgent v now sc mac).agentMap =
          Function.update v.agentMap mac (some v.nextAgent) := by simp [registerAgent, known,
            mirror]
      have same : (registerAgent v now sc mac).isOpen =
          v.isOpen := by simp [registerAgent, known, mirror]
      rw [known, if_pos rfl] at after
      unfold GroundedView
      rw [after, maps, same]
      exact Grounded.register grounded mac sc opened freed
  | false =>
      have same : channels (registerAgent v now sc mac) = channels v := by
        simp [registerAgent, known, channels]
      rw [known, if_neg (by simp)] at after
      exact grounded_of after same (Grounded.createAgent grounded mac sc)

theorem setVapStatus_grounded (v : View) (c : Ref) (status : Status) (grounded : GroundedView v) :
    GroundedView (setVapStatus v c status) :=
  grounded_of (bindings_setVapStatus v c status) (channels_setVapStatus v c status)
    (Grounded.setVap grounded c status)

theorem setStationStatus_grounded (v : View) (s : Ref) (status : Status)
    (grounded : GroundedView v) :
    GroundedView (setStationStatus v s status) :=
  grounded_of (bindings_setStationStatus v s status) rfl (Grounded.setStatus grounded s status)

theorem setWorking_grounded (v : View) (s : Ref) (working : Option Ref)
    (grounded : GroundedView v) :
    GroundedView (setWorking v s working) :=
  grounded_of (bindings_setWorking v s working) rfl (Grounded.setWorking grounded s working)

theorem switchOff_grounded (v : View) (s c : Ref) (grounded : GroundedView v) :
    GroundedView (switchOff v s c) :=
  setVapStatus_grounded _ c .offLine (setStationStatus_grounded v s .offLine grounded)

theorem leaveVap_grounded (v : View) (now : Int) (s c : Ref) (grounded : GroundedView v) :
    GroundedView (leaveVap v now s c) := by
  have left : GroundedView (leftStation v s c) := by
    unfold leftStation
    split
    · exact setWorking_grounded _ s none (setStationStatus_grounded v s .offLine grounded)
    · exact grounded
  rw [leaveVap_eq]
  refine (alike_setLastProbeHeard _ c now).grounded ?_
  split
  · exact setVapStatus_grounded _ c .offLine left
  · exact left

theorem countTraffic_ground (v : View) (a s : Ref) (up down : Int64) :
    bindings (countTraffic v a s up down) = bindings v ∧
      channels (countTraffic v a s up down) = channels v := by
  unfold countTraffic
  simp only [bindings_setUpTraffic, bindings_setDownTraffic]
  split
  · exact ⟨by simp only [bindings_updateSumTraffic, bindings_addSumTraffic], rfl⟩
  · exact ⟨bindings_addSumTraffic v a _ _, rfl⟩

theorem Acknowledgement.grounded {v w : View} {a s c : Ref} (done : Acknowledgement v a s c w)
    (grounded : GroundedView v) : GroundedView w := by
  have off := switchOff_grounded v s c grounded
  cases done with
  | idle on free => exact off
  | cleared on here => exact setWorking_grounded _ s none off
  | elsewhere d on working other removed =>
      rcases removed with rfl | rfl
      · exact off
      · exact removeVap_grounded _ a s c off
  | offLine status removed =>
      rcases removed with rfl | rfl
      · exact grounded
      · exact removeVap_grounded v a s c grounded

theorem AgeMove.grounded {now : Int} {v w : View} (move : AgeMove now v w)
    (grounded : GroundedView v) :
    GroundedView w := by
  cases move with
  | upkeep move => exact move.grounded grounded
  | drop s c tracked off own listed => exact removeVap_grounded v _ s c grounded
  | untrack s tracked off idle => exact removeStation_grounded v s grounded idle tracked

theorem Ages.invariant {now : Int} {v w : View} (holds : View → Prop) (grounded : GroundedView v)
    (start : holds v) (kept : ∀ x y, GroundedView x → AgeMove now x y → holds x → holds y)
    (moves : Ages now v w) : GroundedView w ∧ holds w := by
  induction moves with
  | refl => exact ⟨grounded, start⟩
  | tail _ move ih => exact ⟨AgeMove.grounded move ih.1, kept _ _ ih.1 move ih.2⟩

theorem createVap_grounded (v : View) (now : Int) (order : Order) (isRoam : Bool)
    (message : StationCtrlMessage) (s : Ref) (grounded : GroundedView v)
    (accepted : Accepted v now order isRoam message s) :
    GroundedView (createVap v now s message.agent message.ssid) := by
  obtain ⟨sc, linked, -⟩ := accepted.connected
  have tracked := grounded.tracked _ s accepted.known
  refine grounded_of (bindings_createVap v now s message.agent message.ssid)
    (channels_agentAddVap _ message.agent v.nextVap)
    (added_grounded grounded message.ssid (grounded.linked message.agent sc linked) tracked.1 ?_)
  rw [tracked.2]
  exact accepted.known

theorem Effect.grounded {v w : View} {now : Int} {order : Order} {op : Op}
    (effect : Effect v now order op w) (grounded : GroundedView v) : GroundedView w := by
  have rest {who : Ref → Prop} {u x : View} (moves : Upkeeps who now u x)
      (before : GroundedView u) : GroundedView x :=
    (moves.invariant (fun _ => True) before trivial (fun _ _ _ _ _ => trivial)).1
  cases effect with
  | upkeep moves => exact rest moves grounded
  | accept =>
      refine { grounded with connected := ?_ }
      intro sc a found
      obtain ⟨linked, opened, named⟩ := grounded.connected sc a found
      refine ⟨linked, ?_, named⟩
      change Function.update v.isOpen v.nextSocket true sc = true
      by_cases same : sc = v.nextSocket
      · simp [same]
      · rw [Function.update_of_ne same]
        exact opened
  | heard sc a registered =>
      exact grounded_of (bindings_agent_frame v a _ rfl rfl rfl) rfl grounded
  | close sc => exact closeSocket_grounded v order sc grounded
  | displace sc message mac after taken => exact closeFormer_grounded v order sc mac grounded
  | register sc message mac after taken opened =>
      exact registerAgent_grounded _ now sc mac (closeFormer_grounded v order sc mac grounded)
        opened
        (fun a found channel => closeFormer_frees v order sc mac grounded a channel found)
  | create sc a message mac ssid report unknown moves =>
      have agent := registered_lt grounded (newReport_registered v order report)
      exact rest moves (createStation_grounded v now a mac ssid grounded agent unknown)
  | admitted sc a s message mac ssid report known admission moves =>
      have agent := registered_lt grounded (newReport_registered v order report)
      have named : (v.stations s).macAddress = mac := (grounded.tracked mac s known).2
      subst named
      exact rest moves (Admission.grounded admission grounded agent known)
  | leave sc a s c message mac ssid registered known stored left =>
      exact leaveVap_grounded v now s c grounded
  | flow sc s a message up down report =>
      obtain ⟨after, same⟩ := countTraffic_ground v a s up down
      exact grounded_of after same grounded
  | probe sc message info taken unknown same =>
      exact same.grounded (probeStation_grounded v info.staMacAddr grounded unknown)
  | inform sc a message mode totStaSize channel curPos registered taken =>
      exact grounded_of (bindings_informAgent v a totStaSize channel mode message curPos) rfl
        grounded
  | acknowledge sc a s c message mac ssid same registered known stored listed done =>
      exact Acknowledgement.grounded done (same.grounded grounded)
  | add isRoam message s adds accepted same =>
      exact same.grounded (createVap_grounded v now order isRoam message s grounded accepted)
  | age moves =>
      exact (Ages.invariant (fun _ => True) grounded trivial (fun _ _ _ _ _ => trivial) moves).1

theorem grounded_empty : GroundedView View.empty where
  held := by simp [bindings, View.empty]
  stored := by simp [bindings, View.empty]
  vapAgent := fun c old => absurd old (Nat.not_lt_zero c)
  vapStation := fun c old => absurd old (Nat.not_lt_zero c)
  tracked := by simp [bindings, View.empty]
  registered := by simp [View.empty]
  connected := by simp [bindings, View.empty]
  linked := by simp [bindings, View.empty]

theorem next_grounded (v : View) (event : Event) (grounded : GroundedView v) :
    GroundedView (next v event) :=
  (step_effect v event.now event.order event.op grounded).grounded grounded

theorem reached_grounded {allowed : View → Event → Prop} {v : View}
    (reached : Runs.Reaches next allowed View.empty v) :
    GroundedView v :=
  reached.invariant GroundedView grounded_empty (fun x event _ => next_grounded x event)

/-! Changes by which the view only loses something. Most effects are made of them, so what they
all keep need not be looked at operation by operation. -/

inductive Loss : View → View → Prop where
  | alike {v w : View} (same : Alike v w) : Loss v w
  | release (v : View) (a c : Ref) : Loss v (agentRemoveVap v a c)
  | drop (v : View) (s c : Ref) : Loss v (stationRemoveVap v s c)
  | off (v : View) (s : Ref) : Loss v (setStationStatus v s .offLine)
  | idle (v : View) (s : Ref) : Loss v (setWorking v s none)
  | fold (v : View) (s : Ref) (off : (v.stations s).status = .offLine) :
      Loss v (updateSumTraffic v s)
  | vapOff (v : View) (c : Ref) : Loss v (setVapStatus v c .offLine)
  | shut (v : View) (sc a : Ref) : Loss v (shut v sc a)
  | closed (v : View) (sc : Ref) : Loss v { v with isOpen := Function.update v.isOpen sc false }
  | untrack (v : View) (mac : Text) : Loss v (removeStation v mac)

abbrev Losses : View → View → Prop := Relation.ReflTransGen Loss

theorem Losses.of_alike {v w : View} (same : Alike v w) : Losses v w := .single (.alike same)

theorem Losses.rule {v w : View} (keeps : View → View → Prop) (refl : ∀ x, keeps x x)
    (trans : ∀ x y z, keeps x y → keeps y z → keeps x z) (each : ∀ x y, Loss x y → keeps x y)
    (moves : Losses v w) : keeps v w := by
  induction moves with
  | refl => exact refl v
  | tail _ move ih => exact trans _ _ _ ih (each _ _ move)

theorem losses_shrinks {v w : View} (moves : Losses v w) : Shrinks (bindings v) (bindings w) := by
  refine moves.rule (fun x y => Shrinks (bindings x) (bindings y)) (fun x => .refl _)
    (fun _ _ _ first second => first.trans second) ?_
  intro x y move
  cases move with
  | alike same =>
      rw [same.bindings]
      exact .refl _
  | release a c =>
      rw [bindings_agentRemoveVap]
      exact shrinks_release _ a c
  | drop s c =>
      rw [bindings_stationRemoveVap]
      exact shrinks_drop _ s c
  | off s =>
      rw [bindings_setStationStatus]
      exact shrinks_setStatus_off _ s
  | idle s =>
      rw [bindings_setWorking]
      exact shrinks_setWorking _ s none
  | fold s off =>
      rw [bindings_updateSumTraffic]
      exact .refl _
  | vapOff c =>
      rw [bindings_setVapStatus]
      exact shrinks_setVap_off _ c
  | shut sc a => exact shut_shrinks x sc a
  | closed sc => exact .refl _
  | untrack mac => exact { Shrinks.refl _ with tracked := fun _ _ found => lookup_erase_some found }

theorem losses_resetVap (v : View) (a c : Ref) (grounded : GroundedView v) :
    Losses v (resetVap v a c) := by
  rcases resetVap_cases v a c grounded with ⟨-, result⟩ | ⟨-, -, result⟩ | ⟨-, -, result⟩
  · rw [result]
    exact .single (.release v a c)
  · rw [result]
    exact .tail (.single (.drop v _ c)) (.release _ a c)
  · rw [result]
    refine .tail (.tail (.tail (.tail (.single (.drop v _ c)) (.off _ _)) (.idle _ _))
      (.fold _ _ ?_)) (.release _ a c)
    simp [setWorking, setStationStatus, updStation, mirror]

theorem losses_closeSocket (v : View) (order : Order) (sc : Ref) (grounded : GroundedView v) :
    Losses v (closeSocket v order sc) :=
  closeSocket_induct v order sc (Losses v) grounded .refl
    (fun _ _ same before => before.tail (.alike same))
    (fun w a c ground _ _ before => before.trans (losses_resetVap w a c ground))
    (fun w a _ _ _ before => before.tail (.shut w sc a))
    (fun _ => .single (.closed v sc))

theorem losses_closeFormer (v : View) (order : Order) (sc : Ref) (mac : Text)
    (grounded : GroundedView v) :
    Losses v (closeFormer v order sc mac) := by
  unfold closeFormer
  split
  · exact .refl
  · split
    · exact .refl
    · split
      · exact losses_closeSocket v order _ grounded
      · exact .refl

theorem losses_upkeep {who : Ref → Prop} {now : Int} {v w : View} (move : Upkeep who now v w)
    (grounded : GroundedView v) :
    Losses v w := by
  cases move with
  | alike same => exact .of_alike same
  | close order sc b linked silent asked => exact losses_closeSocket v order sc grounded

theorem losses_upkeeps {who : Ref → Prop} {now : Int} {v w : View} (moves : Upkeeps who now v w)
    (grounded : GroundedView v) :
    Losses v w :=
  (moves.invariant (Losses v) grounded .refl
    (fun _ _ ground move before => before.trans (losses_upkeep move ground))).2

theorem losses_removeVap (v : View) (a s c : Ref) : Losses v (removeVap v a s c) :=
  .tail (.single (.release v a c)) (.drop _ s c)

theorem losses_ages {now : Int} {v w : View} (moves : Ages now v w) (grounded : GroundedView v) :
    Losses v w := by
  refine (Ages.invariant (Losses v) grounded .refl ?_ moves).2
  intro x y ground move before
  cases move with
  | upkeep move => exact before.trans (losses_upkeep move ground)
  | drop s c tracked off own listed => exact before.trans (losses_removeVap x _ s c)
  | untrack s tracked off idle => exact before.tail (.untrack x _)

theorem losses_acknowledgement {v w : View} {a s c : Ref} (done : Acknowledgement v a s c w) :
    Losses v w := by
  have off : Losses v (switchOff v s c) := .tail (.single (.off v s)) (.vapOff _ c)
  cases done with
  | idle on free => exact off
  | cleared on here => exact off.tail (.idle _ s)
  | elsewhere d on working other removed =>
      rcases removed with rfl | rfl
      · exact off
      · exact off.trans (losses_removeVap _ a s c)
  | offLine status removed =>
      rcases removed with rfl | rfl
      · exact .refl
      · exact losses_removeVap v a s c

theorem losses_leaveVap (v : View) (now : Int) (s c : Ref) : Losses v (leaveVap v now s c) := by
  have left : Losses v (leftStation v s c) := by
    unfold leftStation
    split
    · exact .tail (.single (.off v s)) (.idle _ s)
    · exact .refl
  rw [leaveVap_eq]
  refine Relation.ReflTransGen.tail ?_ (.alike (alike_setLastProbeHeard _ c now))
  split
  · exact left.tail (.vapOff _ c)
  · exact left

theorem losses_working {v w : View} (moves : Losses v w) :
    ∀ s c, (bindings w).working s = some c → (bindings v).working s = some c := by
  refine moves.rule (fun x y => ∀ s c, (bindings y).working s = some c →
    (bindings x).working s = some c)
    (fun _ _ _ same => same)
      (fun _ _ _ first second s c working => first s c (second s c working)) ?_
  intro x y move s c working
  cases move with
  | alike same => exact same.bindings ▸ working
  | release a d => rwa [bindings_agentRemoveVap] at working
  | drop t d => rwa [bindings_stationRemoveVap] at working
  | off t => rwa [bindings_setStationStatus] at working
  | idle t =>
      rw [bindings_setWorking] at working
      by_cases same : s = t
      · subst same
        simp [Bindings.setWorking] at working
      · exact (Function.update_of_ne same _ _).symm.trans working
  | fold t off => rwa [bindings_updateSumTraffic] at working
  | vapOff d => rwa [bindings_setVapStatus] at working
  | shut sc a => rwa [bindings_shut] at working
  | closed sc => exact working
  | untrack mac => exact working

def heard (v : View) (a : Ref) : Option Ref × Int := ((v.agents a).sc, (v.agents a).lastHeard)

theorem heard_updAgent (v : View) (a b : Ref) (change : Agent → Agent)
    (same : ((change (v.agents a)).sc, (change (v.agents a)).lastHeard) = heard v a) :
    heard (updAgent v a change) b = heard v b := by
  by_cases here : b = a
  · subst here
    simpa [heard, updAgent] using same
  · simp [heard, updAgent, here]

theorem agentStatus_of_heard {v w : View} {b : Ref} (same : heard w b = heard v b) (now : Int) :
    agentStatus w b now = agentStatus v b now := by
  have last : (w.agents b).lastHeard = (v.agents b).lastHeard := congrArg Prod.snd same
  simp only [agentStatus, last]

theorem heard_setVapStatus (v : View) (c : Ref) (status : Status) (b : Ref) :
    heard (setVapStatus v c status) b = heard v b := by
  cases before : (v.vaps c).status <;> cases status <;> simp only [setVapStatus, before]
  · rfl
  · exact heard_updAgent v _ b
      (fun agent => { agent with staCountOnline := agent.staCountOnline - 1 }) rfl
  · exact heard_updAgent v _ b
      (fun agent => { agent with staCountOnline := agent.staCountOnline + 1 }) rfl
  · rfl

theorem heard_agentAddVap (v : View) (a c b : Ref) : heard (agentAddVap v a c) b = heard v b := by
  unfold agentAddVap
  split
  · rfl
  · exact heard_updAgent v a b _ rfl

theorem heard_agentRemoveVap (v : View) (a c b : Ref) :
    heard (agentRemoveVap v a c) b = heard v b := by
  unfold agentRemoveVap
  split
  · exact heard_updAgent v a b _ rfl
  · rfl

theorem admission_heard {v w : View} {now : Int} {s a : Ref} {ssid : Text}
    (admission : Admission v now s a ssid w) (b : Ref) : heard w b = heard v b := by
  have resumes (u : View) (c : Ref) : heard (resumeVap u now s c) b = heard u b :=
    heard_setVapStatus u c .onLine b
  cases admission with
  | unchanged same => exact same.read fun x => heard x b
  | resume c same stored switches => exact (resumes _ c).trans (same.read fun x => heard x b)
  | @join u same absent switches free =>
      refine (heard_agentAddVap _ a u.nextVap b).trans (Eq.trans ?_ (same.read fun x => heard x b))
      exact heard_setVapStatus (newVapContainer u s a ssid) u.nextVap .onLine b
  | adopt c absent unlinked held => exact heard_setVapStatus v c .onLine b
  | stray same linked absent off => exact (resumes _ v.nextVap).trans (same.read fun x => heard x b)

theorem losses_heard {v w : View} (moves : Losses v w) :
    ∀ b sc, (w.agents b).sc = some sc → heard w b = heard v b := by
  refine moves.rule (fun x y => ∀ b sc, (y.agents b).sc = some sc → heard y b = heard x b)
    (fun _ _ _ _ => rfl) ?_ ?_
  · intro x y z first second b sc linked
    have later := second b sc linked
    exact later.trans (first b sc ((congrArg Prod.fst later).symm.trans linked))
  · intro x y move b sc linked
    cases move with
    | alike same => exact same.read fun v => heard v b
    | release a d => exact heard_agentRemoveVap x a d b
    | drop t d => rfl
    | off t => rfl
    | idle t => rfl
    | fold t off => rfl
    | vapOff d => exact heard_setVapStatus x d .offLine b
    | shut channel a =>
        by_cases here : b = a
        · subst here
          simp [shut, removeAgent, mirror, updAgent] at linked
        · simp [heard, shut, removeAgent, mirror, updAgent, here]
    | closed channel => rfl
    | untrack mac => rfl

end LazyAS.StepEffects

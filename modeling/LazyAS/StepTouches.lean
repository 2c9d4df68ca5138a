import LazyAS.ViewMoves

/-! Who sets the times of stations and containers. Few assignments do: a station is heard, a
container is probed, a new container is probed at once and a new station starts at zero. The aging
run does more and is left out, and so are the two operations that work on the queue of commands,
which no other one touches. -/
namespace LazyAS.StepTouches
open WireText ControllerView Master ViewGround ViewMoves
open VapBindings (comp_update_same)

structure Marks where
  heard : Ref → Int
  probed : Ref → Int
  saved : Ref → Int
  owner : Ref → Ref
  nextStation : Ref
  nextVap : Ref
  cmdQueue : AList fun _ : Text => AppCmd
  cmdTaskRuns : Bool

def marks (v : View) : Marks where
  heard := Station.lastHeard ∘ v.stations
  probed := VapContainer.lastProbeHeard ∘ v.vaps
  saved := VapContainer.savedProbeHeard ∘ v.vaps
  owner := VapContainer.station ∘ v.vaps
  nextStation := v.nextStation
  nextVap := v.nextVap
  cmdQueue := v.cmdQueue
  cmdTaskRuns := v.cmdTaskRuns

namespace Marks

variable (m : Marks)

def hear (s : Ref) (now : Int) : Marks := { m with heard := Function.update m.heard s now }

def probe (c : Ref) (now : Int) : Marks := { m with probed := Function.update m.probed c now }

def create (s : Ref) : Marks :=
  { m with
    probed := Function.update m.probed m.nextVap 0
    saved := Function.update m.saved m.nextVap 0
    owner := Function.update m.owner m.nextVap s
    nextVap := m.nextVap + 1 }

def spawn (s : Ref) (now : Int) : Marks := (m.create s).probe m.nextVap now

def arrive : Marks :=
  { m with heard := Function.update m.heard m.nextStation 0, nextStation := m.nextStation + 1 }

end Marks

inductive Touch (now : Int) : Marks → Marks → Prop where
  | hear (m : Marks) (s : Ref) : Touch now m (m.hear s now)
  | probe (m : Marks) (c : Ref) : Touch now m (m.probe c now)
  | spawn (m : Marks) (s : Ref) : Touch now m (m.spawn s now)
  | arrive (m : Marks) : Touch now m m.arrive

abbrev Touches (now : Int) : Marks → Marks → Prop := Relation.ReflTransGen (Touch now)

theorem Touches.of_eq {now : Int} {m n : Marks} (same : n = m) : Touches now m n := by
  rw [same]

theorem Touches.hear {now : Int} {m n : Marks} (moves : Touches now m n) (s : Ref) :
    Touches now m (n.hear s now) :=
  moves.tail (.hear n s)

theorem Touches.probe {now : Int} {m n : Marks} (moves : Touches now m n) (c : Ref) :
    Touches now m (n.probe c now) :=
  moves.tail (.probe n c)

theorem Touches.spawn {now : Int} {m n : Marks} (moves : Touches now m n) (s : Ref) :
    Touches now m (n.spawn s now) :=
  moves.tail (.spawn n s)

theorem Touches.arrive {now : Int} {m n : Marks} (moves : Touches now m n) :
    Touches now m n.arrive :=
  moves.tail (.arrive n)

theorem Touches.rule {now : Int} {m n : Marks} (keeps : Marks → Marks → Prop)
    (refl : ∀ x, keeps x x) (trans : ∀ x y z, keeps x y → keeps y z → keeps x z)
    (each : ∀ x y, Touch now x y → keeps x y) (moves : Touches now m n) : keeps m n := by
  induction moves with
  | refl => exact refl m
  | tail _ move ih => exact trans _ _ _ ih (each _ _ move)

theorem touches_queue {now : Int} {m n : Marks} (moves : Touches now m n) :
    n.cmdQueue = m.cmdQueue ∧ n.cmdTaskRuns = m.cmdTaskRuns := by
  refine moves.rule (fun x y => y.cmdQueue = x.cmdQueue ∧ y.cmdTaskRuns = x.cmdTaskRuns)
    (fun _ => ⟨rfl, rfl⟩)
    (fun _ _ _ first second => ⟨second.1.trans first.1, second.2.trans first.2⟩) ?_
  intro x y move
  cases move <;> exact ⟨rfl, rfl⟩

section Assignments

variable (v : View)

@[simp] theorem marks_mirror (write : Redis.Hashes → Redis.Hashes) :
    marks (mirror v write) = marks v := rfl

@[simp] theorem marks_updAgent (a : Ref) (change : Agent → Agent) :
    marks (updAgent v a change) = marks v := rfl

theorem marks_station_frame (s : Ref) (change : Station → Station)
    (kept : (change (v.stations s)).lastHeard = (v.stations s).lastHeard) :
    marks (updStation v s change) = marks v := by
  unfold marks updStation
  rw [comp_update_same Station.lastHeard v.stations s _ kept]

theorem marks_vap_frame (c : Ref) (change : VapContainer → VapContainer)
    (probed : (change (v.vaps c)).lastProbeHeard = (v.vaps c).lastProbeHeard)
    (saved : (change (v.vaps c)).savedProbeHeard = (v.vaps c).savedProbeHeard)
    (owner : (change (v.vaps c)).station = (v.vaps c).station) :
    marks (updVap v c change) = marks v := by
  unfold marks updVap
  rw [comp_update_same VapContainer.lastProbeHeard v.vaps c _ probed,
    comp_update_same VapContainer.savedProbeHeard v.vaps c _ saved,
    comp_update_same VapContainer.station v.vaps c _ owner]

@[simp] theorem marks_setStationStatus (s : Ref) (status : Status) :
    marks (setStationStatus v s status) = marks v :=
  marks_station_frame v s (fun station => { station with status := status }) rfl

@[simp] theorem marks_setWorking (s : Ref) (working : Option Ref) :
    marks (setWorking v s working) = marks v :=
  marks_station_frame v s (fun station => { station with workingVapContainer := working }) rfl

@[simp] theorem marks_updateSumTraffic (s : Ref) : marks (updateSumTraffic v s) = marks v :=
  marks_station_frame v s (fun station => { station with
    sumDownTraffic := station.sumDownTraffic + station.downTraffic
    sumUpTraffic := station.sumUpTraffic + station.upTraffic
    downTraffic := 0
    upTraffic := 0 }) rfl

@[simp] theorem marks_setUpTraffic (s : Ref) (upTraffic : Int64) :
    marks (setUpTraffic v s upTraffic) = marks v :=
  marks_station_frame v s (fun station => { station with upTraffic := upTraffic }) rfl

@[simp] theorem marks_setDownTraffic (s : Ref) (downTraffic : Int64) :
    marks (setDownTraffic v s downTraffic) = marks v :=
  marks_station_frame v s (fun station => { station with downTraffic := downTraffic }) rfl

@[simp] theorem marks_stationAddVap (s c : Ref) : marks (stationAddVap v s c) = marks v :=
  marks_station_frame v s (fun station =>
    { station with vapContainerSet := station.vapContainerSet.insert (vapKey v c) c }) rfl

@[simp] theorem marks_stationRemoveVap (s c : Ref) : marks (stationRemoveVap v s c) = marks v :=
  marks_station_frame v s (fun station =>
    { station with vapContainerSet := station.vapContainerSet.erase (vapKey v c) }) rfl

@[simp] theorem marks_setVapStatus (c : Ref) (status : Status) :
    marks (setVapStatus v c status) = marks v := by
  unfold setVapStatus
  dsimp only
  split
  · exact marks_vap_frame (updAgent v _ _) c _ rfl rfl rfl
  · exact marks_vap_frame (updAgent v _ _) c _ rfl rfl rfl
  · exact marks_vap_frame v c _ rfl rfl rfl

@[simp] theorem marks_agentAddVap (a c : Ref) : marks (agentAddVap v a c) = marks v := by
  unfold agentAddVap
  split <;> rfl

@[simp] theorem marks_agentRemoveVap (a c : Ref) : marks (agentRemoveVap v a c) = marks v := by
  unfold agentRemoveVap
  split <;> rfl

@[simp] theorem marks_stationHeard (s : Ref) (now : Int) (mode : Option Text) :
    marks (stationHeard v s now mode) = (marks v).hear s now := by
  unfold marks stationHeard updStation Marks.hear
  rw [Function.comp_update]

@[simp] theorem marks_setLastProbeHeard (c : Ref) (now : Int) :
    marks (setLastProbeHeard v c now) = (marks v).probe c now := by
  unfold marks setLastProbeHeard updVap Marks.probe
  dsimp only
  rw [Function.comp_update,
    comp_update_same VapContainer.savedProbeHeard v.vaps c { v.vaps c with lastProbeHeard := now }
    rfl, comp_update_same VapContainer.station v.vaps c { v.vaps c with lastProbeHeard := now } rfl]

@[simp] theorem marks_newVapContainer (s a : Ref) (ssid : Text) :
    marks (newVapContainer v s a ssid) = (marks v).create s := by
  unfold marks newVapContainer Marks.create
  dsimp only
  rw [Function.comp_update, Function.comp_update, Function.comp_update]

@[simp] theorem marks_bringOnline (now : Int) (s c : Ref) :
    marks (bringOnline v now s c) = (marks v).probe c now := by
  simp [bringOnline]

@[simp] theorem marks_resetVap (a c : Ref) : marks (resetVap v a c) = marks v := by
  unfold resetVap
  simp only [marks_agentRemoveVap]
  split
  · split <;> simp
  · rfl

theorem marks_foldl {Item : Type} (body : View → Item → View)
    (each : ∀ w item, marks (body w item) = marks w) (items : List Item) :
    marks (items.foldl body v) = marks v :=
  Runs.foldl_within (fun v w => marks w = marks v) (fun _ => rfl)
    (fun first second => second.trans first) body
    each items v

theorem touches_foldl {Item : Type} (now : Int) (body : View → Item → View)
    (each : ∀ w item, Touches now (marks w) (marks (body w item))) (items : List Item) :
    Touches now (marks v) (marks (items.foldl body v)) :=
  Runs.foldl_within (fun v w => Touches now (marks v) (marks w)) (fun _ => .refl)
    Relation.ReflTransGen.trans body
    each items v

@[simp] theorem marks_closeSocket (order : Order) (sc : Ref) :
    marks (closeSocket v order sc) = marks v := by
  unfold closeSocket
  split
  · dsimp only
    cases v.sc2AgentMap sc with
    | none => rfl
    | some a =>
        have emptied : marks (clearVaps { v with socketMap := Function.update v.socketMap sc false }
            order a) =
            marks v := marks_foldl _ _ (fun w c => marks_resetVap w a c) _
        exact emptied
  · rfl

end Assignments

section Handlers

variable (v : View) (now : Int) (order : Order)

@[simp] theorem marks_delVapContainer (roamType : Option RoamType) (a s : Ref) (ssid : Text) :
    marks (delVapContainer v now order roamType a s ssid) = marks v := by
  unfold delVapContainer
  split
  · rfl
  · split
    · split
      · split <;> rfl
      · exact marks_closeSocket v order _
    · rfl

theorem touches_excuteAddVap (isRoam : Bool) (message : StationCtrlMessage) :
    Touches now (marks v) (marks (excuteAddVap v now order isRoam message).1) := by
  have created (s a : Ref) (ssid : Text) :
      Touches now (marks v) (marks (createVap v now s a ssid)) := by
    simp only [createVap, marks_stationAddVap, marks_agentAddVap, marks_setLastProbeHeard,
      marks_newVapContainer]
    exact Touches.spawn .refl _
  unfold excuteAddVap
  dsimp only
  split
  · exact .refl
  · split
    · split
      · exact .refl
      · split
        · split
          · exact .refl
          · exact .refl
          · split
            · exact .refl
            · exact created _ _ _
        · exact .of_eq (marks_closeSocket v order _)
    · exact .refl

theorem marks_cancelTask (message : StationCtrlMessage) :
    marks (cancelTask v now order message) = marks v := by
  unfold cancelTask
  simp only [agentSetContains]
  split
  · rfl
  · split
    · split
      · split <;> rfl
      · split <;> rfl
      · split
        · exact marks_closeSocket v order _
        · rfl
      · rfl
    · rfl

theorem marks_processMsgLocalMac (sc : Ref) (message : Text) :
    marks (processMsgLocalMac v now order sc message) = marks v := by
  have registered (w : View) (mac : Text) (same : marks w = marks v) :
      marks (if w.isOpen sc then registerAgent w now sc mac else w) = marks v := by
    split
    · rw [← same]
      unfold registerAgent
      dsimp only
      split <;> rfl
    · exact same
  unfold processMsgLocalMac
  split
  · rfl
  · apply registered
    split
    · rfl
    · split
      · rfl
      · split
        · exact marks_closeSocket v order _
        · rfl

theorem touches_newStationKnown (s a : Ref) (ssid : Text) (grounded : GroundedView v)
    (linked : isLinked v s a = true) :
    Touches now (marks v) (marks (newStationKnown v now s a ssid).1) := by
  have heard : Touches now (marks v) (marks (stationHeard v s now (v.agents a).mode)) := by
    rw [marks_stationHeard]
    exact .hear .refl s
  unfold newStationKnown
  dsimp only
  split
  · split
    · exact heard
    · split
      · exact heard
      · split
        · simp only [marks_setStationStatus, marks_updateSumTraffic, marks_bringOnline]
          exact heard.probe _
        · simp only [marks_agentAddVap, marks_setWorking, marks_stationAddVap, marks_setVapStatus,
            marks_setLastProbeHeard, marks_newVapContainer]
          exact Touches.spawn heard _
  · cases found : stationVap v s a ssid with
    | some c =>
        dsimp only
        split
        · simp only [marks_setStationStatus, marks_updateSumTraffic, marks_bringOnline,
            marks_stationHeard]
          exact Touches.probe (.hear .refl s) _
        · exact .refl
    | none =>
        -- the new container changes nothing in the set of agents
        have still : agentSetContains (newVapContainer v s a ssid) s (.agent a) = true := by
          unfold isLinked at linked
          simp only [Bool.and_eq_true] at linked
          rw [agentSetContains, newVapContainer_agentSet v s a ssid grounded]
          exact linked.1
        simp only [still, if_true, marks_setStationStatus, marks_updateSumTraffic,
          marks_bringOnline, marks_stationHeard, marks_newVapContainer]
        have spawned : (((marks v).create s).hear s now).probe v.nextVap now =
            ((marks v).spawn s now).hear s now := rfl
        rw [spawned]
        exact Touches.hear (.spawn .refl s) s

theorem touches_newStationLink (s a : Ref) (ssid : Text) :
    Touches now (marks v) (marks (newStationLink v now s a ssid)) := by
  unfold newStationLink
  simp only [marks_stationHeard]
  refine Touches.hear ?_ s
  split
  · exact .refl
  · split
    · simp only [marks_agentAddVap, marks_setWorking, marks_stationAddVap, marks_setVapStatus,
        marks_setLastProbeHeard, marks_newVapContainer]
      exact Touches.spawn .refl _
    · simp only [marks_setWorking, marks_stationAddVap, marks_setVapStatus, marks_setLastProbeHeard]
      exact .probe .refl _

theorem touches_createStation (a : Ref) (staMacAddr ssid : Text) :
    Touches now (marks v) (marks (createStation v now a staMacAddr ssid)) := by
  have arrived (station : Station) (new : station.lastHeard = 0) :
      marks { v with stations := Function.update v.stations v.nextStation station,
                     nextStation := v.nextStation + 1 } =
        (marks v).arrive := by
    unfold marks Marks.arrive
    dsimp only
    rw [Function.comp_update, new]
  simp only [createStation, addStation, marks_mirror]
  refine Relation.ReflTransGen.trans (.single (.arrive _)) ?_
  rw [← arrived { macAddress := staMacAddr, status := .onLine } rfl]
  have stored := (marks_agentAddVap (stationAddVap (bringOnline (newVapContainer { v with
    stations := Function.update v.stations v.nextStation
      { macAddress := staMacAddr, status := .onLine }
    nextStation := v.nextStation + 1 } v.nextStation a ssid) now v.nextStation v.nextVap)
      v.nextStation v.nextVap) a v.nextVap)
  refine Relation.ReflTransGen.trans ?_ (Touches.of_eq stored)
  rw [marks_stationAddVap, marks_bringOnline, marks_newVapContainer]
  exact Touches.spawn .refl _

theorem touches_processMsgNewStation (sc : Ref) (message : Text) (grounded : GroundedView v) :
    Touches now (marks v) (marks (processMsgNewStation v now order sc message)) := by
  have admitted (a : Ref) (staMacAddr ssid : Text) :
      Touches now (marks v) (marks (admitStation v now a staMacAddr ssid).1.1) := by
    unfold admitStation
    split
    · exact (touches_createStation v now a staMacAddr ssid).trans
        (touches_newStationLink _ now _ a ssid)
    · split
      · exact touches_newStationKnown v now _ a ssid grounded ‹_›
      · exact touches_newStationLink v now _ a ssid
  unfold processMsgNewStation
  split
  · split
    · exact .refl
    · dsimp only
      split
      · refine (admitted _ _ _).trans (Touches.of_eq (marks_foldl _ _ ?_ _))
        intro w c
        split
        · exact marks_delVapContainer w now order _ _ _ _
        · rfl
      · exact admitted _ _ _
  · exact .refl

theorem touches_processMsgDelStation (sc : Ref) (message : Text) :
    Touches now (marks v) (marks (processMsgDelStation v now order sc message)) := by
  unfold processMsgDelStation
  split
  · split
    · split
      · exact .refl
      · unfold leaveVap
        simp only [marks_setLastProbeHeard]
        refine Touches.probe (.of_eq ?_) _
        split
        · split <;> simp
        · split <;> simp
    · exact .refl
  · exact .refl

theorem marks_processMsgFlowInfo (sc : Ref) (message : Text) :
    marks (processMsgFlowInfo v sc message) = marks v := by
  rw [processMsgFlowInfo_eq]
  split
  · rfl
  · unfold countTraffic
    simp only [marks_setUpTraffic, marks_setDownTraffic]
    split
    · rw [marks_updateSumTraffic]
      rfl
    · rfl

theorem touches_processMsgProbeInfo (sc : Ref) (message : Text) :
    Touches now (marks v) (marks (processMsgProbeInfo v now order sc message)) := by
  have seen (mac : Text) : Touches now (marks v) (marks (probeStation v mac).1) := by
    unfold probeStation
    split
    · exact .refl
    · simp only [addStation, marks_mirror]
      have arrived : marks { v with
          stations := Function.update v.stations v.nextStation
            { macAddress := mac, status := .offLine }
          nextStation := v.nextStation + 1 } = (marks v).arrive := by
        unfold marks Marks.arrive
        dsimp only
        rw [Function.comp_update]
      exact Relation.ReflTransGen.trans (Touches.arrive .refl) (Touches.of_eq arrived)
  have heard (w : View) (s : Ref) (mode : Option Text) :
      Touches now (marks w) (marks (stationHeard w s now mode)) := by
    rw [marks_stationHeard]
    exact .hear .refl s
  unfold processMsgProbeInfo
  split
  · dsimp only
    split
    · split
      · exact seen _
      · refine (seen _).trans ((heard _ _ _).trans (touches_foldl _ now _ (fun w ssid => ?_) _))
        split
        · rw [marks_setLastProbeHeard]
          exact .probe .refl _
        · exact .refl
    · exact seen _
  · exact .refl

theorem marks_processMsgOk (sc : Ref) (message : Text) :
    marks (processMsgOk v now order sc message) = marks v := by
  have acknowledged (w : View) (a s : Ref) (ssid : Text) : marks (acknowledgeDel w now a s ssid) =
      marks w := by
    have removed (x : View) (c : Ref) (same : marks x = marks w) :
        marks (if (x.agentMap (x.agents a).macAddress).isSome ∧ agentStatus x a now = .onLine then
          stationRemoveVap (agentRemoveVap x a c) s c else x) = marks w := by
      split
      · simpa using same
      · exact same
    unfold acknowledgeDel
    split
    · split
      · rfl
      · dsimp only
        split
        · split
          · simp
          · split
            · simp
            · exact removed _ _ (by simp)
        · split
          · exact removed _ _ (by simp)
          · exact removed _ _ rfl
    · rfl
  unfold processMsgOk
  split
  · dsimp only
    split
    · rfl
    · split
      · split
        · split
          · rfl
          · exact marks_delVapContainer (putSendMsg v _ _) now order _ _ _ _
        · rfl
      · split
        · rfl
        · exact acknowledged (putSendMsg v _ _) _ _ _
      · rfl
      · rfl
  · rfl

theorem marks_checkSendMsg (sendMsgId : Text) :
    marks (checkSendMsg v now order sendMsgId) = marks v := by
  unfold checkSendMsg
  split
  · rfl
  · split
    · rfl
    · exact marks_cancelTask v now order _
    · exact marks_cancelTask v now order _

theorem marks_sendCommand (a : Ref) (frame : Text → Text) (message : StationCtrlMessage)
    (written : Bool) :
    marks (sendCommand v now order a frame message written) = marks v := by
  unfold sendCommand
  dsimp only
  split
  · exact marks_cancelTask _ now order message
  · split
    · split
      · split <;> rfl
      · exact marks_cancelTask _ now order message
    · split
      · exact marks_cancelTask _ now order message
      · rfl

theorem marks_runTask (task : Task) (written : Bool) :
    marks (runTask v now order task written) = marks v := by
  unfold runTask
  cases task with
  | add a s message => exact marks_sendCommand v now order a _ message written
  | del roamType a s ssid => exact marks_sendCommand v now order a _ _ written
  | putSendMsg sendMsgId message => rfl
  | schedule sendMsgId => rfl

theorem marks_informAgent (a : Ref) (totStaSize channel : Int) (mode message : Text)
    (curPos : Int) :
    marks (informAgent v a totStaSize channel mode message curPos) = marks v := by
  rw [informAgent, marks_mirror, marks_updAgent]

theorem marks_processMsgErr (sc : Ref) (message : Text) :
    marks (processMsgErr v sc message) = marks v := by
  unfold processMsgErr
  split
  · dsimp only
    split
    · rfl
    · rfl
  · rfl

theorem marks_dropVap (s c : Ref) : marks (dropVap v now order s c) = marks v := by
  unfold dropVap
  simp

def plain : Op → Bool
  | .age | .cmd _ | .queueVap .. => false
  | _ => true

theorem step_touches (op : Op) (quiet : plain op = true) (grounded : GroundedView v) :
    Touches now (marks v) (marks (step v now order op)) := by
  cases op with
  | accept => exact .refl
  | heard sc =>
      refine .of_eq ?_
      simp only [step, updateAgentHeard]
      split <;> rfl
  | localMac sc message => exact .of_eq (marks_processMsgLocalMac v now order sc message)
  | heartBeat sc message written =>
      refine .of_eq ?_
      simp only [step, processMsgHeartBeat]
      split
      · rfl
      · split <;> rfl
  | newStation sc message => exact touches_processMsgNewStation v now order sc message grounded
  | delStation sc message => exact touches_processMsgDelStation v now order sc message
  | flowInfo sc message => exact .of_eq (marks_processMsgFlowInfo v sc message)
  | probeInfo sc message => exact touches_processMsgProbeInfo v now order sc message
  | interfaceNum sc message =>
      refine .of_eq ?_
      simp only [step, processMsgInterfaceNum]
      split
      · exact marks_informAgent v _ _ _ _ _ _
      · rfl
  | ok sc message => exact .of_eq (marks_processMsgOk v now order sc message)
  | err sc message => exact .of_eq (marks_processMsgErr v sc message)
  | closeSocket sc => exact .of_eq (marks_closeSocket v order sc)
  | addVap isRoam message => exact touches_excuteAddVap v now order isRoam message
  | queueVap a staMacAddress mode ssid => cases quiet
  | delVap roamType a s ssid => exact .of_eq (marks_delVapContainer v now order roamType a s ssid)
  | cancel message => exact .of_eq (marks_cancelTask v now order message)
  | age => cases quiet
  | cmd key => cases quiet
  | task index written =>
      refine .of_eq ?_
      simp only [step]
      split
      · rfl
      · exact marks_runTask { v with tasks := v.tasks.eraseIdx index } now order _ written
  | check index =>
      refine .of_eq ?_
      simp only [step]
      split
      · rfl
      · exact marks_checkSendMsg { v with checks := v.checks.eraseIdx index } now order _

theorem step_touched (op : Op) (awake : op ≠ .age) (grounded : GroundedView v) :
    ∃ m queue runs, Touches now (marks v) m ∧
      marks (step v now order op) = { m with cmdQueue := queue, cmdTaskRuns := runs } := by
  -- apart from the queue of commands, every operation but the aging run only touches
  by_cases quiet : plain op = true
  · exact ⟨_, _, _, step_touches v now order op quiet grounded, rfl⟩
  · cases op with
    | age => exact absurd rfl awake
    | queueVap a staMacAddress mode ssid =>
        have kept : marks (addVapContainer v now order false a staMacAddress mode ssid) =
            { marks v with
              cmdQueue := (addVapContainer v now order false a staMacAddress mode ssid).cmdQueue
              cmdTaskRuns := v.cmdTaskRuns } := by
          unfold addVapContainer
          simp only [Bool.false_eq_true, if_false]
          split
          · rfl
          · split
            · split <;> rfl
            · rfl
        exact ⟨_, _, _, .refl, kept⟩
    | cmd key =>
        change ∃ m queue runs, _ ∧ marks (cmdTask v now order key) = _
        unfold cmdTask
        split
        · exact ⟨_, _, _, .refl, rfl⟩
        · split
          · split
            · dsimp only
              split
              · exact ⟨_, _, _, touches_excuteAddVap v now order false _, rfl⟩
              · exact ⟨_, _, _, touches_excuteAddVap v now order false _, rfl⟩
            · exact ⟨_, _, _, .refl, rfl⟩
          · exact ⟨_, _, _, .refl, rfl⟩
    | _ => exact absurd rfl quiet

end Handlers

end LazyAS.StepTouches

import LazyAS.ViewGround

/-! The changes of the view a step of the controller is made of. Between them a step changes
times, queues and frames only, or closes the connection of a silent agent; this is upkeep. A
NEW_STA report admits its station, an acknowledged deletion takes a container away, and the
aging run drops containers and stations one after the other. -/
namespace LazyAS.ViewMoves
open WireText ControllerView Master VapBindings BindingLaws ViewGrowth ViewGround

/-! Upkeep. -/

inductive Upkeep (who : Ref → Prop) (now : Int) : View → View → Prop where
  | alike {v w : View} (same : Alike v w) : Upkeep who now v w
  | close {v : View} (order : Order) (sc b : Ref) (linked : (v.agents b).sc = some sc)
      (silent : agentStatus v b now = .offLine) (asked : who b) :
      Upkeep who now v (closeSocket v order sc)

abbrev Upkeeps (who : Ref → Prop) (now : Int) : View → View → Prop :=
  Relation.ReflTransGen (Upkeep who now)

section Upkeep

variable {who also : Ref → Prop} {now : Int} {v w : View}

theorem Upkeeps.of_alike (same : Alike v w) : Upkeeps who now v w := .single (.alike same)

theorem Upkeep.mono (included : ∀ b, who b → also b) (move : Upkeep who now v w) :
    Upkeep also now v w := by
  cases move with
  | alike same => exact .alike same
  | close order sc b linked silent asked => exact .close order sc b linked silent (included b asked)

theorem Upkeeps.mono (included : ∀ b, who b → also b) (moves : Upkeeps who now v w) :
    Upkeeps also now v w :=
  Relation.ReflTransGen.mono (fun _ _ move => Upkeep.mono included move) v w moves

theorem Upkeep.grounded (move : Upkeep who now v w) (grounded : GroundedView v) :
    GroundedView w := by
  cases move with
  | alike same => exact same.grounded grounded
  | close order sc b linked silent asked => exact closeSocket_grounded v order sc grounded

theorem Upkeep.steady (move : Upkeep who now v w) (grounded : GroundedView v) :
    Steady (bindings v) (bindings w) := by
  cases move with
  | alike same =>
      rw [same.bindings]
      exact .refl _
  | close order sc b linked silent asked => exact closeSocket_steady v order sc grounded

theorem Upkeep.shrinks (move : Upkeep who now v w) (grounded : GroundedView v) :
    Shrinks (bindings v) (bindings w) := by
  cases move with
  | alike same =>
      rw [same.bindings]
      exact .refl _
  | close order sc b linked silent asked => exact closeSocket_shrinks v order sc grounded

theorem Upkeeps.invariant (holds : View → Prop) (grounded : GroundedView v)
    (start : holds v) (kept : ∀ x y, GroundedView x → Upkeep who now x y → holds x → holds y)
    (moves : Upkeeps who now v w) : GroundedView w ∧ holds w := by
  induction moves with
  | refl => exact ⟨grounded, start⟩
  | tail _ move ih => exact ⟨move.grounded ih.1, kept _ _ ih.1 move ih.2⟩

theorem Upkeeps.steady (moves : Upkeeps who now v w) (grounded : GroundedView v) :
    Steady (bindings v) (bindings w) :=
  (moves.invariant (fun x => Steady (bindings v) (bindings x)) grounded (.refl _)
    (fun _ _ ground move before => before.trans (move.steady ground))).2

end Upkeep

theorem silent_of_ne {v : View} {a : Ref} {now : Int} (other : agentStatus v a now ≠ .onLine) :
    agentStatus v a now = .offLine := by
  cases status : agentStatus v a now with
  | onLine => exact absurd status other
  | offLine => rfl

section Commands

variable (v : View) (now : Int) (order : Order)

theorem delVapContainer_upkeep (roamType : Option RoamType) (a s : Ref) (ssid : Text) :
    Upkeeps (· = a) now v (delVapContainer v now order roamType a s ssid) := by
  unfold delVapContainer
  split
  · exact .refl
  · rename_i sc linked
    split
    · split
      · split
        · exact .of_alike rfl
        · exact .refl
      · rename_i other
        exact .single (.close order sc a linked (silent_of_ne other) rfl)
    · exact .refl

/-- The agent whose connection the cancelling of a command may close. -/
def Cancels (message : StationCtrlMessage) (b : Ref) : Prop :=
  message.msgType = .delVap ∧ b = message.agent

theorem cancelTask_upkeep (message : StationCtrlMessage) :
    Upkeeps (Cancels message) now v (cancelTask v now order message) := by
  unfold cancelTask
  split
  · exact .refl
  · rename_i sc linked
    split
    · split
      -- the station is looked for in its own set of agents, so nothing is undone
      · dsimp only
        split
        · exact .refl
        · exact .refl
      · dsimp only
        split
        · exact .refl
        · exact .refl
      · rename_i deletes
        split
        · rename_i silent
          exact .single (.close order sc message.agent linked silent ⟨deletes, rfl⟩)
        · exact .refl
      · exact .refl
    · exact .refl

theorem sendCommand_upkeep (a : Ref) (frame : Text → Text) (message : StationCtrlMessage)
    (written : Bool) :
    Upkeeps (Cancels message) now v (sendCommand v now order a frame message written) := by
  have numbered : Alike v (updAgent v a fun agent => { agent with
      currentId := nextId (v.agents a) }) :=
    alike_updAgent v a _ rfl
  have cancelled := (Upkeeps.of_alike numbered).trans (cancelTask_upkeep _ now order message)
  unfold sendCommand
  dsimp only
  split
  · exact cancelled
  · split
    · split
      · split
        · exact .of_alike (numbered.trans rfl)
        · exact .of_alike (numbered.trans rfl)
      · exact cancelled
    · split
      · exact cancelled
      · exact .of_alike numbered

/-- The agent whose connection a failed task may close. -/
def Fails : Task → Ref → Prop
  | .add _ _ message, b => Cancels message b
  | .del roamType a _ _, b => roamType = none ∧ b = a
  | .putSendMsg _ _, _ | .schedule _, _ => False

theorem runTask_upkeep (task : Task) (written : Bool) :
    Upkeeps (Fails task) now v (runTask v now order task written) := by
  unfold runTask
  cases task with
  | add a s message => exact sendCommand_upkeep v now order a _ message written
  | del roamType a s ssid =>
      refine Upkeeps.mono (fun b cancels => ?_) (sendCommand_upkeep v now order a _ _ written)
      obtain ⟨deletes, rfl⟩ := cancels
      cases roamType with
      | none => exact ⟨rfl, rfl⟩
      | some roamType => cases deletes
  | putSendMsg sendMsgId message => exact .of_alike rfl
  | schedule sendMsgId => exact .of_alike rfl

def Unconfirmed (sendMsgId : Text) (b : Ref) : Prop :=
  ∃ sendMsg, v.sendMsgBuffer sendMsgId = some sendMsg ∧ sendMsg.status ≠ .ok ∧ Cancels sendMsg.msg b

theorem checkSendMsg_upkeep (sendMsgId : Text) :
    Upkeeps (Unconfirmed v sendMsgId) now v (checkSendMsg v now order sendMsgId) := by
  unfold checkSendMsg
  split
  · exact .refl
  · rename_i sendMsg buffered
    have cancelled (waiting : sendMsg.status ≠ .ok) :
        Upkeeps (Unconfirmed v sendMsgId) now v (cancelTask v now order sendMsg.msg) :=
      Upkeeps.mono (fun b cancels => ⟨sendMsg, buffered, waiting, cancels⟩)
        (cancelTask_upkeep v now order sendMsg.msg)
    split
    · exact .of_alike rfl
    · rename_i status
      exact cancelled (by simp [status])
    · rename_i status
      exact cancelled (by simp [status])

def Rival (s a : Ref) (ssid : Text) (b : Ref) : Prop :=
  ∃ c ∈ (v.stations s).vapContainerSet.values, (v.vaps c).agent = b ∧ b ≠ a ∧ (v.vaps c).ssid = ssid

theorem Rival.alike {v w : View} {s a b : Ref} {ssid : Text} (same : Alike v w)
    (rival : Rival w s a ssid b) :
    Rival v s a ssid b := by
  have read : Rival w s a ssid b = Rival v s a ssid b := same.read fun x => Rival x s a ssid b
  exact read ▸ rival

/-- The loop of `delOtherVaps` over some of the containers: none changes its agent or its SSID on
the way. -/
theorem delOtherVaps_fold (s a : Ref) (ssid : Text) (items : List Ref)
    (listed : ∀ c ∈ items, c ∈ (v.stations s).vapContainerSet.values) (w : View)
    (ground : GroundedView w)
    (steady : Steady (bindings v) (bindings w)) :
    Upkeeps (Rival v s a ssid) now w (items.foldl (fun w c =>
      if (w.vaps c).agent ≠ a ∧ (w.vaps c).ssid = ssid then
        delVapContainer w now order none (w.vaps c).agent s (w.vaps c).ssid
      else w) w) := by
  induction items generalizing w with
  | nil => exact .refl
  | cons c items ih =>
      rw [List.foldl_cons]
      have rest := fun d member => listed d (List.mem_cons_of_mem c member)
      split
      · rename_i other
        have agent : (w.vaps c).agent = (v.vaps c).agent := congrFun steady.vapAgent c
        have name : (w.vaps c).ssid = (v.vaps c).ssid := congrFun steady.vapSsid c
        have asked : Upkeeps (Rival v s a ssid) now w
            (delVapContainer w now order none (w.vaps c).agent s (w.vaps c).ssid) := by
          refine Upkeeps.mono (fun b here => ?_)
            (delVapContainer_upkeep w now order none (w.vaps c).agent s _)
          subst here
          exact ⟨c, listed c List.mem_cons_self, agent.symm, other.1, name ▸ other.2⟩
        have kept := asked.invariant (fun x => Steady (bindings v) (bindings x)) ground steady
          (fun _ _ before move held => held.trans (move.steady before))
        exact asked.trans (ih rest _ kept.1 kept.2)
      · exact ih rest w ground steady

theorem delOtherVaps_upkeep (s a : Ref) (ssid : Text) (grounded : GroundedView v) :
    Upkeeps (Rival v s a ssid) now v (delOtherVaps v now order s a ssid) :=
  delOtherVaps_fold v now order s a ssid _ (fun _ member => (order.perm _).mem_iff.mp member) v
    grounded (.refl _)

theorem addVapContainer_queued (a : Ref) (staMacAddress mode ssid : Text) :
    Alike v (addVapContainer v now order false a staMacAddress mode ssid) := by
  unfold addVapContainer
  simp only [Bool.false_eq_true, if_false]
  split
  · rfl
  · split
    · split
      · rfl
      · rfl
    · rfl

end Commands

/-! Reports of stations that come on line. -/

def resumeVap (v : View) (now : Int) (s c : Ref) : View :=
  setStationStatus (updateSumTraffic (bringOnline v now s c) s) s .onLine

def joinVap (v : View) (now : Int) (s a : Ref) (ssid : Text) : View :=
  let c := v.nextVap
  let created := setLastProbeHeard (setVapStatus (newVapContainer v s a ssid) c .onLine) c now
  agentAddVap (setWorking (stationAddVap created s c) s (some c)) a c

def adoptVap (v : View) (now : Int) (s c : Ref) : View :=
  let online := setLastProbeHeard (setVapStatus v c .onLine) c now
  setWorking (stationAddVap online s c) s (some c)

inductive Admission (v : View) (now : Int) (s a : Ref) (ssid : Text) : View → Prop where
  | unchanged {w : View} (same : Alike v w) : Admission v now s a ssid w
  | resume {u : View} (c : Ref) (same : Alike v u) (stored : stationVap v s a ssid = some c)
      (switches : SwitchesOn v s a ssid) : Admission v now s a ssid (resumeVap u now s c)
  | join {u : View} (same : Alike v u) (absent : stationVap v s a ssid = none)
      (switches : SwitchesOn v s a ssid) (free : isLinked v s a = true ∨
      agentVap v a s ssid = none) :
      Admission v now s a ssid (joinVap u now s a ssid)
  | adopt (c : Ref) (absent : stationVap v s a ssid = none) (unlinked : isLinked v s a = false)
      (held : agentVap v a s ssid = some c) : Admission v now s a ssid (adoptVap v now s c)
  | stray {u : View} (same : Alike (newVapContainer v s a ssid) u) (linked : isLinked v s a = true)
      (absent : stationVap v s a ssid = none) (off : (v.stations s).status = .offLine) :
      Admission v now s a ssid (resumeVap u now s v.nextVap)

theorem bindings_resumeVap (v : View) (now : Int) (s c : Ref) :
    bindings (resumeVap v now s c) = resumed (bindings v) s c := by
  simp only [resumeVap, bindings_setStationStatus, bindings_updateSumTraffic, bindings_bringOnline]
  rfl

theorem bindings_joinVap (v : View) (now : Int) (s a : Ref) (ssid : Text) :
    bindings (joinVap v now s a ssid) = joined (bindings v) s a ssid := by
  simp only [joinVap, bindings_agentAddVap, bindings_setWorking, bindings_stationAddVap,
    bindings_setLastProbeHeard, bindings_setVapStatus, bindings_newVapContainer]
  rfl

theorem bindings_adoptVap (v : View) (now : Int) (s c : Ref) :
    bindings (adoptVap v now s c) = adopted (bindings v) s c := by
  simp only [adoptVap, bindings_setWorking, bindings_stationAddVap, bindings_setLastProbeHeard,
    bindings_setVapStatus]
  rfl

theorem channels_resumeVap (v : View) (now : Int) (s c : Ref) :
    channels (resumeVap v now s c) = channels v := channels_setVapStatus v c .onLine

theorem channels_joinVap (v : View) (now : Int) (s a : Ref) (ssid : Text) :
    channels (joinVap v now s a ssid) = channels v :=
  (channels_agentAddVap _ a v.nextVap).trans
    (channels_setVapStatus (newVapContainer v s a ssid) v.nextVap .onLine)

theorem channels_adoptVap (v : View) (now : Int) (s c : Ref) :
    channels (adoptVap v now s c) = channels v := channels_setVapStatus v c .onLine

theorem setVapStatus_probeHeard (v : View) (c : Ref) (now : Int) (status : Status) :
    setVapStatus (setLastProbeHeard v c now) c status =
      setLastProbeHeard (setVapStatus v c status) c now := by
  cases before : (v.vaps c).status <;> cases status <;>
    simp [setVapStatus, setLastProbeHeard, updVap, updAgent, before]

section Reports

variable (v : View) (now : Int) (order : Order)

theorem newVapContainer_agentSet (s a : Ref) (ssid : Text) (grounded : GroundedView v) :
    agentSet (newVapContainer v s a ssid) s = agentSet v s := by
  have old (c : Ref) (member : c ∈ (v.stations s).vapContainerSet.values) :
      (newVapContainer v s a ssid).vaps c = v.vaps c := by
    obtain ⟨key, found⟩ := (mem_values _ c).mp member
    exact Function.update_of_ne (Nat.ne_of_lt (grounded.stored s key c found).1) _ _
  unfold agentSet ownVaps
  rw [show (newVapContainer v s a ssid).stations = v.stations from rfl]
  rw [List.filter_congr fun c member => by rw [old c member]]
  refine List.map_congr_left fun c member => ?_
  rw [old c (List.mem_of_mem_filter member)]

theorem newStationKnown_admission (s a : Ref) (ssid : Text) (grounded : GroundedView v)
    (linked : isLinked v s a = true) :
    Admission v now s a ssid (newStationKnown v now s a ssid).1 := by
  have heard := alike_stationHeard v s now (v.agents a).mode
  have working : ((stationHeard v s now (v.agents a).mode).stations s).workingVapContainer =
      (v.stations s).workingVapContainer := by simp [stationHeard, updStation]
  have stored : stationVap (stationHeard v s now (v.agents a).mode) s a ssid =
      stationVap v s a ssid :=
    heard.read fun w => stationVap w s a ssid
  cases status : (v.stations s).status with
  | onLine =>
      simp only [newStationKnown, status, if_true, working, stored]
      cases here : (v.stations s).workingVapContainer with
      | none => exact .unchanged heard
      | some w =>
          have vaps : (stationHeard v s now (v.agents a).mode).vaps w = v.vaps w := rfl
          by_cases same : (v.vaps w).agent = a
          · simp only [vaps, if_pos same]
            exact .unchanged heard
          · have switches : SwitchesOn v s a ssid := by simp [SwitchesOn, linked, status, here,
                same]
            simp only [vaps, if_neg same]
            cases found : stationVap v s a ssid with
            | some c => exact .resume c heard found switches
            | none =>
                dsimp only
                rw [setVapStatus_probeHeard]
                exact .join heard found switches (.inl linked)
  | offLine =>
      rw [newStationKnown, if_neg (by simp [status])]
      have contains : agentSetContains v s (.agent a) = true := (Bool.and_eq_true_iff.mp linked).1
      cases found : stationVap v s a ssid with
      | some c =>
          have switches : SwitchesOn v s a ssid := by simp [SwitchesOn, linked, status, found]
          simp only [contains, if_true]
          exact .resume c heard found switches
      | none =>
          have still : agentSetContains (newVapContainer v s a ssid) s (.agent a) = true := by
            rw [agentSetContains, newVapContainer_agentSet v s a ssid grounded]
            exact contains
          simp only [still, if_true]
          exact .stray (alike_stationHeard _ s now _) linked found status

theorem newStationLink_admission (s a : Ref) (ssid : Text) (unlinked : isLinked v s a = false) :
    ∃ u, Admission v now s a ssid u ∧ Alike u (newStationLink v now s a ssid) := by
  unfold newStationLink
  cases stored : stationVap v s a ssid with
  | some c => exact ⟨v, .unchanged rfl, alike_stationHeard v s now _⟩
  | none =>
      have switches : SwitchesOn v s a ssid := by simp [SwitchesOn, unlinked, stored]
      cases held : agentVap v a s ssid with
      | none =>
          exact ⟨joinVap v now s a ssid, .join (.refl v) stored switches (.inr held),
            alike_stationHeard _ s now _⟩
      | some c =>
          exact ⟨adoptVap v now s c, .adopt c stored unlinked held, alike_stationHeard _ s now _⟩

/-- The agent, the address and the SSID of a NEW_STA report that passes the checks. -/
def newReport (sc : Ref) (message : Text) : Option (Ref × Text × Text) := do
  let a ← v.sc2AgentMap sc
  let (_, staMacAddr, curPos) ← takeStation message
  let ssid ← resolveSsid v order a message curPos
  return (a, staMacAddr, ssid)

theorem newReport_registered {sc a : Ref} {message staMacAddr ssid : Text}
    (report : newReport v order sc message = some (a, staMacAddr, ssid)) :
    v.sc2AgentMap sc = some a := by
  unfold newReport at report
  cases registered : v.sc2AgentMap sc with
  | none => simp [registered] at report
  | some b =>
      simp only [registered, Option.bind_eq_bind, Option.bind_some, Option.bind_eq_some_iff]
        at report
      obtain ⟨taken, -, ssid', -, same⟩ := report
      cases same
      rfl

theorem processMsgNewStation_eq (sc : Ref) (message : Text) :
    processMsgNewStation v now order sc message = match newReport v order sc message,
      takeStation message with
      | some (a, staMacAddr, ssid), some (msgId, _, _) =>
          let admitted := admitStation v now a staMacAddr ssid
          if admitted.1.2 then
            let cleaned := delOtherVaps admitted.1.1 now order admitted.2 a ssid
            { cleaned with published := cleaned.published ++ [.newSta msgId staMacAddr a] }
          else admitted.1.1
      | _, _ => v := by
  unfold processMsgNewStation newReport
  cases v.sc2AgentMap sc with
  | none => rfl
  | some a =>
      cases takeStation message with
      | none => rfl
      | some taken =>
          obtain ⟨msgId, staMacAddr, curPos⟩ := taken
          dsimp only [bind, Option.bind]
          cases resolveSsid v order a message curPos with
          | none => rfl
          | some ssid => rfl

theorem processMsgNewStation_upkeep (sc : Ref) (message : Text) {a : Ref} {staMacAddr ssid : Text}
    (report : newReport v order sc message = some (a, staMacAddr, ssid))
    (grounded : GroundedView (admitStation v now a staMacAddr ssid).1.1) :
    Upkeeps (Rival (admitStation v now a staMacAddr ssid).1.1
      (admitStation v now a staMacAddr ssid).2 a ssid) now
      (admitStation v now a staMacAddr ssid).1.1 (processMsgNewStation v now order sc message) := by
  rw [processMsgNewStation_eq, report]
  cases taken : takeStation message with
  | none => simp [newReport, taken] at report
  | some fields =>
      dsimp only
      split
      · exact (delOtherVaps_upkeep _ now order _ a ssid grounded).trans (Upkeeps.of_alike rfl)
      · exact .refl

theorem admitStation_new (a : Ref) (staMacAddr ssid : Text)
    (unknown : v.stationMap.lookup staMacAddr = none) :
    (admitStation v now a staMacAddr ssid).2 = v.nextStation := by
  simp [admitStation, unknown]

theorem admitStation_station {s : Ref} (a : Ref) (staMacAddr ssid : Text)
    (known : v.stationMap.lookup staMacAddr = some s) :
    (admitStation v now a staMacAddr ssid).2 = s := by
  simp only [admitStation, known]
  split
  · rfl
  · rfl

theorem admitStation_unknown (a : Ref) (staMacAddr ssid : Text)
    (unknown : v.stationMap.lookup staMacAddr = none) :
    Alike (createStation v now a staMacAddr ssid) (admitStation v now a staMacAddr ssid).1.1 := by
  simp only [admitStation, unknown, newStationLink, createStation_stored]
  exact alike_stationHeard _ _ now _

theorem admitStation_known (s a : Ref) (staMacAddr ssid : Text) (grounded : GroundedView v)
    (known : v.stationMap.lookup staMacAddr = some s) :
    ∃ u, Admission v now s a ssid u ∧ Alike u (admitStation v now a staMacAddr ssid).1.1 := by
  simp only [admitStation, known]
  cases linked : isLinked v s a with
  | true => exact ⟨_, newStationKnown_admission v now s a ssid grounded linked, .refl _⟩
  | false => exact newStationLink_admission v now s a ssid linked

end Reports

/-- The station and the container of a DEL_STA report that is taken. -/
def departed (v : View) (order : Order) (sc : Ref) (message : Text) : Option (Ref × Ref) := do
  let a ← v.sc2AgentMap sc
  let (_, staMacAddr, curPos) ← takeStation message
  let s ← v.stationMap.lookup staMacAddr
  let ssid ← resolveSsid v order a message curPos
  let c ← stationVap v s a ssid
  return (s, c)

def leftStation (v : View) (s c : Ref) : View :=
  if (v.stations s).workingVapContainer = some c then
    setWorking (setStationStatus v s .offLine) s none else v

theorem leaveVap_eq (v : View) (now : Int) (s c : Ref) :
    leaveVap v now s c = setLastProbeHeard
      (if (v.vaps c).status = .onLine then setVapStatus (leftStation v s c) c .offLine
        else leftStation v s c)
      c now := by
  have vaps : ((leftStation v s c).vaps c).status = (v.vaps c).status := by
    unfold leftStation
    split
    · rfl
    · rfl
  rw [← vaps]
  rfl

/-! Acknowledged deletions. -/

def removeVap (v : View) (a s c : Ref) : View := stationRemoveVap (agentRemoveVap v a c) s c

def switchOff (v : View) (s c : Ref) : View :=
  setVapStatus (setStationStatus v s .offLine) c .offLine

theorem bindings_switchOff (v : View) (s c : Ref) :
    bindings (switchOff v s c) = ((bindings v).setStatus s .offLine).setVap c .offLine := by
  rw [switchOff, bindings_setVapStatus, bindings_setStationStatus]

inductive Acknowledgement (v : View) (a s c : Ref) : View → Prop where
  | idle (on : (v.vaps c).status = .onLine) (free : (v.stations s).workingVapContainer = none) :
      Acknowledgement v a s c (switchOff v s c)
  | cleared (on : (v.vaps c).status = .onLine)
      (here : (v.stations s).workingVapContainer = some c) :
      Acknowledgement v a s c (setWorking (switchOff v s c) s none)
  | elsewhere {w : View} (d : Ref) (on : (v.vaps c).status = .onLine)
      (working : (v.stations s).workingVapContainer = some d) (other : d ≠ c)
      (removed : w = switchOff v s c ∨ w = removeVap (switchOff v s c) a s c) :
      Acknowledgement v a s c w
  | offLine {w : View} (off : (v.vaps c).status = .offLine) (removed : w = v ∨
      w = removeVap v a s c) :
      Acknowledgement v a s c w

def removeTracked (v : View) (now : Int) (a s c : Ref) : View :=
  if (v.agentMap (v.agents a).macAddress).isSome ∧ agentStatus v a now = .onLine then
    removeVap v a s c else v

theorem removeTracked_cases (v : View) (now : Int) (a s c : Ref) :
    removeTracked v now a s c = v ∨ removeTracked v now a s c = removeVap v a s c := by
  unfold removeTracked
  split
  · exact .inr rfl
  · exact .inl rfl

theorem acknowledgeDel_eq (v : View) (now : Int) {a s c : Ref} {ssid : Text}
    (linked : agentSetContains v s (.agent a) = true) (stored : stationVap v s a ssid = some c) :
    acknowledgeDel v now a s ssid =
      if (v.vaps c).status = .onLine then
        match (v.stations s).workingVapContainer with
        | none => switchOff v s c
        | some d => if d = c then setWorking (switchOff v s c) s none
            else removeTracked (switchOff v s c) now a s c
      else removeTracked v now a s c := by
  have working : ((switchOff v s c).stations s).workingVapContainer =
      (v.stations s).workingVapContainer :=
    congrFun (congrArg Bindings.working (bindings_switchOff v s c)) s
  -- the station has the agent, so its set of agents is not empty
  have agents : (agentSet v s).length ≠ 0 := by
    have member : a ∈ agentSet v s := List.contains_iff_mem.mp linked
    exact (List.length_pos_iff_exists_mem.mpr ⟨a, member⟩).ne'
  unfold acknowledgeDel
  rw [if_pos linked, stored]
  dsimp only
  rw [← switchOff, working, if_neg agents]
  rfl

theorem acknowledgeDel_effect (v : View) (now : Int) (a s : Ref) (ssid : Text) :
    acknowledgeDel v now a s ssid = v ∨
    ∃ c, agentSetContains v s (.agent a) = true ∧ stationVap v s a ssid = some c ∧
      Acknowledgement v a s c (acknowledgeDel v now a s ssid) := by
  cases linked : agentSetContains v s (.agent a) with
  | false => exact .inl (if_neg (by simp [linked]))
  | true =>
      cases stored : stationVap v s a ssid with
      | none => exact .inl (by simp [acknowledgeDel, linked, stored])
      | some c =>
          refine .inr ⟨c, rfl, rfl, ?_⟩
          rw [acknowledgeDel_eq v now linked stored]
          cases status : (v.vaps c).status with
          | onLine =>
              rw [if_pos rfl]
              cases here : (v.stations s).workingVapContainer with
              | none => exact .idle status here
              | some d =>
                  by_cases same : d = c
                  · subst same
                    simp only [if_true]
                    exact .cleared status here
                  · simp only [if_neg same]
                    exact .elsewhere d status here same (removeTracked_cases _ now a s c)
          | offLine =>
              rw [if_neg (by simp)]
              exact .offLine status (removeTracked_cases v now a s c)

/-! Aging. -/

/-- A container that is still to be looked at is stored with its station, or neither the
station nor its agent has anything under its key. -/
def Listed (b : Bindings) (s c : Ref) : Prop :=
  (b.stored s).lookup (b.key c) = some c ∨
  (b.stored s).lookup (b.key c) = none ∧ (b.held (b.vapAgent c)).lookup (b.key c) = none

inductive AgeMove (now : Int) : View → View → Prop where
  | upkeep {v w : View} (move : Upkeep (fun _ => True) now v w) : AgeMove now v w
  | drop {v : View} (s c : Ref) (tracked : Tracked v s) (off : (v.stations s).status = .offLine)
      (own : (v.vaps c).station = s) (listed : Listed (bindings v) s c) :
      AgeMove now v (removeVap v (v.vaps c).agent s c)
  | untrack {v : View} (s : Ref) (tracked : Tracked v s) (off : (v.stations s).status = .offLine)
      (idle : (v.stations s).vapContainerSet = ∅) :
      AgeMove now v (removeStation v (v.stations s).macAddress)

abbrev Ages (now : Int) : View → View → Prop := Relation.ReflTransGen (AgeMove now)

theorem lookup_none {before after : Table} {key : Text}
    (shrinks : ∀ c, after.lookup key = some c → before.lookup key = some c)
    (absent : before.lookup key = none) :
    after.lookup key = none := by
  cases found : after.lookup key with
  | none => rfl
  | some c => exact absurd (absent.symm.trans (shrinks c found)) (by simp)

theorem Listed.gone {b b' : Bindings} {s c : Ref} (shrinks : Shrinks b b')
    (stored : (b.stored s).lookup (b.key c) = none)
    (held : (b.held (b.vapAgent c)).lookup (b.key c) = none) :
    Listed b' s c := by
  refine .inr ?_
  rw [shrinks.key, shrinks.vapAgent]
  exact ⟨lookup_none (shrinks.stored s _) stored, lookup_none (shrinks.held _ _) held⟩

theorem listed_reset (v : View) (a d s c : Ref) (grounded : GroundedView v)
    (held : (v.agents a).vapContainerSet.lookup (vapKey v d) = some d)
    (listed : Listed (bindings v) s c) : Listed (bindings (resetVap v a d)) s c := by
  have steady := resetVap_steady v a d
  rcases listed with found | ⟨stored, empty⟩
  · have own : (bindings v).vapAgent d = a := (grounded.held a _ d held).2.1
    unfold Listed
    rw [resetVap_stored v a d grounded, resetVap_held, steady.key, steady.vapAgent]
    split
    · rename_i here
      by_cases station : s = (bindings v).vapStation d
      · subst station
        rw [Function.update_self]
        by_cases key : (bindings v).key c = (bindings v).key d
        · -- the container itself was cleared, on both sides
          rw [key, here] at found
          cases found
          rw [own, Function.update_self]
          exact .inr ⟨AList.lookup_erase _ _, AList.lookup_erase _ _⟩
        · rw [AList.lookup_erase_ne key]
          exact .inl found
      · rw [Function.update_of_ne station]
        exact .inl found
    · exact .inl found
  · exact .gone (resetVap_shrinks v a d) stored empty

theorem listed_close (v : View) (order : Order) (sc s c : Ref) (grounded : GroundedView v)
    (listed : Listed (bindings v) s c) : Listed (bindings (closeSocket v order sc)) s c := by
  refine closeSocket_induct v order sc (fun w => Listed (bindings w) s c) grounded listed ?_
    (fun w a d ground _ held before => listed_reset w a d s c ground held before) ?_
      (fun _ => listed)
  · intro w x same before
    rw [same.bindings]
    exact before
  · intro w a _ _ _ before
    rw [bindings_shut]
    exact before

theorem Upkeep.listed {who : Ref → Prop} {now : Int} {v w : View} (move : Upkeep who now v w)
    (grounded : GroundedView v) {s c : Ref} (listed : Listed (bindings v) s c) :
    Listed (bindings w) s c := by
  cases move with
  | alike same =>
      rw [same.bindings]
      exact listed
  | close order sc b linked silent asked => exact listed_close v order sc s c grounded listed

theorem bindings_removeVap (v : View) (a s c : Ref) :
    bindings (removeVap v a s c) = ((bindings v).release a c).drop s c := by
  rw [removeVap, bindings_stationRemoveVap, bindings_agentRemoveVap]

theorem removeVap_shrinks (v : View) (a s c : Ref) :
    Shrinks (bindings v) (bindings (removeVap v a s c)) := by
  rw [bindings_removeVap]
  exact (shrinks_release _ a c).trans (shrinks_drop _ s c)

theorem removeVap_steady (v : View) (a s c : Ref) :
    Steady (bindings v) (bindings (removeVap v a s c)) := by
  rw [bindings_removeVap]
  exact ⟨rfl, rfl, rfl, rfl, rfl, rfl⟩

theorem removeVap_grounded (v : View) (a s c : Ref) (grounded : GroundedView v) :
    GroundedView (removeVap v a s c) :=
  grounded_of (bindings_removeVap v a s c) (channels_agentRemoveVap v a c)
    ((Grounded.release grounded a c).drop s c)

structure AgeLoop (now : Int) (v w : View) (s : Ref) (rest : List Ref) : Prop where
  moves : Ages now v w
  grounded : GroundedView w
  tracked : Tracked w s
  off : (w.stations s).status = .offLine
  steady : Steady (bindings v) (bindings w)
  listed : ∀ c ∈ rest, Listed (bindings w) s c
  distinct : rest.Pairwise fun c d => (bindings v).key c ≠ (bindings v).key d

section Loops

variable {now : Int} {v w : View} {s : Ref} {rest : List Ref}

theorem AgeLoop.skip {c : Ref} (loop : AgeLoop now v w s (c :: rest)) : AgeLoop now v w s rest :=
  { loop with
    listed := fun d member => loop.listed d (List.mem_cons_of_mem c member)
    distinct := loop.distinct.of_cons }

theorem AgeLoop.upkeeps {who : Ref → Prop} {x : View} (loop : AgeLoop now v w s rest)
    (moves : Upkeeps who now w x) : AgeLoop now v x s rest := by
  induction moves with
  | refl => exact loop
  | tail _ move ih =>
      have steady := move.steady ih.grounded
      exact {
        moves := ih.moves.tail (.upkeep (Upkeep.mono (fun _ _ => trivial) move))
        grounded := move.grounded ih.grounded
        tracked := steady.tracked ih.tracked
        off := (move.shrinks ih.grounded).offLine ih.off
        steady := ih.steady.trans steady
        listed := fun c member => move.listed ih.grounded (ih.listed c member)
        distinct := ih.distinct }

theorem AgeLoop.drop {c : Ref} (loop : AgeLoop now v w s (c :: rest))
    (own : (w.vaps c).station = s) :
    AgeLoop now v (removeVap w (w.vaps c).agent s c) s rest where
  moves := loop.moves.tail (.drop s c loop.tracked loop.off own (loop.listed c List.mem_cons_self))
  grounded := removeVap_grounded w _ s c loop.grounded
  tracked := (removeVap_steady w _ s c).tracked loop.tracked
  off := (removeVap_shrinks w _ s c).offLine loop.off
  steady := loop.steady.trans (removeVap_steady w _ s c)
  distinct := loop.distinct.of_cons
  listed := by
    intro d member
    have keys : (bindings w).key d ≠ (bindings w).key c := by
      rw [loop.steady.key]
      exact ((List.pairwise_cons.mp loop.distinct).1 d member).symm
    rcases loop.listed d (List.mem_cons_of_mem c member) with found | ⟨stored, held⟩
    · refine .inl ?_
      rw [(removeVap_steady w _ s c).key, bindings_removeVap]
      change (Function.update (bindings w).stored s
        (((bindings w).stored s).erase ((bindings w).key c)) s).lookup
        ((bindings w).key d) = some d
      rw [Function.update_self, AList.lookup_erase_ne keys]
      exact found
    · exact .gone (removeVap_shrinks w _ s c) stored held

theorem AgeLoop.dropVap {c : Ref} (order : Order) (loop : AgeLoop now v w s (c :: rest))
    (own : (w.vaps c).station = s) : AgeLoop now v (dropVap w now order s c) s rest := by
  have asked := delVapContainer_upkeep w now order none (w.vaps c).agent s (w.vaps c).ssid
  have after := loop.upkeeps asked
  have steady : Steady (bindings w)
      (bindings (delVapContainer w now order none (w.vaps c).agent s (w.vaps c).ssid)) :=
    Upkeeps.steady asked loop.grounded
  have agent : ((delVapContainer w now order none (w.vaps c).agent s (w.vaps c).ssid).vaps
      c).agent =
      (w.vaps c).agent := congrFun steady.vapAgent c
  have station : ((delVapContainer w now order none (w.vaps c).agent s (w.vaps c).ssid).vaps
      c).station = s :=
    (congrFun steady.vapStation c).trans own
  have dropped := after.drop station
  rw [agent] at dropped
  exact dropped

theorem AgeLoop.alike {x : View} (loop : AgeLoop now v w s rest) (same : Alike w x) :
    AgeLoop now v x s rest := loop.upkeeps (Upkeeps.of_alike same : Upkeeps (fun _ => True) now w x)

theorem AgeLoop.ageVap {c : Ref} (order : Order) (loop : AgeLoop now v w s (c :: rest)) :
    AgeLoop now v (ageVap w now order s c).1 s rest := by
  unfold Master.ageVap
  dsimp only
  split
  · rename_i own
    split
    · exact loop.skip
    · split
      · exact loop.dropVap order own.1
      · split
        · split
          · exact loop.skip
          · split
            · split
              · exact loop.dropVap order own.1
              · exact loop.skip.alike (alike_updVap w c _ rfl)
            · exact loop.skip
        · exact loop.skip
  · exact loop.skip

end Loops

theorem whileFine_rule (body : View → Ref → View × Bool) (holds : View → List Ref → Prop)
    (each : ∀ w item rest, holds w (item :: rest) → holds (body w item).1 rest) (v : View)
    (items : List Ref)
    (start : holds v items) : ∃ rest, holds (whileFine body v items).1 rest := by
  -- a loop that an exception may end keeps what each round keeps
  induction items generalizing v with
  | nil => exact ⟨[], start⟩
  | cons item items ih =>
      have next := each v item items start
      unfold whileFine
      dsimp only
      split
      · exact ih _ next
      · exact ⟨items, next⟩

theorem foldl_rule (body : View → Ref → View) (holds : View → List Ref → Prop)
    (each : ∀ w item rest, holds w (item :: rest) → holds (body w item) rest) (v : View)
    (items : List Ref)
    (start : holds v items) : holds (items.foldl body v) [] := by
  induction items generalizing v with
  | nil => exact start
  | cons item items ih => exact ih _ (each v item items start)

theorem AgeLoop.start (v : View) (now : Int) (order : Order) (s : Ref) (grounded : GroundedView v)
    (tracked : Tracked v s) (off : (v.stations s).status = .offLine) :
    AgeLoop now v v s (order.arrange (v.stations s).vapContainerSet.values) where
  moves := .refl
  grounded := grounded
  tracked := tracked
  off := off
  steady := .refl _
  listed := by
    intro c member
    exact .inl ((stored_iff grounded s c).mp ((order.perm _).mem_iff.mp member))
  distinct := by
    have members (c : Ref) (member : c ∈ order.arrange (v.stations s).vapContainerSet.values) :
        (v.stations s).vapContainerSet.lookup ((bindings v).key c) = some c :=
      (stored_iff grounded s c).mp ((order.perm _).mem_iff.mp member)
    have nodup : (order.arrange (v.stations s).vapContainerSet.values).Nodup :=
      (order.perm _).nodup_iff.mpr (values_nodup _ (bindings v).key fun key c found =>
        (grounded.stored s key c found).2.1)
    refine nodup.imp_of_mem ?_
    intro c d here there other same
    refine other (Option.some.inj ((members c here).symm.trans ?_))
    rw [same]
    exact members d there

theorem removeStation_grounded (v : View) (s : Ref) (grounded : GroundedView v)
    (idle : (v.stations s).vapContainerSet = ∅) (tracked : Tracked v s) :
    GroundedView (removeStation v (v.stations s).macAddress) := by
  have after : bindings (removeStation v (v.stations s).macAddress) =
      { bindings v with stationMap := v.stationMap.erase (v.stations s).macAddress } := rfl
  unfold GroundedView
  rw [after]
  refine { grounded with stored := ?_, tracked := ?_ }
  · intro t key c found
    obtain ⟨old, named, known⟩ := grounded.stored t key c found
    refine ⟨old, named, ?_⟩
    have other : (bindings v).stationMac t ≠ (v.stations s).macAddress := by
      intro same
      rw [same] at known
      cases known.symm.trans tracked
      exact absurd found (by simp [bindings, idle])
    exact (AList.lookup_erase_ne other).trans known
  · intro mac t found
    exact grounded.tracked mac t (lookup_erase_some found)

theorem ageStation_ages (v : View) (now : Int) (order : Order) (s : Ref) (grounded : GroundedView v)
    (tracked : Tracked v s) :
    Ages now v (ageStation v now order s).1 ∧ GroundedView (ageStation v now order s).1 ∧
      ∀ t, t ≠ s → Tracked v t → Tracked (ageStation v now order s).1 t := by
  -- one station in the aging run; the other stations stay tracked
  have finished {w : View} {rest : List Ref} (loop : AgeLoop now v w s rest) :
      Ages now v w ∧ GroundedView w ∧ ∀ t, t ≠ s → Tracked v t → Tracked w t :=
    ⟨loop.moves, loop.grounded, fun t _ before => loop.steady.tracked before⟩
  unfold ageStation
  split
  · exact ⟨.refl, grounded, fun _ _ before => before⟩
  · rename_i status
    have off : (v.stations s).status = .offLine := by
      cases here : (v.stations s).status with
      | onLine => exact absurd here status
      | offLine => rfl
    have start := AgeLoop.start v now order s grounded tracked off
    split
    · split
      · refine finished (foldl_rule _ (fun w rest => AgeLoop now v w s rest) ?_ v _ start)
        intro w c rest loop
        split
        · rename_i own
          exact loop.dropVap order own
        · exact loop.skip
      · rename_i none
        have idle : (v.stations s).vapContainerSet = ∅ := by
          refine AList.ext (List.eq_nil_of_length_eq_zero ?_)
          simpa [Table.values] using none
        refine ⟨.single (.untrack s tracked off idle),
          removeStation_grounded v s grounded idle tracked, ?_⟩
        intro t other before
        have address : (v.stations t).macAddress ≠ (v.stations s).macAddress := by
          intro same
          unfold Tracked at before tracked
          rw [same, tracked] at before
          exact other (Option.some.inj before).symm
        exact (AList.lookup_erase_ne address).trans before
    · obtain ⟨rest, loop⟩ := whileFine_rule _ (fun w rest => AgeLoop now v w s rest)
        (fun w c rest loop => loop.ageVap order) v _ start
      exact finished loop

structure AgeRun (now : Int) (v w : View) (rest : List Ref) : Prop where
  moves : Ages now v w
  grounded : GroundedView w
  distinct : rest.Nodup
  tracked : ∀ s ∈ rest, Tracked w s

theorem AgeRun.start (v : View) (now : Int) (order : Order) (grounded : GroundedView v) :
    AgeRun now v v (order.arrange v.stationMap.values) where
  moves := .refl
  grounded := grounded
  distinct := (order.perm _).nodup_iff.mpr
      (values_nodup _ (bindings v).stationMac fun mac s found =>
    (grounded.tracked mac s found).2.symm)
  tracked := by
    intro s member
    obtain ⟨mac, found⟩ := (mem_values _ s).mp ((order.perm _).mem_iff.mp member)
    have named : (v.stations s).macAddress = mac := (grounded.tracked mac s found).2
    subst named
    exact found

theorem AgeRun.ageStation {now : Int} {v w : View} {s : Ref} {rest : List Ref} (order : Order)
    (run : AgeRun now v w (s :: rest)) : AgeRun now v (ageStation w now order s).1 rest := by
  obtain ⟨aged, kept, others⟩ :=
    ageStation_ages w now order s run.grounded (run.tracked s List.mem_cons_self)
  refine ⟨run.moves.trans aged, kept, run.distinct.of_cons, fun t member => ?_⟩
  refine others t ?_ (run.tracked t (List.mem_cons_of_mem s member))
  rintro rfl
  exact (List.nodup_cons.mp run.distinct).1 member

theorem ageTask_ages (v : View) (now : Int) (order : Order) (grounded : GroundedView v) :
    Ages now v (ageTask v now order) ∧ GroundedView (ageTask v now order) := by
  obtain ⟨rest, run⟩ := whileFine_rule (fun w s => ageStation w now order s) (AgeRun now v)
    (fun w s rest run => run.ageStation order) v _ (AgeRun.start v now order grounded)
  exact ⟨run.moves, run.grounded⟩

end LazyAS.ViewMoves

import LazyAS.ViewGrowth
import LazyAS.Runs

/-! Station view coherence over whole runs of the controller: the status of a station, its
working container and its container table agree. Four slips of the handlers break it: a
NEW_STA report for an off-line station without a container of the SSID, one that adopts a
container which the agent holds for another station, the acknowledged deletion of an on-line
container that is not the working one, and an add command that replaces the working container
under its key. In runs without them it holds throughout. -/
namespace LazyAS.StationCoherence
open WireText ControllerView Master VapBindings BindingLaws ViewUpkeep ViewGrowth Runs

/-! The acknowledgement of a deletion. -/

theorem remove_sheds (v : View) (now : Int) (a s c : Ref)
    (spared : Coherent (bindings v) s → ∀ w, (bindings v).working s = some w →
      (bindings v).key w ≠ (bindings v).key c) :
    Sheds (bindings v) (bindings
      (if (v.agentMap (v.agents a).macAddress).isSome ∧ agentStatus v a now = .onLine then
        stationRemoveVap (agentRemoveVap v a c) s c
      else v)) := by
  split
  · rw [bindings_stationRemoveVap, bindings_agentRemoveVap]
    exact (sheds_release _ a c).trans (sheds_drop _ s c fun coherent => spared { coherent with })
  · exact .refl _

theorem remove_shrinks (v : View) (now : Int) (a s c : Ref) :
    Shrinks (bindings v) (bindings
      (if (v.agentMap (v.agents a).macAddress).isSome ∧ agentStatus v a now = .onLine then
        stationRemoveVap (agentRemoveVap v a c) s c
      else v)) := by
  split
  · rw [bindings_stationRemoveVap, bindings_agentRemoveVap]
    exact (shrinks_release _ a c).trans (shrinks_drop _ s c)
  · exact .refl _

theorem acknowledgeDel_shrinks (v : View) (now : Int) (a s : Ref) (ssid : Text) :
    Shrinks (bindings v) (bindings (acknowledgeDel v now a s ssid)) := by
  have off (c : Ref) : Shrinks (bindings v)
      (bindings (setVapStatus (setStationStatus v s .offLine) c .offLine)) := by
    rw [bindings_setVapStatus, bindings_setStationStatus]
    exact (shrinks_setStatus_off _ s).trans (shrinks_setVap_off _ c)
  unfold acknowledgeDel
  split
  · split
    · exact .refl _
    · rename_i c _
      dsimp only
      split
      · split
        · exact off c
        · split
          · rw [bindings_setWorking]
            exact (off c).trans (shrinks_setWorking _ s none)
          · exact (off c).trans (remove_shrinks _ now a s c)
      · split
        · exact (off c).trans (remove_shrinks _ now a s c)
        · exact remove_shrinks v now a s c
  · exact .refl _

/-- The deleted container is off line, or the station works on it or on nothing. -/
def DelFits (v : View) (s c : Ref) : Prop :=
  (v.vaps c).status = .onLine →
    (v.stations s).workingVapContainer = some c ∨ (v.stations s).workingVapContainer = none

theorem clear_coherent (b : Bindings) (sound : Sound b) {s c : Ref} (own : b.vapStation c = s)
    (after : Bindings) (idle : after.working s = none)
    (shape : after = (b.setStatus s .offLine).setVap c .offLine ∨
      after = ((b.setStatus s .offLine).setVap c .offLine).setWorking s none) :
    ∀ t, Coherent b t → Coherent after t := by
  have touches : Touches s b ((b.setStatus s .offLine).setVap c .offLine) :=
    (touches_setStatus b s .offLine).trans (touches_setVap _ s c .offLine own)
  intro t coherent
  by_cases same : t = s
  · subst same
    refine coherent_idle ?_ idle
    rcases shape with rfl | rfl
    · exact Function.update_self _ _ _
    · exact Function.update_self _ _ _
  · rcases shape with rfl | rfl
    · exact touches.coherent sound same coherent
    · exact (touches.trans (touches_setWorking _ s none)).coherent sound same coherent

theorem acknowledgeDel_sheds (v : View) (now : Int) (a s : Ref) (ssid : Text)
    (sound : Sound (bindings v))
    (fits : ∀ c, agentSetContains v s (.agent a) → stationVap v s a ssid = some c → DelFits v s c) :
    Sheds (bindings v) (bindings (acknowledgeDel v now a s ssid)) := by
  refine ⟨acknowledgeDel_shrinks v now a s ssid, ?_⟩
  unfold acknowledgeDel
  by_cases linked : agentSetContains v s (.agent a) = true
  · rw [if_pos linked]
    cases stored : stationVap v s a ssid with
    | none => exact fun _ coherent => coherent
    | some c =>
        have own : (bindings v).vapStation c = s := (sound.stored s _ c stored).2.1
        have off : bindings (setVapStatus (setStationStatus v s .offLine) c .offLine) =
            ((bindings v).setStatus s .offLine).setVap c .offLine := by
          rw [bindings_setVapStatus, bindings_setStationStatus]
        have working : ((setVapStatus (setStationStatus v s .offLine) c .offLine).stations
            s).workingVapContainer =
            (v.stations s).workingVapContainer := congrFun (congrArg Bindings.working off) s
        by_cases online : (v.vaps c).status = .onLine
        · simp only [if_pos online, working]
          rcases fits c linked stored online with here | idle
          · simp only [here, if_true, bindings_setWorking, off]
            exact clear_coherent (bindings v) sound own _ (Function.update_self _ _ _) (.inr rfl)
          · simp only [idle, off]
            exact clear_coherent (bindings v) sound own _ idle (.inl rfl)
        · have some_agent : (agentSet v s).length ≠ 0 := by
            have member : a ∈ agentSet v s := List.contains_iff_mem.mp linked
            exact List.length_pos_iff_exists_mem.mpr ⟨a, member⟩ |>.ne'
          simp only [if_neg online, if_neg some_agent]
          refine (remove_sheds v now a s c ?_).coherent
          intro coherent w hit
          obtain ⟨up, -, found⟩ := coherent.working w hit
          have different : w ≠ c := by
            rintro rfl
            exact online up
          exact stored_key_ne sound stored found different
  · rw [if_neg linked]
    exact fun _ coherent => coherent

def acknowledged (v : View) (sc : Ref) (message : Text) : Option (Ref × Ref) := do
  let a ← v.sc2AgentMap sc
  let msgId ← substring message 0 4
  let sendMsg ← v.sendMsgBuffer ((v.agents a).macAddress ++ msgId)
  let s ← v.stationMap.lookup sendMsg.msg.staMacAddr
  let c ← stationVap v s a sendMsg.msg.ssid
  if sendMsg.msg.msgType = .delVap ∧ agentSetContains v s (.agent a) then some (s, c) else none

theorem processMsgOk_outcome (v : View) (now : Int) (order : Order) (sc : Ref) (message : Text)
    (sound : Sound (bindings v)) :
    Sheds (bindings v) (bindings (processMsgOk v now order sc message)) ∨
    ∃ a s ssid sendMsgId entry, processMsgOk v now order sc message =
        acknowledgeDel (putSendMsg v sendMsgId entry) now a s ssid ∧
      ∀ c, agentSetContains v s (.agent a) → stationVap v s a ssid = some c →
        acknowledged v sc message = some (s, c) := by
  unfold processMsgOk
  split
  · rename_i a msgId registered taken
    dsimp only
    split
    · exact .inl (.refl _)
    · rename_i sendMsg stored
      split
      · split
        · split
          · exact .inl (.refl _)
          · exact .inl (delVapContainer_sheds (putSendMsg v _ _) sound now order _ _ _ _)
        · exact .inl (.refl _)
      · rename_i deletes
        split
        · exact .inl (.refl _)
        · rename_i s known
          refine .inr ⟨a, s, sendMsg.msg.ssid, _, _, rfl, ?_⟩
          intro c linked found
          simp [acknowledged, registered, taken, stored, known, found, deletes, linked]
      · exact .inl (.refl _)
      · exact .inl (.refl _)
  · exact .inl (.refl _)

/-! Whole runs. -/

/-- A call of the controller: the operation, its time and its order of iteration. -/
structure Event where
  op : Op
  now : Int
  order : Order

def next (v : View) (event : Event) : View := step v event.now event.order event.op

theorem bindings_informAgent (v : View) (a : Ref) (totStaSize channel : Int) (mode message : Text)
    (curPos : Int) : bindings (informAgent v a totStaSize channel mode message curPos) =
      bindings v := by
  rw [informAgent, bindings_mirror]
  exact bindings_agent_frame v _ _ rfl rfl rfl

theorem processMsgInterfaceNum_bindings (v : View) (sc : Ref) (message : Text) :
    bindings (processMsgInterfaceNum v sc message) = bindings v := by
  unfold processMsgInterfaceNum
  split
  · exact bindings_informAgent v _ _ _ _ message _
  · rfl

theorem processMsgHeartBeat_bindings (v : View) (now : Int) (sc : Ref) (message : Text)
    (written : Bool) :
    bindings (processMsgHeartBeat v now sc message written) = bindings v := by
  unfold processMsgHeartBeat
  split
  · rfl
  · rename_i a _
    have heard := bindings_agent_frame v a (fun agent => { agent with lastHeartBeat := now }) rfl
        rfl rfl
    dsimp only
    split
    · exact heard
    · exact heard

theorem processMsgErr_bindings (v : View) (sc : Ref) (message : Text) :
    bindings (processMsgErr v sc message) = bindings v := by
  unfold processMsgErr
  split
  · dsimp only
    split
    · rfl
    · rfl
  · rfl

def guarded : Op → Bool
  | .newStation _ _ | .ok _ _ | .addVap _ _ | .cmd _ => true
  | _ => false

theorem step_safe (v : View) (now : Int) (order : Order) (op : Op) (sound : Sound (bindings v))
    (free : guarded op = false) : Safe (bindings v) (bindings (step v now order op)) := by
  cases op with
  | accept => exact .of_eq sound rfl
  | heard sc =>
      refine .of_eq sound ?_
      simp only [step, updateAgentHeard]
      split
      · rfl
      · exact bindings_agent_frame v _ _ rfl rfl rfl
  | localMac sc message => exact processMsgLocalMac_safe v now order sc message sound
  | heartBeat sc message written =>
      exact .of_eq sound (processMsgHeartBeat_bindings v now sc message written)
  | newStation sc message => exact absurd free (by simp [guarded])
  | delStation sc message =>
      exact .of_sheds sound (processMsgDelStation_sheds v now order sc message sound)
  | flowInfo sc message => exact .of_eq sound (processMsgFlowInfo_bindings v sc message)
  | probeInfo sc message => exact processMsgProbeInfo_safe v now order sc message sound
  | interfaceNum sc message => exact .of_eq sound (processMsgInterfaceNum_bindings v sc message)
  | ok sc message => exact absurd free (by simp [guarded])
  | err sc message => exact .of_eq sound (processMsgErr_bindings v sc message)
  | closeSocket sc => exact .of_sheds sound (closeSocket_sheds v sound order sc)
  | addVap isRoam message => exact absurd free (by simp [guarded])
  | queueVap a staMacAddress mode ssid =>
      refine .of_eq sound ?_
      simp only [step, addVapContainer]
      split
      · contradiction
      · split
        · rfl
        · split
          · split
            · rfl
            · rfl
          · rfl
  | delVap roamType a s ssid =>
      exact .of_sheds sound (delVapContainer_sheds v sound now order roamType a s ssid)
  | cancel message => exact .of_sheds sound (cancelTask_sheds v sound now order message)
  | age => exact .of_sheds sound (ageTask_sheds v now order sound)
  | cmd key => exact absurd free (by simp [guarded])
  | task index written =>
      simp only [step]
      split
      · exact .of_eq sound rfl
      · exact .of_sheds sound (runTask_sheds { v with tasks := v.tasks.eraseIdx index } now order
          _ written sound)
  | check index =>
      simp only [step]
      split
      · exact .of_eq sound rfl
      · exact .of_sheds sound (checkSendMsg_sheds { v with checks := v.checks.eraseIdx index } now
          order _ sound)

/-- The add command does not replace the working container of the station. -/
def SparesWorking (v : View) (s : Ref) (message : StationCtrlMessage) : Prop :=
  ∀ c, stationVap v s message.agent message.ssid = some c →
    (v.stations s).workingVapContainer ≠ some c

def KeepsCoherence (v : View) (event : Event) : Prop :=
  match event.op with
  | .newStation sc message =>
      ∀ a s ssid, reported v event.order sc message = some (a, s, ssid) →
        ((v.stations s).status = .offLine → stationVap v s a ssid ≠ none) ∧ AdoptsOwn v s a ssid
  | .ok sc message => ∀ s c, acknowledged v sc message = some (s, c) → DelFits v s c
  | .addVap isRoam message =>
      ∀ s, Accepted v event.now event.order isRoam message s → SparesWorking v s message
  | .cmd key =>
      ∀ appCmd s, v.cmdQueue.lookup key = some appCmd →
        Accepted v event.now event.order false appCmd.message s → SparesWorking v s appCmd.message
  | _ => True

structure CoherentView (b : Bindings) : Prop where
  sound : Sound b
  coherent : ∀ s, Coherent b s

theorem CoherentView.safe {b b' : Bindings} (holds : CoherentView b) (safe : Safe b b') :
    CoherentView b' :=
  ⟨safe.sound, fun s => safe.coherent s (holds.coherent s)⟩

theorem processMsgNewStation_coherent (v : View) (now : Int) (order : Order) (sc : Ref)
    (message : Text) (holds : CoherentView (bindings v))
    (fits : ∀ a s ssid, reported v order sc message = some (a, s, ssid) →
      ((v.stations s).status = .offLine → stationVap v s a ssid ≠ none) ∧ AdoptsOwn v s a ssid) :
    CoherentView (bindings (processMsgNewStation v now order sc message)) := by
  rcases processMsgNewStation_outcome v now order sc message holds.sound with
    safe | ⟨a, s, ssid, w, report, agent, station, admits, finished⟩
  · exact holds.safe safe
  · obtain ⟨listed, own⟩ := fits a s ssid report
    have sound := admits.sound holds.sound agent station own
    have touches := admits.touches holds.sound own
    have online (absent : stationVap v s a ssid = none) : (bindings v).status s = .onLine := by
      cases status : (v.stations s).status with
      | onLine => exact status
      | offLine => exact absurd absent (listed status)
    have here : Coherent (bindings w) s := by
      generalize bindings w = after at admits
      cases admits with
      | unchanged => exact holds.coherent s
      | resume c stored switches => exact resumed_coherent holds.sound stored
      | join absent switches => exact joined_coherent a ssid (online absent)
      | adopt c absent switches unlinked held =>
          exact adopted_coherent (own unlinked absent c held) (online absent)
      | stray absent off after shape => exact absurd absent (listed off)
    have admitted : CoherentView (bindings w) := by
      refine ⟨sound, fun t => ?_⟩
      by_cases same : t = s
      · subst same
        exact here
      · exact touches.coherent holds.sound same (holds.coherent t)
    exact admitted.safe (.of_sheds sound (finished sound))

theorem excuteAddVap_bindings (v : View) (now : Int) (order : Order) (isRoam : Bool)
    (message : StationCtrlMessage) (sound : Sound (bindings v)) :
    (∃ s, Accepted v now order isRoam message s ∧ message.agent < v.nextAgent ∧ s < v.nextStation ∧
      bindings (excuteAddVap v now order isRoam message).1 =
        added (bindings v) s message.agent message.ssid) ∨
    bindings (excuteAddVap v now order isRoam message).1 = bindings v ∨
    Safe (bindings v) (bindings (excuteAddVap v now order isRoam message).1) := by
  rcases excuteAddVap_cases v now order isRoam message with ⟨s, accepted⟩ | same |
      ⟨sc, -, -, closed⟩
  · obtain ⟨sc, connected, -⟩ := accepted.connected
    refine .inl ⟨s, accepted, sound.connected message.agent sc connected,
      sound.tracked message.staMacAddr s accepted.known, ?_⟩
    rw [accepted.excuteAddVap_eq, bindings_submit, bindings_createVap]
  · exact .inr (.inl (congrArg bindings same))
  · rw [closed]
    exact .inr (.inr (.of_sheds sound (closeSocket_sheds v sound order sc)))

theorem excuteAddVap_coherent (v : View) (now : Int) (order : Order) (isRoam : Bool)
    (message : StationCtrlMessage) (holds : CoherentView (bindings v))
    (fits : ∀ s, Accepted v now order isRoam message s → SparesWorking v s message) :
    CoherentView (bindings (excuteAddVap v now order isRoam message).1) := by
  rcases excuteAddVap_bindings v now order isRoam message holds.sound with
    ⟨s, accepted, agent, station, after⟩ | same | safe
  · rw [after]
    refine ⟨added_sound holds.sound message.ssid agent station, fun t => ?_⟩
    by_cases same : t = s
    · subst same
      exact added_coherent holds.sound message.agent message.ssid (holds.coherent t)
        (fits t accepted)
    · exact (touches_added s message.agent message.ssid).coherent holds.sound same
        (holds.coherent t)
  · rw [same]
    exact holds
  · exact holds.safe safe

theorem cmdTask_bindings (v : View) (now : Int) (order : Order) (key : Text) :
    bindings (cmdTask v now order key) = bindings v ∨
    ∃ appCmd, v.cmdQueue.lookup key = some appCmd ∧
      bindings (cmdTask v now order key) =
        bindings (excuteAddVap v now order false appCmd.message).1 := by
  unfold cmdTask
  split
  · exact .inl rfl
  · rename_i appCmd found
    split
    · split
      · dsimp only
        split
        · exact .inr ⟨appCmd, found, rfl⟩
        · exact .inr ⟨appCmd, found, rfl⟩
      · exact .inl rfl
    · exact .inl rfl

theorem next_coherent (v : View) (event : Event) (fits : KeepsCoherence v event)
    (holds : CoherentView (bindings v)) : CoherentView (bindings (next v event)) := by
  obtain ⟨op, now, order⟩ := event
  cases free : guarded op with
  | false => exact holds.safe (step_safe v now order op holds.sound free)
  | true =>
      cases op with
      | newStation sc message =>
          exact processMsgNewStation_coherent v now order sc message holds fits
      | ok sc message =>
          rcases processMsgOk_outcome v now order sc message holds.sound with
            sheds | ⟨a, s, ssid, sendMsgId, entry, result, listed⟩
          · exact holds.safe (.of_sheds holds.sound sheds)
          · have sheds := acknowledgeDel_sheds (putSendMsg v sendMsgId entry) now a s ssid
                holds.sound
              (fun c linked stored => fits s c (listed c linked stored))
            rw [← result] at sheds
            exact holds.safe (.of_sheds holds.sound sheds)
      | addVap isRoam message => exact excuteAddVap_coherent v now order isRoam message holds fits
      | cmd key =>
          rcases cmdTask_bindings v now order key with same | ⟨appCmd, found, same⟩
          · exact same ▸ holds
          · change CoherentView (bindings (cmdTask v now order key))
            rw [same]
            exact excuteAddVap_coherent v now order false appCmd.message holds
              (fun s accepted => fits appCmd s found accepted)
      | _ => exact absurd free (by simp [guarded])

theorem sound_empty : Sound (bindings View.empty) where
  stored := by simp [bindings, View.empty]
  held := by simp [bindings, View.empty]
  vapAgent := fun c old => absurd old (Nat.not_lt_zero c)
  vapStation := fun c old => absurd old (Nat.not_lt_zero c)
  tracked := by simp [bindings, View.empty]
  registered := by simp [bindings, View.empty]
  connected := by simp [bindings, View.empty]

/-- The status, the working container and the table of a station agree. -/
def StationCoherent (v : View) (s : Ref) : Prop :=
  ((v.stations s).status = .onLine ↔ (v.stations s).workingVapContainer ≠ none) ∧
  ∀ c, (v.stations s).workingVapContainer = some c →
    (v.vaps c).status = .onLine ∧ (v.vaps c).station = s ∧
      (v.stations s).vapContainerSet.lookup (vapKey v c) = some c

/-- In every run from the empty view whose steps make none of the slips, every tracked
station is coherent in every state. -/
theorem station_view_coherent (v : View) (reached : Reaches next KeepsCoherence View.empty v) :
    ∀ mac s, v.stationMap.lookup mac = some s → StationCoherent v s := by
  have holds : CoherentView (bindings v) :=
    reached.invariant (fun v => CoherentView (bindings v))
      ⟨sound_empty, fun s => coherent_idle rfl rfl⟩ next_coherent
  intro mac s _
  exact ⟨(holds.coherent s).online, (holds.coherent s).working⟩

def apMac : Text := "aabbccddee01".toList

def otherMac : Text := "aabbccddee02".toList

def staMac : Text := "0022446688aa".toList

def hello (sc : Ref) (mac : Text) : List Event :=
  [⟨.accept, 0, .stored⟩,
    ⟨.localMac sc ("000110901412".toList ++ mac), 100, .stored⟩,
    ⟨.interfaceNum sc "000211101502080300601001w".toList, 200, .stored⟩]

def probe (sc : Ref) : Event :=
  ⟨.probeInfo sc ("000410703212".toList ++ staMac ++ "03-60030100300601".toList ++ ['0']), 300,
    .stored⟩

def joinReport (mac : Text) : Text :=
  "000310403112".toList ++ staMac ++ "12".toList ++ mac ++ "01w".toList

def join (sc : Ref) (mac : Text) (now : Int) : Event :=
  ⟨.newStation sc (joinReport mac), now, .stored⟩

/-- A run that meets the condition: the station comes on line with its first report. -/
theorem first_join_coherent :
    let v := run next View.empty (hello 0 apMac ++ [join 0 apMac 400])
    v.stationMap.lookup staMac = some 0 ∧ (v.stations 0).status = .onLine ∧
        StationCoherent v 0 := by
  have fits : Allowed next KeepsCoherence View.empty (hello 0 apMac ++ [join 0 apMac 400]) := by
    have unknown : reported (run next View.empty (hello 0 apMac)) .stored 0 (joinReport apMac) =
        none := by
      decide +kernel
    refine ⟨trivial, trivial, trivial, ?_, trivial⟩
    intro a s ssid report
    exact absurd (unknown.symm.trans report) (by simp)
  have tracked : (run next View.empty (hello 0 apMac ++ [join 0 apMac 400])).stationMap.lookup
      staMac =
      some 0 := by decide +kernel
  exact ⟨tracked, by decide +kernel,
    station_view_coherent _ (Reaches.append _ .start fits) staMac 0 tracked⟩

/-- A station that is known from a probe and then joins works on a container and stays
off line. -/
theorem probed_station_stays_off :
    ¬ ∀ events mac s, (run next View.empty events).stationMap.lookup mac = some s →
      StationCoherent (run next View.empty events) s := by
  intro all
  have coherent := all (hello 0 apMac ++ [probe 0, join 0 apMac 400]) staMac 0 (by decide +kernel)
  have online := coherent.1.mpr (by decide +kernel)
  exact absurd online (by decide +kernel)

end LazyAS.StationCoherence

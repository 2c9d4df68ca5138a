import LazyAS.ReportDelivery
import LazyAS.StationCoherence

/-! `cn.fi.main.Worker`: what `MsgProcesser.run` does with one job, and what is left of a report
whose body cannot be read. All handlers read the whole body before they touch the view, but the
one for the interface of an AP. -/
namespace LazyAS.Worker
open WireText ControllerView Master
open ReportDelivery (checkLength)

/-- The characters between `MSG_ID_LEN` and `MSG_ID_LEN + MSG_TYPE_LEN`. -/
def msgType (message : Text) : Text := (message.drop 4).take 3

/-- The calls of `MsgProcesser.run` for one job. Only the first message of an AP does not count
as a sign of life. -/
def calls (sc : Ref) (message : Text) (written : Bool) : List Op :=
  if checkLength message < 0 then []
  else if msgType message = FNII_MSG_OK then [.heard sc, .ok sc message]
  else if msgType message = FNII_MSG_LOCAL_MAC then [.localMac sc message]
  else if msgType message = FNII_MSG_ERR then [.heard sc, .err sc message]
  else if msgType message = FNII_MSG_NEW_STA then [.heard sc, .newStation sc message]
  else if msgType message = FNII_MSG_DEL_STA then [.heard sc, .delStation sc message]
  else if msgType message = FNII_MSG_FLOW_INFO then [.heard sc, .flowInfo sc message]
  else if msgType message = FNII_MSG_PROBE_INFO then [.heard sc, .probeInfo sc message]
  else if msgType message = FNII_MSG_INTERFACE_NUM then [.heard sc, .interfaceNum sc message]
  else if msgType message = FNII_MSG_HEART_BEAT then [.heard sc, .heartBeat sc message written]
  else []

def processJob (v : View) (now : Int) (order : Order) (sc : Ref) (message : Text) (written : Bool) :
    View :=
  (calls sc message written).foldl (fun w op => step w now order op) v

/-! Bodies that cannot be read. -/

/-- The SSID list of an interface report up to the first entry that cannot be read, and whether
all of it was read. -/
def readSsids (message : Text) : Nat → Int → List Text × Bool
  | 0, _ => ([], true)
  | fuel + 1, curPos =>
      if curPos < message.length then
        match takeSized message curPos with
        | none => ([], false)
        | some (ssid, next) =>
            let rest := readSsids message fuel next
            (ssid :: rest.1, rest.2)
      else ([], true)

def stationReadable (message : Text) : Bool :=
  match takeStation message with
  | none => false
  | some (_, _, curPos) => message.length ≤ 48 || (takeSized message curPos).isSome

def flowReadable (message : Text) : Bool :=
  (do
    let (_, curPos) ← takeSized message bodyStart
    let (_, curPos) ← takeSizedLong message curPos
    takeSizedLong message curPos).isSome

def interfaceReadable (message : Text) : Bool :=
  match takeInterface message with
  | none => false
  | some (_, _, _, curPos) => (readSsids message message.length curPos).2

def readers : List (Text × (Text → Bool)) :=
  [(FNII_MSG_NEW_STA, stationReadable), (FNII_MSG_DEL_STA, stationReadable),
    (FNII_MSG_FLOW_INFO, flowReadable),
      (FNII_MSG_PROBE_INFO, fun message => (takeProbe message).isSome),
    (FNII_MSG_INTERFACE_NUM, interfaceReadable),
    (FNII_MSG_LOCAL_MAC, fun message => (takeSized message bodyStart).isSome)]

/-- A report of one of these types whose body cannot be read: a number that is not numeric, or a
field that runs past the end. -/
def Malformed (message : Text) : Prop :=
  ∃ reader ∈ readers, msgType message = reader.1 ∧ reader.2 message = false

def unheard (agent : Agent) : Agent := { agent with lastHeard := 0 }

/-- The same agents, stations and containers in the same tables, up to the agents' `lastHeard`. -/
structure SameView (v w : View) : Prop where
  agents : ∀ a, unheard (w.agents a) = unheard (v.agents a)
  stations : w.stations = v.stations
  vaps : w.vaps = v.vaps
  agentMap : w.agentMap = v.agentMap
  sc2AgentMap : w.sc2AgentMap = v.sc2AgentMap
  stationMap : w.stationMap = v.stationMap

/-- What `processMsgInterfaceNum` sets before it meets the entry it cannot read is there already. -/
def Known (v : View) (sc : Ref) (message : Text) : Prop :=
  ∀ a totStaSize channel mode curPos, v.sc2AgentMap sc = some a →
    takeInterface message = some (totStaSize, channel, mode, curPos) →
      (v.agents a).statCountSum = totStaSize ∧ (v.agents a).staCountIdle = totStaSize ∧
      (v.agents a).mode = some mode ∧ (v.agents a).channel = channel ∧
      ∀ ssid ∈ (readSsids message message.length curPos).1, ssid ∈ (v.agents a).ssidSet

theorem sameView_refl (v : View) : SameView v v := ⟨fun _ => rfl, rfl, rfl, rfl, rfl, rfl⟩

theorem SameView.trans {u v w : View} (first : SameView u v) (second : SameView v w) :
    SameView u w := by
  constructor
  · intro a
    exact (second.agents a).trans (first.agents a)
  · exact second.stations.trans first.stations
  · exact second.vaps.trans first.vaps
  · exact second.agentMap.trans first.agentMap
  · exact second.sc2AgentMap.trans first.sc2AgentMap
  · exact second.stationMap.trans first.stationMap

theorem SameView.symm {v w : View} (same : SameView v w) : SameView w v :=
  ⟨fun a => (same.agents a).symm, same.stations.symm, same.vaps.symm, same.agentMap.symm,
    same.sc2AgentMap.symm, same.stationMap.symm⟩

theorem heard_sameView (v : View) (now : Int) (sc : Ref) :
    SameView v (updateAgentHeard v now sc) := by
  unfold updateAgentHeard
  cases v.sc2AgentMap sc with
  | none => exact sameView_refl v
  | some a =>
      constructor
      · intro b
        by_cases here : b = a
        · subst here
          simp [updAgent, unheard]
        · simp [updAgent, here]
      all_goals rfl

theorem known_same (v w : View) (sc : Ref) (message : Text) (same : SameView v w) :
    Known w sc message ↔ Known v sc message := by
  unfold Known
  rw [same.sc2AgentMap]
  have kept {α : Type} (field : Agent → α) (a : Ref) : field (unheard (w.agents a)) =
      field (unheard (v.agents a)) :=
    congrArg field (same.agents a)
  have sum a : (w.agents a).statCountSum = (v.agents a).statCountSum := kept Agent.statCountSum a
  have idle a : (w.agents a).staCountIdle = (v.agents a).staCountIdle := kept Agent.staCountIdle a
  have mode a : (w.agents a).mode = (v.agents a).mode := kept Agent.mode a
  have channel a : (w.agents a).channel = (v.agents a).channel := kept Agent.channel a
  have ssids a : (w.agents a).ssidSet = (v.agents a).ssidSet := kept Agent.ssidSet a
  simp only [sum, idle, mode, channel, ssids]

/-! The handlers that read first. -/

theorem resolveSsid_unread (v : View) (order : Order) (a : Ref) (message msgId staMacAddr : Text)
    (curPos : Int) (taken : takeStation message = some (msgId, staMacAddr, curPos))
    (unread : stationReadable message = false) :
    resolveSsid v order a message curPos = none := by
  unfold stationReadable at unread
  rw [taken] at unread
  simp only [Bool.or_eq_false_iff, decide_eq_false_iff_not, Option.isSome_eq_false_iff,
    Option.isNone_iff_eq_none] at unread
  unfold resolveSsid
  rw [if_neg unread.1, unread.2]
  rfl

theorem newStation_unread (v : View) (now : Int) (order : Order) (sc : Ref) (message : Text)
    (unread : stationReadable message = false) :
    processMsgNewStation v now order sc message = v := by
  unfold processMsgNewStation
  cases v.sc2AgentMap sc with
  | none => rfl
  | some a =>
      cases taken : takeStation message with
      | none => rfl
      | some read =>
          dsimp only
          rw [resolveSsid_unread v order a message _ _ _ taken unread]

theorem delStation_unread (v : View) (now : Int) (order : Order) (sc : Ref) (message : Text)
    (unread : stationReadable message = false) :
    processMsgDelStation v now order sc message = v := by
  unfold processMsgDelStation
  cases v.sc2AgentMap sc with
  | none => rfl
  | some a =>
      cases taken : takeStation message with
      | none => rfl
      | some read =>
          dsimp only
          rw [resolveSsid_unread v order a message _ _ _ taken unread]
          cases v.stationMap.lookup read.2.1 <;> rfl

theorem flowInfo_unread (v : View) (sc : Ref) (message : Text)
    (unread : flowReadable message = false) :
    processMsgFlowInfo v sc message = v := by
  rw [processMsgFlowInfo_eq]
  have nothing : flowReport v sc message = none := by
    unfold flowReadable at unread
    unfold flowReport
    cases taken : takeSized message bodyStart with
    | none => rfl
    | some station =>
        rw [Option.isSome_eq_false_iff, Option.isNone_iff_eq_none, taken] at unread
        dsimp only [bind, Option.bind] at unread ⊢
        cases v.sc2AgentMap sc with
        | none => rfl
        | some a =>
            cases v.stationMap.lookup station.1 with
            | none => rfl
            | some s =>
                dsimp only
                cases (v.stations s).workingVapContainer with
                | none => rfl
                | some w =>
                    dsimp only
                    cases up : takeSizedLong message station.2 with
                    | none => rfl
                    | some up =>
                        rw [up] at unread
                        dsimp only at unread ⊢
                        rw [unread]
  rw [nothing]

theorem probeInfo_unread (v : View) (now : Int) (order : Order) (sc : Ref) (message : Text)
    (unread : takeProbe message = none) : processMsgProbeInfo v now order sc message = v := by
  unfold processMsgProbeInfo
  rw [unread]
  cases v.sc2AgentMap sc <;> rfl

theorem localMac_unread (v : View) (now : Int) (order : Order) (sc : Ref) (message : Text)
    (unread : takeSized message bodyStart = none) :
    processMsgLocalMac v now order sc message = v := by
  unfold processMsgLocalMac
  rw [unread]

/-! The handler that does not. -/

def addSsid (ssids : List Text) (ssid : Text) : List Text :=
  if ssids.contains ssid then ssids else ssids ++ [ssid]

theorem takeSsids_readSsids (message : Text) (fuel : Nat) (curPos : Int) (ssids : List Text) :
    takeSsids message fuel curPos ssids =
      (readSsids message fuel curPos).1.foldl addSsid ssids := by
  induction fuel generalizing curPos ssids with
  | zero => rfl
  | succ fuel ih =>
      unfold takeSsids readSsids
      by_cases inside : curPos < message.length
      · rw [if_pos inside, if_pos inside]
        cases takeSized message curPos with
        | none => rfl
        | some entry => exact ih entry.2 _
      · rw [if_neg inside, if_neg inside]
        rfl

theorem addSsid_mem (ssids : List Text) (ssid known : Text) :
    known ∈ addSsid ssids ssid ↔ known ∈ ssids ∨ known = ssid := by
  unfold addSsid
  by_cases inside : ssids.contains ssid = true
  · rw [if_pos inside]
    constructor
    · exact Or.inl
    · intro either
      rcases either with old | new
      · exact old
      · exact new ▸ List.contains_iff_mem.mp inside
  · rw [if_neg inside, List.mem_append, List.mem_singleton]

theorem addSsids_mem (read ssids : List Text) (known : Text) :
    known ∈ read.foldl addSsid ssids ↔ known ∈ ssids ∨ known ∈ read := by
  induction read generalizing ssids with
  | nil => simp
  | cons ssid read ih =>
      rw [List.foldl_cons, ih, addSsid_mem, List.mem_cons, or_assoc]

theorem addSsids_same (read ssids : List Text) :
    read.foldl addSsid ssids = ssids ↔ ∀ ssid ∈ read, ssid ∈ ssids := by
  constructor
  · intro same ssid member
    rw [← same, addSsids_mem]
    exact Or.inr member
  · intro known
    induction read with
    | nil => rfl
    | cons ssid read ih =>
        rw [List.forall_mem_cons] at known
        rw [List.foldl_cons, addSsid, if_pos (List.contains_iff_mem.mpr known.1), ih known.2]

theorem interfaceNum_sameView (v : View) (sc : Ref) (message : Text) :
    SameView v (processMsgInterfaceNum v sc message) ↔ Known v sc message := by
  -- the interface report of a tracked AP leaves everything as it was only where it says nothing new
  unfold processMsgInterfaceNum Known
  cases v.sc2AgentMap sc with
  | none => exact iff_of_true (sameView_refl v) (by simp)
  | some a =>
      cases takeInterface message with
      | none => exact iff_of_true (sameView_refl v) (by simp)
      | some read =>
          have ssids := takeSsids_readSsids message message.length read.2.2.2 (v.agents a).ssidSet
          constructor
          · intro same b totStaSize channel mode curPos agent taken
            have here := same.agents a
            obtain rfl : a = b := by simpa using agent
            rw [Option.some.injEq] at taken
            simp only [informAgent, mirror, updAgent, Function.update_self, unheard, taken] at here
            refine ⟨?_, ?_, ?_, ?_, ?_⟩
            · exact (congrArg Agent.statCountSum here).symm
            · exact (congrArg Agent.staCountIdle here).symm
            · exact (congrArg Agent.mode here).symm
            · exact (congrArg Agent.channel here).symm
            · have kept := congrArg Agent.ssidSet here
              rw [taken] at ssids
              exact (addSsids_same _ _).mp (ssids.symm.trans kept)
          · intro known
            have all := known a read.1 read.2.1 read.2.2.1 read.2.2.2 rfl rfl
            constructor
            · intro b
              by_cases here : b = a
              · subst here
                have kept := (addSsids_same _ _).mpr all.2.2.2.2
                rw [← ssids] at kept
                simp only [informAgent, mirror, updAgent, Function.update_self, unheard, kept,
                  ← all.1, ← all.2.2.1, ← all.2.2.2.1]
                rw [all.1, ← all.2.1]
              · simp [informAgent, mirror, updAgent, here]
            all_goals rfl

theorem silent_job (v : View) (now : Int) (order : Order) (sc : Ref) (message : Text)
    (written : Bool) (op : Op) (job : calls sc message written = [.heard sc, op])
    (silent : ∀ w, step w now order op = w) :
    SameView v (processJob v now order sc message written) := by
  rw [processJob, job, List.foldl_cons, List.foldl_cons, List.foldl_nil, silent]
  exact heard_sameView v now sc

/-- A report that cannot be read leaves the view as it is, but for an interface report with a
broken SSID list: what stands before the broken entry is set. -/
theorem malformed_sameView_iff (v : View) (now : Int) (order : Order) (sc : Ref) (message : Text)
    (written : Bool) (accepted : 0 ≤ checkLength message) (malformed : Malformed message) :
    SameView v (processJob v now order sc message written) ↔
      (msgType message = FNII_MSG_INTERFACE_NUM → Known v sc message) := by
  have taken : ¬ checkLength message < 0 := Int.not_lt.mpr accepted
  have heard := heard_sameView v now sc
  have apart (other : msgType message ≠ FNII_MSG_INTERFACE_NUM) :
      msgType message = FNII_MSG_INTERFACE_NUM → Known v sc message := fun same => absurd same other
  obtain ⟨reader, member, type, unread⟩ := malformed
  simp only [readers, List.mem_cons, List.not_mem_nil, or_false] at member
  rcases member with rfl | rfl | rfl | rfl | rfl | rfl
  · have job : calls sc message written = [.heard sc, .newStation sc message] := by
      rw [calls, if_neg taken, type]
      rfl
    have silent := silent_job v now order sc message written _ job fun w =>
        newStation_unread w now order sc message unread
    exact iff_of_true silent (apart (by rw [type]; decide))
  · have job : calls sc message written = [.heard sc, .delStation sc message] := by
      rw [calls, if_neg taken, type]
      rfl
    have silent := silent_job v now order sc message written _ job fun w =>
        delStation_unread w now order sc message unread
    exact iff_of_true silent (apart (by rw [type]; decide))
  · have job : calls sc message written = [.heard sc, .flowInfo sc message] := by
      rw [calls, if_neg taken, type]
      rfl
    have silent := silent_job v now order sc message written _ job fun w =>
        flowInfo_unread w sc message unread
    exact iff_of_true silent (apart (by rw [type]; decide))
  · have job : calls sc message written = [.heard sc, .probeInfo sc message] := by
      rw [calls, if_neg taken, type]
      rfl
    have silent := silent_job v now order sc message written _ job fun w =>
        probeInfo_unread w now order sc message (by simpa using unread)
    exact iff_of_true silent (apart (by rw [type]; decide))
  · have job : calls sc message written = [.heard sc, .interfaceNum sc message] := by
      rw [calls, if_neg taken, type]
      rfl
    rw [processJob, job, List.foldl_cons, List.foldl_cons, List.foldl_nil, step, step]
    have known := known_same v (updateAgentHeard v now sc) sc message heard
    constructor
    · intro same _
      rw [← known, ← interfaceNum_sameView]
      exact heard.symm.trans same
    · intro told
      apply heard.trans
      rw [interfaceNum_sameView, known]
      exact told type
  · have job : calls sc message written = [.localMac sc message] := by
      rw [calls, if_neg taken, type]
      rfl
    rw [processJob, job, List.foldl_cons, List.foldl_nil, step,
      localMac_unread v now order sc message (by simpa using unread)]
    exact iff_of_true (sameView_refl v) (apart (by rw [type]; decide))

open StationCoherence (hello apMac)

def connected : View := Runs.run StationCoherence.next View.empty (hello 0 apMac)

def cutProbe : Text := "0003107006120022".toList

theorem cut_probe_sameView :
    SameView connected (processJob connected 300 .stored 0 cutProbe true) := by
  apply (malformed_sameView_iff connected 300 .stored 0 cutProbe true (by decide +kernel) ?_).mpr
  · intro interface
    exact absurd interface (by decide +kernel)
  · exact ⟨(FNII_MSG_PROBE_INFO, fun message => (takeProbe message).isSome), by simp [readers],
      by decide +kernel, by decide +kernel⟩

def brokenInterface : Text := "0003111014021603001010xx".toList

theorem broken_interface_applied :
    0 ≤ checkLength brokenInterface ∧ Malformed brokenInterface ∧
      ¬ SameView connected (processJob connected 300 .stored 0 brokenInterface true) := by
  refine ⟨by decide +kernel, ?_, ?_⟩
  · exact ⟨(FNII_MSG_INTERFACE_NUM,
      interfaceReadable), by simp [readers], by decide +kernel, by decide +kernel⟩
  · intro same
    have capacity := congrArg Agent.statCountSum (same.agents 0)
    exact absurd capacity (by decide +kernel)

end LazyAS.Worker

import LazyAS.AccessControlSingleApp
import LazyAS.StepTraces
import LazyAS.Worker

/-! The controller with `DualBandAccessControl` as its application: the worker processes reports,
and what they publish is handed to the callback of the application at once. A report that a
station has gone is never published, so the entry of a station stays once it is there. -/
namespace LazyAS.DepartedStations
open WireText ControllerView Master Subscriptions
open DualBandAccessControl (DescMap ProbeInfoMessage AddVap handleProbe)
open DecisionTree (TreeNode)
open Runs (run)

structure System where
  view : View
  descMap : DescMap

def System.empty : System := ⟨View.empty, fun _ => none⟩

section Application
variable (tree : TreeNode) (now : Int) (order : Order)

def perform (v : View) (calls : List AddVap) : View :=
  calls.foldl (fun w call =>
    addVapContainer w now order false call.agent call.staMacAddress call.mode call.ssid) v

/-- The callback that `init` registers. It has no branch for `FNII_MSG_NEW_STA`. -/
def exec (message : Published) (_ : Unit) (_ : EventSubscription) (σ : System) : System × Bool :=
  match message with
  | .newSta _ _ _ => (σ, true)
  | .probeInfo _ staMacAddr rssi au channel mode a =>
      let msg : ProbeInfoMessage := ⟨staMacAddr, rssi, au, channel, mode, a⟩
      let handled := handleProbe tree (AccessControlSingleApp.firstSsid σ.view order msg) σ.descMap
          msg
      ({ view := perform now order σ.view handled.calls, descMap := handled.descMap },
        handled.returned)

def station (staMacAddr : Text) (σ : System) : Option Status :=
  (σ.view.stationMap.lookup staMacAddr).map fun s => (σ.view.stations s).status

def publish (registry : Registry Unit) (σ : System) (message : Published) : System :=
  match message with
  | .newSta _ staMacAddr _ =>
      (checkSubscribtion (exec tree now order message) (station staMacAddr) order registry
        FNII_MSG_NEW_STA
        staMacAddr σ).1
  | .probeInfo _ staMacAddr _ _ _ _ _ =>
      (checkSubscribtion (exec tree now order message) (station staMacAddr) order registry
        FNII_MSG_PROBE_INFO
        staMacAddr σ).1

def operate (registry : Registry Unit) (σ : System) (op : Op) : System :=
  let after := step σ.view now order op
  (after.published.drop σ.view.published.length).foldl (publish tree now order registry)
    ⟨after, σ.descMap⟩

end Application

/-- A job of the worker, or what the connections, the executor and the timers do in between. -/
inductive Input where
  | job (sc : Ref) (message : Text) (written : Bool)
  | other (op : Op)

def Input.ops : Input → List Op
  | .job sc message written => Worker.calls sc message written
  | .other op => [op]

structure Event where
  input : Input
  now : Int
  order : Order

def next (tree : TreeNode) (registry : Registry Unit) (σ : System) (event : Event) : System :=
  event.input.ops.foldl (operate tree event.now event.order registry) σ

def probeOf (staMacAddr : Text) : Published → Bool
  | .newSta _ _ _ => false
  | .probeInfo _ mac _ _ _ _ _ => mac = staMacAddr

/-! What the application has subscribed. -/

theorem registerList_mem (subscribe : Text → List (Registration Unit)) (macAddrList : List Text)
    (r : Registration Unit) (member : r ∈ registerList subscribe macAddrList) :
    ∃ mac ∈ macAddrList, r ∈ subscribe mac := by
  induction macAddrList with
  | nil => simp [registerList] at member
  | cons mac macs ih =>
      rw [registerList, List.mem_append] at member
      rcases member with here | later
      · exact ⟨mac, List.mem_cons_self, here⟩
      · split at later
        · simp at later
        · obtain ⟨other, listed, found⟩ := ih later
          exact ⟨other, List.mem_cons_of_mem _ listed, found⟩

theorem registerList_covers (subscribe : Text → List (Registration Unit)) (macAddrList : List Text)
    (mac : Text) (listed : mac ∈ macAddrList ∨ ALL ∈ macAddrList) :
    ∃ covering, (covering = ALL ∨ covering = mac) ∧
      ∀ r ∈ subscribe covering, r ∈ registerList subscribe macAddrList := by
  -- the addresses are subscribed up to the first `*`
  induction macAddrList with
  | nil => simp at listed
  | cons first macs ih =>
      by_cases all : first = ALL
      · refine ⟨ALL, Or.inl rfl, ?_⟩
        intro r member
        rw [registerList, all]
        exact List.mem_append_left _ member
      · by_cases own : first = mac
        · refine ⟨mac, Or.inr rfl, ?_⟩
          intro r member
          rw [registerList, own]
          exact List.mem_append_left _ member
        · have later : mac ∈ macs ∨ ALL ∈ macs := by
            rcases listed with one | star
            · exact Or.inl ((List.mem_cons.mp one).resolve_left (Ne.symm own))
            · exact Or.inr ((List.mem_cons.mp star).resolve_left (Ne.symm all))
          obtain ⟨covering, which, covered⟩ := ih later
          refine ⟨covering, which, ?_⟩
          intro r member
          rw [registerList, if_neg all]
          exact List.mem_append_right _ (covered r member)

theorem init_id (macAddrList : List Text) (r probe : Registration Unit)
    (member : r ∈ DualBandAccessControl.init macAddrList) (mac : Text)
    (shape : probe = ⟨"DualBandAccessControl".toList,
      ⟨mac, FNII_MSG_PROBE_INFO, Status.offLine.text⟩, ()⟩)
    (same : r.id = probe.id) : r.es.msgType = FNII_MSG_PROBE_INFO ∧ r.es.staMacAddress = mac := by
  obtain ⟨other, _, member⟩ := registerList_mem _ _ r member
  subst shape
  simp only [List.mem_cons, List.not_mem_nil, or_false] at member
  rcases member with rfl | rfl
  · unfold Registration.id at same
    exact ⟨rfl, List.append_cancel_left same⟩
  · unfold Registration.id FNII_MSG_DEL_STA FNII_MSG_PROBE_INFO at same
    simp at same

theorem init_delivers (macAddrList : List Text) (mac : Text)
    (listed : mac ∈ macAddrList ∨ ALL ∈ macAddrList) :
    ∃ ids, (registerAll (DualBandAccessControl.init macAddrList)).msg2Subids.lookup
      FNII_MSG_PROBE_INFO = some ids ∧
      (∀ id ∈ ids, id ∈ (registerAll (DualBandAccessControl.init macAddrList)).subscriptions) ∧
      ∃ id ∈ ids, ∃ tuple, (registerAll
        (DualBandAccessControl.init macAddrList)).subscriptions.lookup id = some tuple ∧
        matchesMac tuple.es mac = true := by
  -- the probes of a listed station are delivered: the first subscription with the id is stored
  have holds := registerAll_holds (DualBandAccessControl.init macAddrList)
  obtain ⟨covering, which, covered⟩ := registerList_covers (fun mac =>
    [⟨"DualBandAccessControl".toList, ⟨mac, FNII_MSG_PROBE_INFO, Status.offLine.text⟩, ()⟩,
      ⟨"DualBandAccessControl".toList, ⟨mac, FNII_MSG_DEL_STA, Status.onLine.text⟩, ()⟩])
        macAddrList mac listed
  have present := covered _ List.mem_cons_self
  generalize shape : (⟨"DualBandAccessControl".toList,
    ⟨covering, FNII_MSG_PROBE_INFO, Status.offLine.text⟩, ()⟩ :
    Registration Unit) = probe at present
  -- what is found under the id is also a subscription to the probes of this address
  cases found : (DualBandAccessControl.init macAddrList).find? fun other => other.id = probe.id with
  | none => simpa using List.find?_eq_none.mp found probe present
  | some r =>
      have same : r.id = probe.id := by simpa using List.find?_some found
      obtain ⟨type, own⟩ := init_id macAddrList r probe (List.mem_of_find?_eq_some found) covering
          shape.symm same
      have stored : r ∈ accepted [] (DualBandAccessControl.init macAddrList) := by
        rw [accepted_mem, same]
        exact ⟨List.not_mem_nil, found⟩
      have listedId : r.id ∈ ((accepted [] (DualBandAccessControl.init macAddrList)).filter fun r =>
          r.es.msgType = FNII_MSG_PROBE_INFO).map Registration.id :=
        List.mem_map_of_mem (List.mem_filter.mpr ⟨stored, by simpa using type⟩)
      rw [← holds.listed] at listedId
      cases ids : (registerAll (DualBandAccessControl.init macAddrList)).msg2Subids.lookup
        FNII_MSG_PROBE_INFO with
      | none => simp [ids] at listedId
      | some ids' =>
          rw [ids, Option.getD_some] at listedId
          refine ⟨ids', rfl, ?_, r.id, listedId, r.tuple, holds.stored r stored, ?_⟩
          · intro id member
            have known := holds.listed FNII_MSG_PROBE_INFO
            rw [ids, Option.getD_some] at known
            rw [known] at member
            rw [holds.known]
            obtain ⟨r', inside, rfl⟩ := List.mem_map.mp member
            exact List.mem_map_of_mem (List.mem_of_mem_filter inside)
          · unfold matchesMac Registration.tuple
            rw [own]
            rcases which with all | one
            · simp [all]
            · simp [one]

/-! What a message does to the entry of a station. -/

section Delivery
variable (tree : TreeNode) (now : Int) (order : Order)

theorem perform_keeps (v : View) (calls : List AddVap) :
    (perform now order v calls).published = v.published ∧
      (perform now order v calls).stationMap = v.stationMap := by
  constructor
  · exact congrArg Prod.snd (StepTraces.traces_foldl v _
      (fun w call => StepTraces.traces_addVapContainer w now order false _ _ _ _) calls)
  · apply StepTraces.stationMap_foldl
    intro w call
    unfold addVapContainer
    dsimp only
    rw [if_neg Bool.false_ne_true]
    split
    · rfl
    · split
      · split <;> rfl
      · rfl

theorem exec_keeps (message : Published) (cb : Unit) (es : EventSubscription) (σ : System) :
    (exec tree now order message cb es σ).1.view.published = σ.view.published ∧
      (exec tree now order message cb es σ).1.view.stationMap = σ.view.stationMap := by
  cases message with
  | newSta msgId mac a => exact ⟨rfl, rfl⟩
  | probeInfo msgId mac rssi au channel mode a => exact perform_keeps now order σ.view _

theorem exec_entry (staMacAddr : Text) (message : Published) (cb : Unit) (es : EventSubscription)
    (σ : System) :
    if probeOf staMacAddr message then
      ((exec tree now order message cb es σ).1.descMap staMacAddr).isSome = true
    else (exec tree now order message cb es σ).1.descMap staMacAddr = σ.descMap staMacAddr := by
  cases message with
  | newSta msgId mac a => exact rfl
  | probeInfo msgId mac rssi au channel mode a =>
      obtain ⟨deci, entry⟩ := DualBandAccessControl.handleProbe_entry tree
        (AccessControlSingleApp.firstSsid σ.view order ⟨mac, rssi, au, channel, mode, a⟩) σ.descMap
        ⟨mac, rssi, au, channel, mode, a⟩
      unfold probeOf exec
      dsimp only
      rw [entry]
      by_cases own : mac = staMacAddr
      · rw [if_pos (by simpa using own), own, Function.update_self]
        rfl
      · rw [if_neg (by simpa using own), Function.update_of_ne (Ne.symm own)]

theorem publish_keeps (registry : Registry Unit) (σ : System) (message : Published) :
    (publish tree now order registry σ message).view.published = σ.view.published ∧
      (publish tree now order registry σ message).view.stationMap = σ.view.stationMap := by
  have delivered (type mac : Text) :
      (checkSubscribtion (exec tree now order message) (station mac) order registry type mac
        σ).1.view.published =
          σ.view.published ∧
        (checkSubscribtion (exec tree now order message) (station mac) order registry type mac
          σ).1.view.stationMap =
          σ.view.stationMap := by
    unfold checkSubscribtion
    split
    · apply deliver_keeps _ _ (fun later : System =>
        later.view.published = σ.view.published ∧ later.view.stationMap = σ.view.stationMap)
      · intro cb es later same
        have kept := exec_keeps tree now order message cb es later
        exact ⟨kept.1.trans same.1, kept.2.trans same.2⟩
      · exact ⟨rfl, rfl⟩
    · exact ⟨rfl, rfl⟩
  cases message with
  | newSta msgId mac a => exact delivered _ _
  | probeInfo msgId mac rssi au channel mode a => exact delivered _ _

def Deliverable (v : View) (message : Published) : Prop :=
  (∃ msgId mac a, message = .newSta msgId mac a) ∨
    ∃ msgId mac rssi au channel mode a, message = .probeInfo msgId mac rssi au channel mode a ∧
      mac ∈ v.stationMap

variable (macAddrList : List Text)

theorem publish_entry (staMacAddr : Text) (listed : staMacAddr ∈ macAddrList ∨ ALL ∈ macAddrList)
    (σ : System) (message : Published) (deliverable : Deliverable σ.view message) :
    (publish tree now order (registerAll (DualBandAccessControl.init macAddrList)) σ
      message).descMap staMacAddr =
        none ↔ σ.descMap staMacAddr = none ∧ probeOf staMacAddr message = false := by
  -- the application misses no probe of a station that it has subscribed to
  have entry := exec_entry tree now order staMacAddr message
  by_cases own : probeOf staMacAddr message = true
  · -- the first subscription that is reached runs, and leaves an entry
    simp only [own, if_true] at entry
    rcases deliverable with ⟨_, _, _, rfl⟩ | ⟨msgId, mac, rssi, au, channel, mode, a, rfl, tracked⟩
    · simp [probeOf] at own
    · have same : mac = staMacAddr := by simpa [probeOf] using own
      subst same
      obtain ⟨ids, stored, known, wanted⟩ := init_delivers macAddrList mac listed
      have present : (station mac σ).isSome = true := by
        unfold station
        rw [Option.isSome_map]
        exact AList.lookup_isSome.mpr tracked
      obtain ⟨current, status⟩ := Option.isSome_iff_exists.mp present
      have there : ((publish tree now order (registerAll (DualBandAccessControl.init macAddrList)) σ
          (.probeInfo msgId mac rssi au channel mode a)).descMap mac).isSome = true := by
        dsimp only [publish]
        unfold checkSubscribtion
        rw [status, stored]
        apply deliver_reaches _ _ (fun later : System => (later.descMap mac).isSome = true) entry
        · intro id member
          exact known id ((order.perm ids).subset member)
        · exact present
        · obtain ⟨id, member, found⟩ := wanted
          exact ⟨id, (order.perm ids).symm.subset member, found⟩
      rw [own]
      exact iff_of_false (fun gone => by simp [gone] at there) (fun both => by simp at both)
  · simp only [own, Bool.false_eq_true, if_false] at entry
    have kept : (publish tree now order (registerAll (DualBandAccessControl.init macAddrList)) σ
        message).descMap
        staMacAddr = σ.descMap staMacAddr := by
      have delivered (type mac : Text) :
          (checkSubscribtion (exec tree now order message) (station mac) order
          (registerAll (DualBandAccessControl.init macAddrList)) type mac σ).1.descMap staMacAddr =
            σ.descMap staMacAddr := by
        unfold checkSubscribtion
        split
        · apply deliver_keeps _ _ (fun later : System => later.descMap staMacAddr =
            σ.descMap staMacAddr)
          · intro cb es later same
            exact (entry cb es later).trans same
          · rfl
        · rfl
      cases message with
      | newSta msgId mac a => exact delivered _ _
      | probeInfo msgId mac rssi au channel mode a => exact delivered _ _
    rw [kept]
    simp [own]

def Unheard (staMacAddr : Text) (σ : System) : Prop :=
  σ.descMap staMacAddr = none ↔ ∀ message ∈ σ.view.published, probeOf staMacAddr message = false

theorem publish_all (staMacAddr : Text) (listed : staMacAddr ∈ macAddrList ∨ ALL ∈ macAddrList)
    (messages : List Published) (σ : System)
    (deliverable : ∀ message ∈ messages, Deliverable σ.view message) :
    let after := messages.foldl
      (publish tree now order (registerAll (DualBandAccessControl.init macAddrList))) σ
    after.view.published = σ.view.published ∧
      (after.descMap staMacAddr = none ↔
        σ.descMap staMacAddr = none ∧ ∀ message ∈ messages, probeOf staMacAddr message =
            false) := by
  dsimp only
  induction messages generalizing σ with
  | nil => simp
  | cons message messages ih =>
      rw [List.forall_mem_cons] at deliverable
      have kept := publish_keeps tree now order
          (registerAll (DualBandAccessControl.init macAddrList)) σ message
      have one := publish_entry tree now order macAddrList staMacAddr listed σ message deliverable.1
      have later : ∀ other ∈ messages, Deliverable
          (publish tree now order (registerAll (DualBandAccessControl.init macAddrList)) σ
              message).view other := by
        intro other member
        unfold Deliverable
        rw [kept.2]
        exact deliverable.2 other member
      obtain ⟨same, rest⟩ := ih _ later
      rw [List.foldl_cons]
      constructor
      · exact same.trans kept.1
      · rw [rest, one, List.forall_mem_cons, and_assoc]

theorem operate_unheard (staMacAddr : Text) (listed : staMacAddr ∈ macAddrList ∨ ALL ∈ macAddrList)
    (σ : System) (op : Op) (before : Unheard staMacAddr σ) :
    Unheard staMacAddr (operate tree now order
      (registerAll (DualBandAccessControl.init macAddrList)) σ op) := by
  obtain ⟨fresh, told, kinds⟩ := StepTraces.step_publishes σ.view now order op
  have news : (step σ.view now order op).published.drop σ.view.published.length = fresh := by
    rw [told, List.drop_left]
  obtain ⟨same, entry⟩ := publish_all tree now order macAddrList staMacAddr listed fresh
    ⟨step σ.view now order op, σ.descMap⟩ kinds
  unfold Unheard operate
  dsimp only
  rw [news, same, entry, told, List.forall_mem_append]
  exact and_congr_left fun _ => before

end Delivery

section Departures
variable (tree : TreeNode) (macAddrList : List Text)

/-- The steps of the controller with the application of a list of addresses. -/
abbrev serve (σ : System) (event : Event) : System :=
  next tree (registerAll (DualBandAccessControl.init macAddrList)) σ event

theorem next_unheard (staMacAddr : Text) (listed : staMacAddr ∈ macAddrList ∨ ALL ∈ macAddrList)
    (σ : System) (event : Event) (before : Unheard staMacAddr σ) :
    Unheard staMacAddr (serve tree macAddrList σ event) :=
  Runs.run_invariant (Unheard staMacAddr) before
    (fun σ op => operate_unheard tree event.now event.order macAddrList staMacAddr listed σ op)
      event.input.ops

/-- A job tells that a tracked station has left a tracked agent. -/
structure Departs (v : View) (sc : Ref) (message staMacAddr : Text) : Prop where
  sound : 0 ≤ ReportDelivery.checkLength message
  type : Worker.msgType message = FNII_MSG_DEL_STA
  agent : (v.sc2AgentMap sc).isSome = true
  station : staMacAddr ∈ v.stationMap
  named : ∃ msgId curPos, takeStation message = some (msgId, staMacAddr, curPos)

theorem departure_silent (σ : System) (sc : Ref) (message : Text) (written : Bool) (now : Int)
    (order : Order) (sound : 0 ≤ ReportDelivery.checkLength message)
    (type : Worker.msgType message = FNII_MSG_DEL_STA) :
    (serve tree macAddrList σ ⟨.job sc message written, now, order⟩).descMap = σ.descMap := by
  have job : Worker.calls sc message written = [.heard sc, .delStation sc message] := by
    rw [Worker.calls, if_neg (Int.not_lt.mpr sound), type]
    rfl
  have heard : (step σ.view now order (.heard sc)).published = σ.view.published := by
    simp only [step, updateAgentHeard]
    split <;> rfl
  have left (v : View) : (step v now order (.delStation sc message)).published = v.published :=
    congrArg Prod.snd (StepTraces.traces_processMsgDelStation v now order sc message)
  have quiet (σ' : System) (op : Op)
      (same : (step σ'.view now order op).published = σ'.view.published) :
      (operate tree now order (registerAll (DualBandAccessControl.init macAddrList)) σ'
          op).descMap = σ'.descMap := by
    unfold operate
    dsimp only
    rw [same, List.drop_length]
    rfl
  unfold serve next Input.ops
  dsimp only
  rw [job, List.foldl_cons, List.foldl_cons, List.foldl_nil, quiet _ _ (left _), quiet _ _ heard]

/-- Behind the departure of a station there is no entry for it exactly when none of its probes was
published before. -/
theorem departed_entry_iff (staMacAddr : Text)
    (listed : staMacAddr ∈ macAddrList ∨ ALL ∈ macAddrList) (events : List Event) (sc : Ref)
    (message : Text) (written : Bool) (now : Int) (order : Order)
    (departs : Departs (run (serve tree macAddrList) .empty events).view sc message staMacAddr) :
    (serve tree macAddrList (run (serve tree macAddrList) .empty events)
        ⟨.job sc message written, now, order⟩).descMap staMacAddr = none ↔
      ∀ published ∈ (run (serve tree macAddrList) .empty events).view.published,
        probeOf staMacAddr published = false := by
  rw [departure_silent tree macAddrList _ sc message written now order departs.sound departs.type]
  apply Runs.run_invariant (Unheard staMacAddr)
  · exact iff_of_true rfl (by simp [System.empty, View.empty])
  · exact next_unheard tree macAddrList staMacAddr listed

end Departures

open StationCoherence (apMac staMac joinReport)

def jobAt (message : Text) (now : Int) : Event := ⟨.job 0 message true, now, .stored⟩

def hello : List Event :=
  [⟨.other .accept, 0, .stored⟩, jobAt ("000110901412".toList ++ apMac) 100,
    jobAt "000211101502080300601001w".toList 200]

def leaveReport : Text := "000510503112".toList ++ staMac ++ "12".toList ++ apMac ++ "01w".toList

def joinedEvents : List Event := hello ++ [jobAt (joinReport apMac) 300]

theorem unprobed_departs :
    (serve .null [ALL] (run (serve .null [ALL]) .empty joinedEvents)
      ⟨.job 0 leaveReport true, 400, .stored⟩).descMap staMac = none := by
  apply (departed_entry_iff .null [ALL] staMac (Or.inr List.mem_cons_self) joinedEvents 0
    leaveReport true 400 .stored
    ?_).mpr
  · decide +kernel
  · exact ⟨by decide +kernel, by decide +kernel, by decide +kernel, by decide +kernel,
      "0005".toList, 38,
      by decide +kernel⟩

def probeReport : Text := "000410703212".toList ++ staMac ++ "03-600301003006010".toList

theorem probed_entry_stays :
    let σ := run (serve .null [ALL]) .empty
      (hello ++ [jobAt probeReport 300, jobAt (joinReport apMac) 400])
    Departs σ.view 0 leaveReport staMac ∧
        (serve .null [ALL] σ (jobAt leaveReport 500)).descMap staMac ≠ none := by
  constructor
  · exact ⟨by decide +kernel, by decide +kernel, by decide +kernel, by decide +kernel,
      "0005".toList, 38,
      by decide +kernel⟩
  · decide +kernel

end LazyAS.DepartedStations

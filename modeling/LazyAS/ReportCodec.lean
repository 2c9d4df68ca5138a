import LazyAS.ApSender
import LazyAS.ViewMoves
import LazyAS.Worker

/-! The reports of the AP read back by the controller: which numbers, names and addresses come
through the fixed fields of `fnii_send_msg_*` and the cursors of `processMsg*`. Every frame
arrives in a read of its own. -/
namespace LazyAS.ReportCodec
open WireText ApReports ApSender ControllerView Master ViewMoves
open ReportDelivery (handle checkLength)
open Worker (readSsids addSsid)

/-! Cursors. -/

def Remains (message : Text) (curPos : Int) (rest : Text) : Prop :=
  ∃ before, message = before ++ rest ∧ curPos = before.length

theorem Remains.skip {message field rest : Text} {curPos : Int}
    (remains : Remains message curPos (field ++ rest)) :
    Remains message (curPos + field.length) rest := by
  obtain ⟨before, whole, here⟩ := remains
  refine ⟨before ++ field, ?_, ?_⟩
  · rw [whole, List.append_assoc]
  · rw [here, List.length_append, Nat.cast_add]

theorem Remains.finished {message : Text} {curPos : Int} (remains : Remains message curPos []) :
    curPos = message.length := by
  obtain ⟨before, whole, here⟩ := remains
  rw [here, whole, List.append_nil]

theorem Remains.inside {message rest : Text} {curPos : Int} (remains : Remains message curPos rest)
    (nonempty : rest ≠ []) : curPos < message.length := by
  obtain ⟨before, whole, here⟩ := remains
  have more := List.length_pos_iff.mpr nonempty
  rw [here, whole, List.length_append]
  omega

theorem Remains.takeText {message field rest : Text} {curPos : Int}
    (remains : Remains message curPos (field ++ rest)) (count : Int) (size : count = field.length) :
    takeText message curPos count = some (field, curPos + count) := by
  obtain ⟨before, whole, here⟩ := remains
  rw [Master.takeText, whole, substring_middle before field rest _ _ here (by rw [here, size])]
  rfl

theorem Remains.takeNumber {message field rest : Text} {curPos count number : Int}
    (remains : Remains message curPos (field ++ rest)) (size : count = field.length)
    (value : parseInt field = some number) :
    takeNumber message curPos count = some (number, curPos + count) := by
  rw [Master.takeNumber, remains.takeText count size]
  simp only [Option.bind_eq_bind, Option.bind_some, value]
  rfl

theorem Remains.takeSized {message digits field rest : Text} {curPos : Int}
    (remains : Remains message curPos (digits ++ (field ++ rest))) (two : digits.length = 2)
    (announced : parseInt digits = some field.length) : ∃ next,
    takeSized message curPos = some (field, next) ∧ Remains message next rest := by
  have behind := remains.skip
  refine ⟨curPos + 2 + field.length, ?_, ?_⟩
  · rw [Master.takeSized, remains.takeNumber (by rw [two]; rfl) announced]
    rw [two] at behind
    exact behind.takeText _ rfl
  · have past := behind.skip
    rw [two] at past
    exact past

theorem Remains.takeSizedNumber {message digits field rest : Text} {curPos number : Int}
    (remains : Remains message curPos (digits ++ (field ++ rest))) (two : digits.length = 2)
    (announced : parseInt digits = some field.length) (value : parseInt field = some number) :
    ∃ next,
    takeSizedNumber message curPos = some (number, next) ∧ Remains message next rest := by
  obtain ⟨next, taken, remaining⟩ := remains.takeSized two announced
  refine ⟨next, ?_, remaining⟩
  rw [Master.takeSizedNumber, taken]
  simp only [Option.bind_eq_bind, Option.bind_some, value]
  rfl

theorem Remains.takeSizedLong {message digits field rest : Text} {curPos number : Int}
    (remains : Remains message curPos (digits ++ (field ++ rest))) (two : digits.length = 2)
    (announced : parseInt digits = some field.length) (value : parseLong field = some number) :
    ∃ next,
    takeSizedLong message curPos = some (Int64.ofInt number, next) ∧ Remains message next rest := by
  obtain ⟨next, taken, remaining⟩ := remains.takeSized two announced
  refine ⟨next, ?_, remaining⟩
  rw [Master.takeSizedLong, taken]
  simp only [Option.bind_eq_bind, Option.bind_some, value]
  rfl

/-! Frames. -/

def received : Encoded → Option Text
  | .bytes bytes => match (handle [] bytes).2 with
    | [message] => if 0 ≤ checkLength message then some message else none
    | _ => none
  | _ => none

/-- The bytes sent hold the message with its `;`, its length field is the length of its body,
and it reaches its handler. -/
structure Arrives (encoded : Encoded) (message : Text) : Prop where
  sent : ∃ pad, encoded = .bytes (message ++ ';' :: List.replicate pad nul)
  measured : (substring message 7 10).bind parseInt = some ((message.length : Int) - 10)
  job : received encoded = some message

theorem buffered_message (count : Nat) (message : Text) (fits : message.length + 1 ≤ count) :
    buffered count (message ++ [';']) = message ++
      ';' :: List.replicate (count - (message.length + 1)) nul := by
  have whole : (message ++ [';']).length = message.length + 1 := by simp
  rw [buffered, List.take_append, List.take_of_length_le (by omega), whole, List.take_replicate,
    Nat.min_eq_left (by omega), List.append_assoc]
  rfl

theorem handle_message (c : Char) (rest : Text) (pad : Nat) (visible : isTrimmed c = false)
    (plain : ∀ d ∈ c :: rest, d ≠ ';') :
    (handle [] ((c :: rest) ++ ';' :: List.replicate pad nul)).2 = [c :: rest] := by
  -- padding is trimmed off, so that one read of a frame is one job
  have trimmed : trim ((c :: rest) ++ ';' :: List.replicate pad nul) = (c :: rest) ++ [';'] := by
    have backwards : ((c :: rest) ++ ';' :: List.replicate pad nul).reverse =
        List.replicate pad nul ++ ';' :: (c :: rest).reverse := by simp
    have front : ((c :: rest) ++ ';' :: List.replicate pad nul).dropWhile isTrimmed =
        (c :: rest) ++ ';' :: List.replicate pad nul := by
      rw [List.cons_append, List.dropWhile_cons_of_neg (by simp [visible])]
    have back : (List.replicate pad nul ++ ';' :: (c :: rest).reverse).dropWhile isTrimmed =
        ';' :: (c :: rest).reverse := by
      rw [List.dropWhile_append_of_pos (by
        intro d member
        rw [List.eq_of_mem_replicate member]
        decide), List.dropWhile_cons_of_neg (by decide)]
    rw [trim, front, backwards, back]
    simp
  have segments : ReportDelivery.split ((c :: rest) ++ [';']) = [c :: rest] := by
    rw [ReportDelivery.split, ReportDelivery.cut_segment (c :: rest) [] plain]
    simp [ReportDelivery.cut]
  have nonempty : ((c :: rest) ++ [';']).length > 0 := by simp
  have last : ((c :: rest) ++ [';']).getLast? = some ';' := List.getLast?_concat
  unfold handle
  simp only [trimmed, List.nil_append, if_pos nonempty, last, ne_eq, not_true_eq_false, if_false,
    segments]

theorem idText_length (sender : Sender) : (idText sender).length = 4 :=
  zeroPad_length 4 _ (by omega) (by decide)

def frameText (sender : Sender) (type body : Text) : Text :=
  idText sender ++ (type ++ (zeroPad 3 (body.length : Nat) ++ body))

theorem frameText_length (sender : Sender) (type body : Text) (typed : type.length = 3)
    (short : body.length < 1000) : (frameText sender type body).length = 10 + body.length := by
  have field := zeroPad_length 3 body.length (by omega) (by decide)
  simp only [frameText, List.length_append, idText_length, typed, field]
  omega

theorem frameText_remains (sender : Sender) (type body : Text) (typed : type.length = 3)
    (short : body.length < 1000) : Remains (frameText sender type body) bodyStart body := by
  have field := zeroPad_length 3 body.length (by omega) (by decide)
  refine ⟨idText sender ++ (type ++ zeroPad 3 (body.length : Nat)), ?_, ?_⟩
  · simp [frameText]
  · simp only [List.length_append, idText_length, typed, field]
    rfl

theorem frameText_id (sender : Sender) (type body : Text) :
    substring (frameText sender type body) 0 4 = some (idText sender) := by
  have shape : frameText sender type body =
      [] ++ (idText sender ++ (type ++ (zeroPad 3 (body.length : Nat) ++ body))) := rfl
  rw [shape]
  exact substring_middle [] (idText sender) _ 0 4 rfl (by rw [idText_length]; rfl)

theorem frame_arrives (sender : Sender) (type body : Text) (pad : Nat) (typed : type.length = 3)
    (typePlain : ∀ c ∈ type, c ≠ ';') (short : body.length < 1000) (plain : ∀ c ∈ body, c ≠ ';') :
    Arrives (.bytes (frameText sender type body ++ ';' :: List.replicate pad nul))
      (frameText sender type body) := by
  have size := frameText_length sender type body typed short
  have field := zeroPad_length 3 body.length (by omega) (by decide)
  have value := parseInt_zeroPad 3 body.length (by omega)
  have printed (width : Nat) (number : Int) : ∀ c ∈ zeroPad width number, c ≠ ';' :=
    fun c member => (zeroPad_plain width number c member).2
  have lengthField : substring (frameText sender type body) 7 10 =
      some (zeroPad 3 (body.length : Nat)) := by
    have shape : frameText sender type body =
        (idText sender ++ type) ++ (zeroPad 3 (body.length : Nat) ++ body) := by simp [frameText]
    rw [shape]
    exact substring_middle _ _ _ _ _ (by simp [idText_length, typed])
      (by simp [idText_length, typed, field])
  have unblanked : trim (zeroPad 3 (body.length : Nat)) = zeroPad 3 (body.length : Nat) := by
    refine trim_none _ fun c member => ?_
    have visible := (zeroPad_plain 3 _ c member).1
    simp only [isTrimmed, decide_eq_false_iff_not]
    omega
  have checked : checkLength (frameText sender type body) = body.length := by
    rw [checkLength, if_neg (by omega), lengthField, Option.bind_some, unblanked, value]
    simp only [size]
    rw [if_neg (by omega)]
  have clean : ∀ c ∈ frameText sender type body, c ≠ ';' := by
    intro c member
    simp only [frameText, List.mem_append] at member
    rcases member with id | type' | length | text
    · exact printed 4 _ c id
    · exact typePlain c type'
    · exact printed 3 _ c length
    · exact plain c text
  constructor
  · exact ⟨pad, rfl⟩
  · rw [lengthField, Option.bind_some, value, size]
    congr 1
    omega
  · obtain ⟨c, rest, spelled⟩ := List.exists_cons_of_ne_nil (show frameText sender type body ≠ [] by
      intro empty
      rw [empty] at size
      simp at size
      omega)
    have visible : isTrimmed c = false := by
      have first : c ∈ idText sender := by
        obtain ⟨d, tail, shape⟩ :=
          List.exists_cons_of_ne_nil (zeroPad_nonempty 4 (sender.msgIdf % 9999))
        have same : frameText sender type body = d ::
            (tail ++ (type ++ (zeroPad 3 (body.length : Nat) ++ body))) := by
          rw [frameText, idText, shape]
          rfl
        rw [spelled] at same
        rw [idText, shape, (List.cons.inj same).1]
        exact List.mem_cons_self
      have plainChar := (zeroPad_plain 4 _ c first).1
      simp only [isTrimmed, decide_eq_false_iff_not]
      omega
    have job := handle_message c rest pad visible (by rw [← spelled]; exact clean)
    rw [← spelled] at job
    simp only [received, job, checked]
    rw [if_pos (by omega)]

/-! Station reports. -/

/-- A name of the ASCII characters a report can carry. -/
def NameText (ssid : Text) : Prop := ∀ c ∈ ssid, 1 ≤ c.toNat ∧ c.toNat ≤ 127 ∧ c ≠ ';'

def stationBody (info : UpdateStation) : Text :=
  "12".toList ++ (macText info.staMac ++ ("12".toList ++ (macText info.apMac ++
    (zeroPad 2 info.ssid.length ++ info.ssid))))

theorem stationBody_length (info : UpdateStation) (short : info.ssid.length ≤ 31) :
    (stationBody info).length = 30 + info.ssid.length := by
  have field := zeroPad_length 2 info.ssid.length (by omega) (by decide)
  simp only [stationBody, List.length_append, macText_length, field, String.length_toList]
  have two : "12".length = 2 := rfl
  omega

theorem stationReport_frame (type : Text) (sender : Sender) (info : UpdateStation)
    (typed : type.length = 3) (short : info.ssid.length ≤ 31) :
    ∃ pad, stationReport type sender info =
      .bytes (frameText sender type (stationBody info) ++ ';' :: List.replicate pad nul) := by
  have size := stationBody_length info short
  have whole := frameText_length sender type (stationBody info) typed (by omega)
  have kept : info.ssid.length % 256 = info.ssid.length := Nat.mod_eq_of_lt (by omega)
  refine ⟨81 - ((frameText sender type (stationBody info)).length + 1), ?_⟩
  rw [← buffered_message 81 (frameText sender type (stationBody info)) (by omega)]
  simp only [stationReport, kept]
  rw [if_neg (by omega), frameText, size]
  simp only [stationBody, List.append_assoc]

theorem stationBody_plain (info : UpdateStation) (named : NameText info.ssid) :
    ∀ c ∈ stationBody info, c ≠ ';' := by
  intro c member
  simp only [stationBody, List.mem_append] at member
  rcases member with twelve | sta | twelve | ap | digits | name
  · exact each_char (P := (· ≠ ';')) (by decide) c twelve
  · exact (macText_plain _ c sta).2
  · exact each_char (P := (· ≠ ';')) (by decide) c twelve
  · exact (macText_plain _ c ap).2
  · exact (zeroPad_plain _ _ c digits).2
  · exact (named c name).2.2

theorem takeStation_frame (type : Text) (sender : Sender) (info : UpdateStation)
    (typed : type.length = 3) (short : info.ssid.length ≤ 31) : ∃ curPos,
      takeStation (frameText sender type (stationBody info)) =
        some (idText sender, macText info.staMac, curPos) ∧
      Remains (frameText sender type (stationBody info)) curPos
        (zeroPad 2 info.ssid.length ++ (info.ssid ++ [])) := by
  have size := stationBody_length info short
  have start := frameText_remains sender type (stationBody info) typed (by omega)
  have twelve (mac : Mac) : parseInt "12".toList = some ((macText mac).length : Int) := by
    rw [macText_length]
    decide
  obtain ⟨atAp, sta, afterSta⟩ := start.takeSized rfl (twelve info.staMac)
  obtain ⟨atSsid, ap, afterAp⟩ := afterSta.takeSized rfl (twelve info.apMac)
  refine ⟨atSsid, ?_, by simpa using afterAp⟩
  rw [takeStation, frameText_id]
  simp only [Option.bind_eq_bind, Option.bind_some, sta, ap]
  rfl

variable (v : View) (order : Order) (sc a : Ref)

theorem processMsgDelStation_report (now : Int) (message : Text) :
    processMsgDelStation v now order sc message =
      match newReport v order sc message with
      | none => v
      | some (a, staMacAddr, ssid) =>
          match v.stationMap.lookup staMacAddr with
          | none => v
          | some s => match stationVap v s a ssid with
            | none => v
            | some c => leaveVap v now s c := by
  unfold processMsgDelStation newReport
  cases v.sc2AgentMap sc with
  | none => rfl
  | some a =>
      cases takeStation message with
      | none => rfl
      | some read =>
          obtain ⟨msgId, staMacAddr, curPos⟩ := read
          simp only [Option.bind_eq_bind, Option.bind_some]
          cases resolveSsid v order a message curPos with
          | none => cases v.stationMap.lookup staMacAddr <;> rfl
          | some ssid =>
              simp only [Option.bind_some, pure]
              cases v.stationMap.lookup staMacAddr <;> rfl

/-- The report of a station gets through to the handlers with its address and its SSID. -/
def Carried (encoded : Encoded) (info : UpdateStation) : Prop :=
  ∃ message, Arrives encoded message ∧
    newReport v order sc message = some (a, macText info.staMac, info.ssid)

theorem carried_iff (type : Text) (tracked : v.sc2AgentMap sc = some a) (sender : Sender)
    (info : UpdateStation) (typed : type.length = 3) (typePlain : ∀ c ∈ type, c ≠ ';')
    (short : info.ssid.length ≤ 31) (named : NameText info.ssid)
    (member : info.ssid ∈ (v.agents a).ssidSet) :
    Carried v order sc a (stationReport type sender info) info ↔
      9 ≤ info.ssid.length ∨ (order.arrange (v.agents a).ssidSet).head? = some info.ssid := by
  -- a message of at most 48 characters is taken for one without an SSID
  have size := stationBody_length info short
  have whole := frameText_length sender type (stationBody info) typed (by omega)
  obtain ⟨pad, built⟩ := stationReport_frame type sender info typed short
  have arrived := frame_arrives sender type (stationBody info) pad typed typePlain (by omega)
    (stationBody_plain info named)
  obtain ⟨curPos, taken, remains⟩ := takeStation_frame type sender info typed short
  obtain ⟨_, name, _⟩ := remains.takeSized (zeroPad_length 2 _ (by omega) (by decide))
    (parseInt_zeroPad 2 info.ssid.length (by omega))
  rw [built]
  have parsed : newReport v order sc (frameText sender type (stationBody info)) =
      (resolveSsid v order a (frameText sender type (stationBody info)) curPos).map
        fun ssid => (a, macText info.staMac, ssid) := by
    unfold newReport
    simp only [tracked, taken, Option.bind_eq_bind, Option.bind_some]
    cases resolveSsid v order a (frameText sender type (stationBody info)) curPos <;> rfl
  have only : Carried v order sc a
      (.bytes (frameText sender type (stationBody info) ++ ';' :: List.replicate pad nul))
      info ↔ newReport v order sc (frameText sender type (stationBody info)) =
        some (a, macText info.staMac, info.ssid) := by
    constructor
    · rintro ⟨message, arrives, read⟩
      have same : frameText sender type (stationBody info) = message :=
        Option.some.inj (arrived.job.symm.trans arrives.job)
      rw [same]
      exact read
    · intro read
      exact ⟨_, arrived, read⟩
  rw [only, parsed]
  by_cases long : 9 ≤ info.ssid.length
  · have resolved : resolveSsid v order a (frameText sender type (stationBody info)) curPos =
        some info.ssid := by
      unfold resolveSsid
      rw [if_neg (by omega), name]
      simp [member]
    simp [resolved, long]
  · have resolved : resolveSsid v order a (frameText sender type (stationBody info)) curPos =
        (order.arrange (v.agents a).ssidSet).head? := by
      unfold resolveSsid
      rw [if_pos (by omega)]
    simp [resolved, long]

/-- A station event carries its SSID exactly when the SSID has nine characters or is the first one
of the agent. -/
theorem station_events_carried_iff (tracked : v.sc2AgentMap sc = some a) (sender : Sender)
    (info : UpdateStation) (member : info.ssid ∈ (v.agents a).ssidSet)
    (sized : 1 ≤ info.ssid.length ∧ info.ssid.length ≤ 31) (named : NameText info.ssid) :
    (Carried v order sc a (fniiSendMsgNewSta sender info) info ↔
      9 ≤ info.ssid.length ∨ (order.arrange (v.agents a).ssidSet).head? = some info.ssid) ∧
    (Carried v order sc a (fniiSendMsgDelSta sender info) info ↔
      9 ≤ info.ssid.length ∨ (order.arrange (v.agents a).ssidSet).head? = some info.ssid) := by
  constructor
  · exact carried_iff v order sc a _ tracked sender info rfl (by simp) sized.2 named member
  · exact carried_iff v order sc a _ tracked sender info rfl (by simp) sized.2 named member

def twoNetworks : View := { View.empty with
  agents := Function.update View.empty.agents 0
    { macAddress := "0a0000000001".toList, sc := some 7, lastHeard := 0,
      ssidSet := ["guest".toList, "office".toList] }
  sc2AgentMap := Function.update View.empty.sc2AgentMap 7 (some 0) }

def join (ssid : Text) : UpdateStation :=
  { apMac := fun _ => 2, staMac := fun _ => 16, ssid := ssid }

theorem first_name_carried : twoNetworks.sc2AgentMap 7 = some 0 ∧
    Carried twoNetworks .stored 7 0 (fniiSendMsgNewSta {} (join "guest".toList))
      (join "guest".toList) :=
  ⟨rfl, (station_events_carried_iff twoNetworks .stored 7 0 rfl {} (join "guest".toList)
    (by decide) (by decide)
    (each_char (by decide))).1.mpr (.inr rfl)⟩

/-- The report of a station at the second, short name is counted for the first one. -/
theorem short_name_lost : "office".toList ∈ (twoNetworks.agents 0).ssidSet ∧
    ¬ Carried twoNetworks .stored 7 0 (fniiSendMsgNewSta {} (join "office".toList))
      (join "office".toList) := by
  refine ⟨by decide, ?_⟩
  rw [fniiSendMsgNewSta, carried_iff twoNetworks .stored 7 0 "104".toList rfl {}
    (join "office".toList) rfl (by simp) (by decide) (each_char (by decide)) (by decide)]
  decide

/-! Traffic and probes. -/

/-- What `processMsgFlowInfo` reads of a message. -/
def takeFlow (message : Text) : Option (Text × Int64 × Int64) := do
  let (staMacAddr, curPos) ← takeSized message bodyStart
  let (upTraffic, curPos) ← takeSizedLong message curPos
  let (downTraffic, _) ← takeSizedLong message curPos
  return (staMacAddr, upTraffic, downTraffic)

theorem flowReport_read {message staMacAddr : Text} {upTraffic downTraffic : Int64}
    (taken : takeFlow message = some (staMacAddr, upTraffic, downTraffic)) :
    flowReport v sc message = (do
      let a ← v.sc2AgentMap sc
      let s ← v.stationMap.lookup staMacAddr
      let w ← (v.stations s).workingVapContainer
      if (v.stations s).status = .onLine ∧
        (v.agents (v.vaps w).agent).macAddress = (v.agents a).macAddress then
        some (s, a, upTraffic, downTraffic)
      else none) := by
  unfold takeFlow at taken
  unfold flowReport
  simp only [Option.bind_eq_bind, Option.bind_eq_some_iff, pure, Option.some.injEq] at taken
  obtain ⟨⟨mac, first⟩, station, ⟨up, second⟩, upRead, ⟨down, third⟩, downRead, same⟩ := taken
  simp only [Prod.mk.injEq] at same
  obtain ⟨rfl, rfl, rfl⟩ := same
  simp only [station, upRead, downRead, Option.bind_eq_bind, Option.bind_some]

def storeCounter (counter : UInt32) : Int32Value :=
  ⟨counter.toBitVec.toInt, BitVec.le_toInt counter.toBitVec, BitVec.toInt_lt⟩

/-- What `fnii_get_flow_info` passes for the counters of a station. -/
def flowOf (stationMac : Mac) (tx rx : UInt32) : StationFlow :=
  { stationMac := stationMac, rxByte := storeCounter rx, txByte := storeCounter tx }

def flowBody (info : StationFlow) : Text :=
  "12".toList ++ (macText info.stationMac ++ ("16".toList ++ (zeroPad 16 info.txByte.val ++
    ("16".toList ++ zeroPad 16 info.rxByte.val))))

def FlowSurvives (encoded : Encoded) (stationMac : Mac) (tx rx : UInt32) : Prop :=
  ∃ message up down, Arrives encoded message ∧
    takeFlow message = some (macText stationMac, up, down) ∧
    up.toInt = tx.toNat ∧ down.toInt = rx.toNat

theorem storeCounter_value (counter : UInt32) : (storeCounter counter).val = counter.toNat ↔
    counter.toNat < 2 ^ 31 := by
  have bound := counter.toNat_lt
  have stored : (storeCounter counter).val = if 2 * counter.toNat < 2 ^ 32 then
      (counter.toNat : Int)
      else (counter.toNat : Int) - (2 ^ 32 : Nat) := BitVec.toInt_eq_toNat_cond counter.toBitVec
  rw [stored]
  split <;> omega

theorem flow_frame (sender : Sender) (info : StationFlow) : ∃ message,
    Arrives (fniiSendMsgFlowInfo sender info) message ∧ takeFlow message =
      some (macText info.stationMac, Int64.ofInt info.txByte.val, Int64.ofInt info.rxByte.val) := by
  have wide (value : Int32Value) : (zeroPad 16 value.val).length = 16 :=
    (zeroPad_length_iff 16 value.val (by decide)).mpr
      ⟨by have := value.2; omega, by have := value.2; omega⟩
  have size : (flowBody info).length = 50 := by
    simp only [flowBody, List.length_append, macText_length, wide]
    rfl
  have whole := frameText_length sender "106".toList (flowBody info) rfl (by omega)
  have plain : ∀ c ∈ flowBody info, c ≠ ';' := by
    intro c member
    simp only [flowBody, List.mem_append] at member
    rcases member with digits | sta | digits | tx | digits | rx
    · exact each_char (P := (· ≠ ';')) (by decide) c digits
    · exact (macText_plain _ c sta).2
    · exact each_char (P := (· ≠ ';')) (by decide) c digits
    · exact (zeroPad_plain _ _ c tx).2
    · exact each_char (P := (· ≠ ';')) (by decide) c digits
    · exact (zeroPad_plain _ _ c rx).2
  have built : fniiSendMsgFlowInfo sender info =
      .bytes (frameText sender "106".toList (flowBody info) ++ ';' :: List.replicate 0 nul) := by
    have printed : "10605012".toList = "106".toList ++
        (zeroPad 3 (50 : Nat) ++ "12".toList) := by decide
    have room := buffered_message 61 (frameText sender "106".toList (flowBody info)) (by omega)
    rw [whole, size] at room
    rw [← room, fniiSendMsgFlowInfo, frameText, size, printed]
    simp only [flowBody, List.append_assoc]
  have start := frameText_remains sender "106".toList (flowBody info) rfl (by omega)
  obtain ⟨atUp, station, afterStation⟩ := start.takeSized rfl
    (show parseInt "12".toList =
      some ((macText info.stationMac).length : Int) by rw [macText_length]; decide)
  have sixteen (value : Int32Value) : parseInt "16".toList =
      some ((zeroPad 16 value.val).length : Int) := by
    rw [wide]
    decide
  have long (value : Int32Value) : parseLong (zeroPad 16 value.val) = some value.val :=
    parseSigned_zeroPad (2 ^ 63) 16 value.val (by have := value.2; omega)
      (by have := value.2; omega)
  obtain ⟨atDown, up, afterUp⟩ :=
    afterStation.takeSizedLong rfl (sixteen info.txByte) (long info.txByte)
  rw [← List.append_nil (zeroPad 16 info.rxByte.val)] at afterUp
  obtain ⟨atEnd, down, -⟩ := afterUp.takeSizedLong rfl (sixteen info.rxByte) (long info.rxByte)
  refine ⟨frameText sender "106".toList (flowBody info), ?_, ?_⟩
  · rw [built]
    exact frame_arrives sender _ _ 0 rfl (by simp) (by omega) plain
  · unfold takeFlow
    simp only [station, up, down, Option.bind_eq_bind, Option.bind_some]
    rfl

theorem flow_survives_iff (sender : Sender) (stationMac : Mac) (tx rx : UInt32) :
    FlowSurvives (fniiSendMsgFlowInfo sender (flowOf stationMac tx rx)) stationMac tx rx ↔
      tx.toNat < 2 ^ 31 ∧ rx.toNat < 2 ^ 31 := by
  obtain ⟨message, arrives, taken⟩ := flow_frame sender (flowOf stationMac tx rx)
  have kept (counter : UInt32) : (Int64.ofInt (storeCounter counter).val).toInt =
      (storeCounter counter).val :=
    Int64.toInt_ofInt_of_le (by have := (storeCounter counter).2; omega)
      (by have := (storeCounter counter).2; omega)
  rw [← storeCounter_value tx, ← storeCounter_value rx]
  constructor
  · rintro ⟨other, up, down, otherArrives, otherTaken, upValue, downValue⟩
    have same : message = other := Option.some.inj (arrives.job.symm.trans otherArrives.job)
    rw [← same, taken] at otherTaken
    obtain ⟨-, rfl, rfl⟩ : macText stationMac = macText stationMac ∧
        Int64.ofInt (storeCounter tx).val = up ∧
        Int64.ofInt (storeCounter rx).val = down := by simpa [flowOf] using otherTaken
    rw [kept] at upValue downValue
    exact ⟨upValue, downValue⟩
  · rintro ⟨upValue, downValue⟩
    exact ⟨message, _, _, arrives, taken, (kept tx).trans upValue, (kept rx).trans downValue⟩

def probeBody (info : ApSender.ProbeInfo) (au : Int) : Text :=
  "12".toList ++ (macText info.stationMac ++ ("03".toList ++ (zeroPad 3 info.rssi ++ ("03".toList ++
    (zeroPad 3 au ++ ("03".toList ++ (zeroPad 3 (probeChannel info.channel) ++ ("01".toList ++
      zeroPad 1 (ApSender.workMode (probeChannel info.channel))))))))))

def modeText (channel : Int) : Text := if 36 ≤ channel then "011".toList else "010".toList

theorem workMode_printed (channel : Int) :
    "01".toList ++ zeroPad 1 (ApSender.workMode channel) = modeText channel := by
  unfold ApSender.workMode modeText
  by_cases wide : 36 ≤ channel
  · rw [if_pos wide, if_pos wide]
    decide
  · rw [if_neg wide, if_neg wide]
    decide

variable (getApAu : Int → Int)

/-- The airtime the sender reads for the band of the probe. -/
def airtime (info : ApSender.ProbeInfo) : Int :=
  getApAu (ApSender.workMode (probeChannel info.channel))

def ProbeSurvives (sender : Sender) (info : ApSender.ProbeInfo) (encoded : Encoded) : Prop :=
  ∃ message, Arrives encoded message ∧ takeProbe message =
    some ⟨idText sender, macText info.stationMac, info.rssi, airtime getApAu info,
      probeChannel info.channel,
      modeText (probeChannel info.channel)⟩

theorem probe_printed (sender : Sender) (info : ApSender.ProbeInfo) (bytes : Text)
    (reported : (fniiSendMsgProbeInfo getApAu sender info).2 = .bytes bytes) :
    bytes = buffered 43 (idText sender ++ ("107".toList ++ (zeroPad 3 (32 : Nat) ++
      probeBody info (airtime getApAu info))) ++ [';']) ∧
    0 ≤ probeChannel info.channel ∧ probeChannel info.channel ≤ 200 := by
  unfold fniiSendMsgProbeInfo at reported
  have printed : "10703212".toList = "107".toList ++
      (zeroPad 3 (32 : Nat) ++ "12".toList) := by decide
  by_cases again : sender.probeMac = info.stationMac ∧ sender.probeCount < 20
  · simp [again] at reported
  · rw [if_neg again] at reported
    by_cases outside : probeChannel info.channel > 200 ∨ probeChannel info.channel < 0
    · simp [outside] at reported
    · simp only [if_neg outside, Encoded.bytes.injEq] at reported
      refine ⟨?_, by omega, by omega⟩
      rw [← reported, printed]
      simp only [idText, probeBody, airtime, List.append_assoc]

theorem probeBody_plain (info : ApSender.ProbeInfo) (au : Int) :
    ∀ c ∈ probeBody info au, c ≠ ';' := by
  intro c member
  simp only [probeBody, List.mem_append] at member
  rcases member with digits | sta | digits | rssi | digits | au | digits | channel | digits | mode
  · exact each_char (P := (· ≠ ';')) (by decide) c digits
  · exact (macText_plain _ c sta).2
  · exact each_char (P := (· ≠ ';')) (by decide) c digits
  · exact (zeroPad_plain _ _ c rssi).2
  · exact each_char (P := (· ≠ ';')) (by decide) c digits
  · exact (zeroPad_plain _ _ c au).2
  · exact each_char (P := (· ≠ ';')) (by decide) c digits
  · exact (zeroPad_plain _ _ c channel).2
  · exact each_char (P := (· ≠ ';')) (by decide) c digits
  · exact (zeroPad_plain _ _ c mode).2

theorem probe_survives (sender : Sender) (info : ApSender.ProbeInfo) (bytes : Text)
    (reported : (fniiSendMsgProbeInfo getApAu sender info).2 = .bytes bytes)
    (signal : -99 ≤ info.rssi ∧ info.rssi ≤ 127)
    (au : 0 ≤ airtime getApAu info ∧ airtime getApAu info ≤ 100) :
    ProbeSurvives getApAu sender info (.bytes bytes) := by
  obtain ⟨printed, low, high⟩ := probe_printed getApAu sender info bytes reported
  have three (number : Int) (fits : -99 ≤ number ∧ number ≤ 999) : (zeroPad 3 number).length = 3 :=
    (zeroPad_length_iff 3 number (by decide)).mpr ⟨by omega, by omega⟩
  have mode : (zeroPad 1 (ApSender.workMode (probeChannel info.channel))).length = 1 := by
    have spelled := congrArg List.length (workMode_printed (probeChannel info.channel))
    have sized : (modeText (probeChannel info.channel)).length = 3 := by
      unfold modeText
      split <;> rfl
    rw [sized, List.length_append] at spelled
    have two : "01".toList.length = 2 := rfl
    omega
  have rssi := three info.rssi (by omega)
  have used := three (airtime getApAu info) (by omega)
  have band := three (probeChannel info.channel) (by omega)
  have size : (probeBody info (airtime getApAu info)).length = 32 := by
    simp only [probeBody, List.length_append, macText_length, rssi, used, band, mode]
    rfl
  have whole := frameText_length sender "107".toList (probeBody info (airtime getApAu info)) rfl
      (by omega)
  have room := buffered_message 43
      (frameText sender "107".toList (probeBody info (airtime getApAu info))) (by omega)
  rw [whole, size] at room
  have start := frameText_remains sender "107".toList (probeBody info (airtime getApAu info)) rfl
      (by omega)
  have sized (number : Int) (length : (zeroPad 3 number).length = 3) :
      parseInt "03".toList = some ((zeroPad 3 number).length : Int) := by
    rw [length]
    decide
  have value (number : Int) (fits : -99 ≤ number ∧ number ≤ 999) : parseInt (zeroPad 3 number) =
      some number :=
    parseSigned_zeroPad (2 ^ 31) 3 number (by omega) (by omega)
  obtain ⟨atRssi, station, afterStation⟩ := start.takeSized rfl
    (show parseInt "12".toList =
      some ((macText info.stationMac).length : Int) by rw [macText_length]; decide)
  obtain ⟨atAu, rssiRead, afterRssi⟩ :=
    afterStation.takeSizedNumber rfl (sized _ rssi) (value _ (by omega))
  obtain ⟨atChannel, auRead, afterAu⟩ :=
    afterRssi.takeSizedNumber rfl (sized _ used) (value _ (by omega))
  obtain ⟨atMode, channelRead, afterChannel⟩ :=
    afterAu.takeSizedNumber rfl (sized _ band) (value _ (by omega))
  rw [workMode_printed, ← List.append_nil (modeText (probeChannel info.channel))] at afterChannel
  have modeRead := afterChannel.takeText 3 (by unfold modeText; split <;> rfl)
  refine ⟨frameText sender "107".toList (probeBody info (airtime getApAu info)), ?_, ?_⟩
  · have built : bytes = frameText sender "107".toList (probeBody info (airtime getApAu info)) ++
        ';' :: List.replicate 0 nul := by
      rw [← room, printed, frameText, size]
    rw [built]
    exact frame_arrives sender _ _ 0 rfl (by simp) (by omega) (probeBody_plain info _)
  · unfold takeProbe
    simp only [frameText_id, station, rssiRead, auRead, channelRead, modeRead, Option.bind_eq_bind,
      Option.bind_some]
    rfl

/-- From -100 dBm down the signal takes a fourth character and pushes the `;` out of the bytes sent.
-/
theorem probe_cut (sender : Sender) (info : ApSender.ProbeInfo) (bytes : Text)
    (reported : (fniiSendMsgProbeInfo getApAu sender info).2 = .bytes bytes)
    (signal : -128 ≤ info.rssi ∧ info.rssi ≤ -100) : ';' ∉ bytes := by
  obtain ⟨printed, low, high⟩ := probe_printed getApAu sender info bytes reported
  have signed : 4 ≤ (zeroPad 3 info.rssi).length := by
    have least := zeroPad_width 3 info.rssi
    have exact' := zeroPad_length_iff 3 info.rssi (by decide)
    omega
  have used := zeroPad_width 3 (airtime getApAu info)
  have band := zeroPad_width 3 (probeChannel info.channel)
  have mode := zeroPad_width 1 (ApSender.workMode (probeChannel info.channel))
  have lengthField : (zeroPad 3 (32 : Nat)).length = 3 := by decide
  have size : 33 ≤ (probeBody info (airtime getApAu info)).length := by
    simp only [probeBody, List.length_append, macText_length]
    have twelve : "12".toList.length = 2 := rfl
    have three : "03".toList.length = 2 := rfl
    have one : "01".toList.length = 2 := rfl
    omega
  generalize text : idText sender ++ ("107".toList ++ (zeroPad 3 (32 : Nat) ++
    probeBody info (airtime getApAu info))) = message at printed
  have full : 43 ≤ message.length := by
    rw [← text]
    simp only [List.length_append, idText_length, lengthField]
    have type : "107".toList.length = 3 := rfl
    omega
  have plain : ∀ c ∈ message, c ≠ ';' := by
    intro c member
    rw [← text] at member
    simp only [List.mem_append] at member
    rcases member with id | type | length | body
    · exact (zeroPad_plain _ _ c id).2
    · exact each_char (P := (· ≠ ';')) (by decide) c type
    · exact (zeroPad_plain _ _ c length).2
    · exact probeBody_plain info _ c body
  intro inside
  rw [printed, buffered, List.append_assoc, List.take_append_of_le_length full] at inside
  exact plain ';' (List.mem_of_mem_take inside) rfl

/-- Counters survive below 2 GiB, signals from -99 dBm up; airtime and channel always do. -/
theorem numeric_reports_iff (sender : Sender) (stationMac : Mac) (tx rx : UInt32)
    (info : ApSender.ProbeInfo) (signal : -128 ≤ info.rssi ∧ info.rssi ≤ 127)
    (au : 0 ≤ airtime getApAu info ∧ airtime getApAu info ≤ 100) :
    (FlowSurvives (fniiSendMsgFlowInfo sender (flowOf stationMac tx rx)) stationMac tx rx ↔
      tx.toNat < 2 ^ 31 ∧ rx.toNat < 2 ^ 31) ∧
    ∀ bytes, (fniiSendMsgProbeInfo getApAu sender info).2 = .bytes bytes →
      (ProbeSurvives getApAu sender info (.bytes bytes) ↔ -99 ≤ info.rssi) := by
  constructor
  · exact flow_survives_iff sender stationMac tx rx
  · intro bytes reported
    constructor
    · rintro ⟨message, arrives, -⟩
      by_contra weak
      obtain ⟨pad, sent⟩ := arrives.sent
      apply probe_cut getApAu sender info bytes reported ⟨signal.1, by omega⟩
      rw [Encoded.bytes.inj sent]
      simp
    · intro strong
      exact probe_survives getApAu sender info bytes reported ⟨strong, signal.2⟩ au

theorem quiet_station_survives : -128 ≤ (-60 : Int) ∧
    FlowSurvives (fniiSendMsgFlowInfo {} (flowOf (fun _ => 16) 1000 2000))
      (fun _ => 16) 1000 2000 :=
  ⟨by decide, (numeric_reports_iff (fun _ => 50) {} (fun _ => 16) 1000 2000 ⟨fun _ => 16, -60, 2412⟩
    (by decide) (by decide)).1.mpr (by decide)⟩

def farProbe : ApSender.ProbeInfo := ⟨fun _ => 16, -100, 2412⟩

/-- Three gigabytes arrive as a negative number, and the probe of a far station without its `;`. -/
theorem large_counter_lost :
    ¬ FlowSurvives (fniiSendMsgFlowInfo {} (flowOf (fun _ => 16) 3000000000 0))
      (fun _ => 16) 3000000000 0 ∧
    ∃ bytes, (fniiSendMsgProbeInfo (fun _ => 50) {} farProbe).2 = .bytes bytes ∧
      ¬ ProbeSurvives (fun _ => 50) {} farProbe (.bytes bytes) := by
  constructor
  · rw [flow_survives_iff]
    decide
  · refine ⟨_, rfl, ?_⟩
    rintro ⟨message, arrives, -⟩
    obtain ⟨pad, sent⟩ := arrives.sent
    apply probe_cut (fun _ => 50) {} farProbe _ rfl (by decide)
    rw [Encoded.bytes.inj sent]
    simp

/-! The interface report. -/

def ssidFields (ssids : List Text) : Text := ssids.flatMap fun ssid => zeroPad 2 ssid.length ++ ssid

def interfaceBody (info : ApSender.InterfaceAll) : Text :=
  "02".toList ++ (zeroPad 2 info.vapNum ++ ("03".toList ++ (zeroPad 3 info.channel ++
    (modeText info.channel ++ ssidFields info.ssids))))

structure Reportable (info : ApSender.InterfaceAll) : Prop where
  capacity : 0 ≤ info.vapNum ∧ info.vapNum ≤ 99
  channel : 0 ≤ info.channel ∧ info.channel ≤ 999
  few : info.ssids.length ≤ 8
  named : ∀ ssid ∈ info.ssids, 1 ≤ ssid.length ∧ ssid.length ≤ 32 ∧ NameText ssid

/-- The SSID loop of `processMsgInterfaceNum`: the names it reads and where its cursor stops. -/
def ssidLoop (message : Text) : Nat → Int → List Text × Int
  | 0, curPos => ([], curPos)
  | fuel + 1, curPos =>
      if curPos < message.length then
        match takeSized message curPos with
        | none => ([], curPos)
        | some (ssid, next) =>
            let rest := ssidLoop message fuel next
            (ssid :: rest.1, rest.2)
      else ([], curPos)

theorem ssidLoop_read (message : Text) (fuel : Nat) (curPos : Int) :
    (ssidLoop message fuel curPos).1 = (readSsids message fuel curPos).1 := by
  induction fuel generalizing curPos with
  | zero => rfl
  | succ fuel ih =>
      simp only [ssidLoop, readSsids]
      by_cases more : curPos < message.length
      · rw [if_pos more, if_pos more]
        cases takeSized message curPos with
        | none => rfl
        | some read => exact congrArg (read.1 :: ·) (ih read.2)
      · rw [if_neg more, if_neg more]

theorem entries_printed (ssids : List Text) (fixed : Text) :
    ssids.foldl (fun text ssid => text ++ (zeroPad 2 ssid.length ++ ssid)) fixed = fixed ++
      ssidFields ssids := by
  induction ssids generalizing fixed with
  | nil => simp [ssidFields]
  | cons ssid ssids ih =>
      rw [List.foldl_cons, ih]
      simp [ssidFields]

theorem ssidFields_length (ssids : List Text) (named : ∀ ssid ∈ ssids, ssid.length ≤ 32) :
    (ssidFields ssids).length ≤ 34 * ssids.length := by
  induction ssids with
  | nil => simp [ssidFields]
  | cons ssid ssids ih =>
      rw [List.forall_mem_cons] at named
      have field := zeroPad_length 2 ssid.length (by omega) (by decide)
      have rest := ih named.2
      simp only [ssidFields, List.flatMap_cons, List.length_append, field, List.length_cons]
        at rest ⊢
      omega

theorem ssidLoop_fields (message : Text) (ssids : List Text) (fuel : Nat) (curPos : Int)
    (named : ∀ ssid ∈ ssids, ssid.length ≤ 32) (enough : ssids.length ≤ fuel)
    (remains : Remains message curPos (ssidFields ssids)) :
    ssidLoop message fuel curPos = (ssids, (message.length : Int)) := by
  -- the decoder takes entry after entry, one iteration each, up to the end of the message
  induction ssids generalizing fuel curPos with
  | nil =>
      have done := remains.finished
      cases fuel with
      | zero => rw [ssidLoop, done]
      | succ fuel => rw [ssidLoop, if_neg (by omega), done]
  | cons ssid ssids ih =>
      rw [List.forall_mem_cons] at named
      obtain ⟨fuel, rfl⟩ : ∃ left, fuel = left + 1 :=
        ⟨fuel - 1, by simp only [List.length_cons] at enough; omega⟩
      have field := zeroPad_length 2 ssid.length (by omega) (by decide)
      have entry : ssidFields (ssid :: ssids) = zeroPad 2 ssid.length ++
          (ssid ++ ssidFields ssids) := by
        simp [ssidFields]
      rw [entry] at remains
      obtain ⟨next, taken, rest⟩ :=
        remains.takeSized field (parseInt_zeroPad 2 ssid.length (by omega))
      have inside := remains.inside (by
        intro empty
        rw [(List.append_eq_nil_iff.mp empty).1] at field
        simp at field)
      rw [ssidLoop, if_pos inside, taken]
      dsimp only
      rw [ih fuel next named.2 (by simpa using enough) rest]

theorem modeText_length (channel : Int) : (modeText channel).length = 3 := by
  unfold modeText
  split <;> rfl

theorem interfaceBody_length (info : ApSender.InterfaceAll) (fits : Reportable info) :
    (interfaceBody info).length = 12 + (ssidFields info.ssids).length ∧
      (ssidFields info.ssids).length ≤ 272 := by
  have room := ssidFields_length info.ssids fun ssid member => (fits.named ssid member).2.1
  have few := fits.few
  have capacity := (zeroPad_length_iff 2 info.vapNum (by decide)).mpr
      ⟨by have := fits.capacity; omega,
    by have := fits.capacity; omega⟩
  have channel := (zeroPad_length_iff 3 info.channel (by decide)).mpr
      ⟨by have := fits.channel; omega,
    by have := fits.channel; omega⟩
  have two : "02".toList.length = 2 := rfl
  have three : "03".toList.length = 2 := rfl
  constructor
  · simp only [interfaceBody, List.length_append, capacity, channel, modeText_length]
    omega
  · omega

theorem interfaceBody_plain (info : ApSender.InterfaceAll) (fits : Reportable info) :
    ∀ c ∈ interfaceBody info, c ≠ ';' := by
  intro c member
  simp only [interfaceBody, List.mem_append] at member
  rcases member with digits | capacity | digits | channel | mode | fields
  · exact each_char (P := (· ≠ ';')) (by decide) c digits
  · exact (zeroPad_plain _ _ c capacity).2
  · exact each_char (P := (· ≠ ';')) (by decide) c digits
  · exact (zeroPad_plain _ _ c channel).2
  · unfold modeText at mode
    split at mode
    · exact each_char (P := (· ≠ ';')) (by decide) c mode
    · exact each_char (P := (· ≠ ';')) (by decide) c mode
  · obtain ⟨ssid, listed, inside⟩ := List.mem_flatMap.mp fields
    rcases List.mem_append.mp inside with digit | name
    · exact (zeroPad_plain _ _ c digit).2
    · exact ((fits.named ssid listed).2.2 c name).2.2

theorem interface_printed (sender : Sender) (info : ApSender.InterfaceAll)
    (fits : Reportable info) :
    fniiSendMsgInerfaceAll sender info =
      .bytes (frameText sender "111".toList (interfaceBody info) ++
        ';' :: List.replicate 0 nul) := by
  -- the length that is patched in afterwards is the length of the body
  have size := interfaceBody_length info fits
  have fixed : idText sender ++ "11100002".toList ++ zeroPad 2 info.vapNum ++ "03".toList ++
      zeroPad 3 info.channel ++ "01".toList ++ zeroPad 1 (ApSender.workMode info.channel) ++
        ssidFields info.ssids =
      (idText sender ++ "111".toList) ++ ("000".toList ++ interfaceBody info) := by
    have printed : "11100002".toList = "111".toList ++ ("000".toList ++ "02".toList) := by decide
    simp only [printed, interfaceBody, ← workMode_printed, List.append_assoc]
  have head : (idText sender ++ "111".toList).length = 7 := by
    rw [List.length_append, idText_length]
    rfl
  have zeros : "000".toList.length = 3 := rfl
  have whole : ((idText sender ++ "111".toList) ++ ("000".toList ++ interfaceBody info)).length =
      10 + (interfaceBody info).length := by
    simp only [List.length_append] at head ⊢
    omega
  have measured : (((10 + (interfaceBody info).length : Nat) : Int) - 10) =
      ((interfaceBody info).length : Int) := by
    omega
  have digits := zeroPad_length 3 (interfaceBody info).length (by omega) (by decide)
  unfold fniiSendMsgInerfaceAll
  simp only [entries_printed, fixed, whole, measured]
  rw [List.take_of_length_le (by omega), patch, digits, List.take_left' head, ← List.drop_drop,
    List.drop_left' head, List.drop_left' zeros]
  simp [frameText]

theorem takeInterface_frame (sender : Sender) (info : ApSender.InterfaceAll)
    (fits : Reportable info) : ∃ curPos,
    takeInterface (frameText sender "111".toList (interfaceBody info)) =
      some (info.vapNum, info.channel, modeText info.channel, curPos) ∧
    Remains (frameText sender "111".toList (interfaceBody info)) curPos
      (ssidFields info.ssids) := by
  have size := interfaceBody_length info fits
  have capacity := fits.capacity
  have band := fits.channel
  have start := frameText_remains sender "111".toList (interfaceBody info) rfl (by omega)
  have two : (zeroPad 2 info.vapNum).length = 2 :=
    (zeroPad_length_iff 2 _ (by decide)).mpr ⟨by omega, by omega⟩
  have three : (zeroPad 3 info.channel).length = 3 :=
    (zeroPad_length_iff 3 _ (by decide)).mpr ⟨by omega, by omega⟩
  obtain ⟨atChannel, sizeRead, afterSize⟩ := start.takeSizedNumber rfl
    (show parseInt "02".toList = some ((zeroPad 2 info.vapNum).length : Int) by rw [two]; decide)
    (parseSigned_zeroPad (2 ^ 31) 2 info.vapNum (by omega) (by omega))
  obtain ⟨atMode, channelRead, afterChannel⟩ := afterSize.takeSizedNumber rfl
    (show parseInt "03".toList = some ((zeroPad 3 info.channel).length : Int) by rw [three]; decide)
    (parseSigned_zeroPad (2 ^ 31) 3 info.channel (by omega) (by omega))
  have modeRead := afterChannel.takeText 3 (by rw [modeText_length]; rfl)
  have afterMode := afterChannel.skip
  rw [modeText_length] at afterMode
  refine ⟨atMode + 3, ?_, afterMode⟩
  unfold takeInterface
  simp only [sizeRead, channelRead, modeRead, Option.bind_eq_bind, Option.bind_some]
  rfl

/-- What the controller holds of an AP after its interface report. -/
structure Informed (agent before : Agent) (info : ApSender.InterfaceAll) : Prop where
  sum : agent.statCountSum = info.vapNum
  idle : agent.staCountIdle = info.vapNum
  channel : agent.channel = info.channel
  mode : agent.mode = some (modeText info.channel)
  ssids : ∀ ssid, ssid ∈ agent.ssidSet ↔ ssid ∈ before.ssidSet ∨ ssid ∈ info.ssids

/-- The interface report fits its buffer and comes through whole; the SSID loop reads its names in
their order and stops at the end of the message. -/
theorem interface_round_trip (tracked : v.sc2AgentMap sc = some a) (sender : Sender)
    (info : ApSender.InterfaceAll) (fits : Reportable info) : ∃ message curPos,
      Arrives (fniiSendMsgInerfaceAll sender info) message ∧ message.length + 2 ≤ 360 ∧
      takeInterface message = some (info.vapNum, info.channel, modeText info.channel, curPos) ∧
      ssidLoop message message.length curPos = (info.ssids, (message.length : Int)) ∧
      Informed ((processMsgInterfaceNum v sc message).agents a) (v.agents a) info := by
  have size := interfaceBody_length info fits
  have whole := frameText_length sender "111".toList (interfaceBody info) rfl (by omega)
  have few := fits.few
  obtain ⟨curPos, taken, remains⟩ := takeInterface_frame sender info fits
  have loop := ssidLoop_fields _ info.ssids
      (frameText sender "111".toList (interfaceBody info)).length curPos
    (fun ssid member => (fits.named ssid member).2.1) (by omega) remains
  have names : takeSsids (frameText sender "111".toList (interfaceBody info))
      (frameText sender "111".toList (interfaceBody info)).length curPos (v.agents a).ssidSet =
      info.ssids.foldl addSsid (v.agents a).ssidSet := by
    rw [Worker.takeSsids_readSsids, ← ssidLoop_read, loop]
  refine ⟨frameText sender "111".toList (interfaceBody info), curPos, ?_, by omega, taken, loop, ?_⟩
  · rw [interface_printed sender info fits]
    exact frame_arrives sender _ _ 0 rfl (by simp) (by omega) (interfaceBody_plain info fits)
  · have agent : (processMsgInterfaceNum v sc
        (frameText sender "111".toList (interfaceBody info))).agents a =
        { v.agents a with
          statCountSum := info.vapNum, staCountIdle := info.vapNum, mode :=
            some (modeText info.channel)
          channel := info.channel, ssidSet := info.ssids.foldl addSsid (v.agents a).ssidSet } := by
      unfold processMsgInterfaceNum
      rw [tracked, taken]
      simp only [informAgent, mirror, updAgent, Function.update_self, names]
    constructor
    · rw [agent]
    · rw [agent]
    · rw [agent]
    · rw [agent]
    · intro ssid
      rw [agent]
      exact Worker.addSsids_mem info.ssids (v.agents a).ssidSet ssid

theorem two_networks_reported : twoNetworks.sc2AgentMap 7 = some 0 ∧ ∃ message,
    Arrives (fniiSendMsgInerfaceAll {} ⟨32, 36, ["guest".toList, "office".toList]⟩) message :=
  ⟨rfl, by
    obtain ⟨message, -, arrives, -⟩ := interface_round_trip twoNetworks 7 0 rfl {}
      ⟨32, 36, ["guest".toList, "office".toList]⟩
      ⟨by decide, by decide, by decide, by
        intro ssid member
        rcases List.mem_pair.mp member with rfl | rfl
        · exact ⟨by decide, by decide, each_char (by decide)⟩
        · exact ⟨by decide, by decide, each_char (by decide)⟩⟩
    exact ⟨message, arrives⟩⟩

end LazyAS.ReportCodec

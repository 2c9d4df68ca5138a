import LazyAS.ApSender
import LazyAS.Runs

/-! The threads around the AP's connection to the controller: `fnii_statistics_flow_thread`, which
makes and introduces each connection and watches its heartbeats, `fnii_receive_msg_thread`, and any
number of callers of `fnii_send_msg`. A step is one access to what the threads share; what a sender
prints is one step with the heartbeat fields it sets. Sockets are numbered as they are made, and how
bytes become frames is not modelled here. -/
namespace LazyAS.UplinkThreads
open WireText Runs ApSender

/-- What has happened so far. `gate` is the socket that was the current one when the sender checked
its status, and `beats` how many heartbeats had been printed when the echo was compared. -/
inductive Happening where
  | opened (socket : Nat)
  | emptied (socket : Nat)
  | unread (socket : Nat)
  | wrote (socket gate : Nat) (message : Message)
  | beat (cseq : Nat)
  | received (frame : Text)
  | accepted (frame : Text) (beats : Nat)
  | dropped

/-! `fnii_send_msg`, as a caller among others. -/

inductive Stage where
  | passed
  | counted
  | sending (text : Text)
  | failed
  | disabled
  deriving DecidableEq

structure Call where
  message : Message
  stage : Stage
  gate : Nat

/-- What the threads share: the globals of the senders, the number of `fnii_master_socket` and
whether it is connected. -/
structure Shared where
  sender : Sender
  socket : Nat
  connected : Bool
  history : List Happening

def Shared.note (shared : Shared) (happening : Happening) : Shared :=
  { shared with history := shared.history ++ [happening] }

def setStatus (shared : Shared) (status : Bool) : Shared :=
  { shared with sender := { shared.sender with enabled := status } }

def hangUp (shared : Shared) : Shared :=
  { shared with
    sender := { shared.sender with shutdowns := shared.sender.shutdowns + 1 }, connected := false }

def enter (shared : Shared) (message : Message) : Option Call :=
  if message.type < 100 ∨ message.type > 118 then none
  else if shared.sender.enabled = false ∧ message.type ≠ 109 ∧ message.type ≠ 108 ∧
    message.type ≠ 111 then none
  else if message.isNull then none
  else some ⟨message, .passed, shared.socket⟩

def noteBeat (shared : Shared) : Message → Shared
  | .heartBeat => shared.note (.beat shared.sender.beatCseq)
  | _ => shared

/-- One step of a call; `written` is whether `send` would get its bytes through. -/
def advance (getApAu : Int → Int) (shared : Shared) (call : Call) (written : Bool) :
    Shared × Option Call :=
  match call.stage with
  | .passed => ({ shared with sender := counted shared.sender },
      some { call with stage := .counted })
  | .counted =>
      let (sender, encoded) := encode getApAu shared.sender call.message
      let printed := noteBeat { shared with sender := sender } call.message
      match encoded with
      | .refused => (printed, some { call with stage := .failed })
      | .silent => (printed, none)
      | .bytes text => (printed, some { call with stage := .sending text })
  | .sending _ =>
      if shared.connected ∧ written then
        (shared.note (.wrote shared.socket call.gate call.message), none)
      else (shared, some { call with stage := .failed })
  | .failed => (setStatus shared false, some { call with stage := .disabled })
  | .disabled => (hangUp shared, none)

/-! `fnii_statistics_flow_thread`. -/

/-- Where the thread goes on when its call is done. `first` is the introduction before the loop. -/
inductive FlowStage where
  | localMac (first : Bool)
  | interfaceNum (first : Bool)
  | enable (first : Bool)
  | check
  | connect
  | connecting
  | unmade
  | unmadeClose
  | reset
  | look
  | report
  | beat
  | giveUp
  | giveUpClose
  deriving DecidableEq

structure Flow where
  stage : FlowStage
  call : Option Call

/-- What the surroundings decide for a step of the thread: the address file, `connect`, the next
station of `fnii_get_flow_info`, `send`. -/
structure FlowInput where
  mac : Option Text
  connects : Bool
  station : Option StationFlow
  written : Bool

def flowStep (getApAu : Int → Int) (interfaces : InterfaceAll) (shared : Shared) (flow : Flow)
    (input : FlowInput) :
    Shared × Flow :=
  match flow.call with
  | some call =>
      let (next, call) := advance getApAu shared call input.written
      (next, { flow with call := call })
  | none =>
      match flow.stage with
      | .localMac first =>
          match input.mac with
          | none => (shared.note (.unread shared.socket), ⟨.interfaceNum first, none⟩)
          | some mac => (shared, ⟨.interfaceNum first, enter shared (.localMac mac)⟩)
      | .interfaceNum first => (shared, ⟨.enable first, enter shared (.interfaceNum interfaces)⟩)
      | .enable first => (setStatus shared true, ⟨if first then .check else .look, none⟩)
      | .check => (shared, ⟨if shared.sender.enabled then .look else .connect, none⟩)
      | .connect => ({ shared with socket := shared.socket + 1, connected := false },
          ⟨.connecting, none⟩)
      | .connecting =>
          if input.connects then
            ({ shared with
              sender := { shared.sender with beatLive := true }, connected := true }.note
              (.opened shared.socket), ⟨.reset, none⟩)
          else (shared, ⟨.unmade, none⟩)
      | .unmade => (setStatus shared false, ⟨.unmadeClose, none⟩)
      | .unmadeClose => ({ shared with connected := false }, ⟨.check, none⟩)
      -- `fnii_reset_dense_station_hash`
      | .reset => (shared.note (.emptied shared.socket), ⟨.localMac false, none⟩)
      | .look =>
          if shared.sender.beatLive then (shared, ⟨.report, none⟩)
            else (shared.note .dropped, ⟨.giveUp, none⟩)
      | .report =>
          match input.station with
          | none => (shared, ⟨.beat, none⟩)
          | some info => (shared, ⟨.report, enter shared (.flowInfo info)⟩)
      | .beat => (shared, ⟨.check, enter shared .heartBeat⟩)
      | .giveUp => (setStatus shared false, ⟨.giveUpClose, none⟩)
      | .giveUpClose => (hangUp shared, ⟨.check, none⟩)

/-! `fnii_receive_msg_thread`. -/

inductive ReceiverStage where
  | check
  | recv
  | parse (frames : List Text)
  | accept (frame : Text) (beats : Nat) (rest : List Text)
  | reply (frame : Text) (ok : Bool) (rest : List Text)
  | recheck
  | giveUp
  | giveUpClose
  deriving DecidableEq

structure Receiver where
  stage : ReceiverStage
  call : Option Call

/-- The frames a `recv` completes, nothing when it fails, and what the handler of a command returns.
-/
structure ReceiverInput where
  frames : Option (List Text)
  result : Bool
  written : Bool

def beatCount (history : List Happening) : Nat :=
  history.countP fun
    | .beat _ => true
    | _ => false

def idf (frame : Text) : Fin 4 → Char := fun place => frame.getD place nul

def receiverStep (getApAu : Int → Int) (shared : Shared) (receiver : Receiver)
    (input : ReceiverInput) :
    Shared × Receiver :=
  match receiver.call with
  | some call =>
      let (next, call) := advance getApAu shared call input.written
      (next, { receiver with call := call })
  | none =>
      match receiver.stage with
      | .check => (shared, ⟨if shared.sender.enabled then .recv else .check, none⟩)
      | .recv =>
          match input.frames with
          | none => (shared, ⟨.recheck, none⟩)
          | some frames => (shared, ⟨.parse frames, none⟩)
      | .parse [] => (shared, ⟨.check, none⟩)
      | .parse (frame :: rest) =>
          let ok := ApLink.fniiParseMsg shared.sender.toAp frame input.result
          -- `fnii_handle_beat` has compared the id and not yet set the status
          if ok ∧ ApLink.frameType frame = 110 then
            (shared.note (.received frame), ⟨.accept frame (beatCount shared.history) rest, none⟩)
          else (shared.note (.received frame), ⟨.reply frame ok rest, none⟩)
      | .accept frame beats rest =>
          ({ shared with sender := { shared.sender with beatLive := true } }.note
            (.accepted frame beats),
            ⟨.reply frame true rest, none⟩)
      | .reply frame ok rest =>
          (shared, ⟨.parse rest, enter shared (if ok then .ok (idf frame) else .err (idf frame))⟩)
      | .recheck => (shared, ⟨if shared.sender.enabled then .giveUp else .check, none⟩)
      | .giveUp => (setStatus shared false, ⟨.giveUpClose, none⟩)
      | .giveUpClose => (hangUp shared, ⟨.check, none⟩)

/-! All threads. -/

/-- What other threads send: no introduction and no heartbeat. -/
abbrev Report := { message : Message // message.type ∉ [(108 : Int), 109, 110, 111] }

structure Uplink where
  shared : Shared
  flow : Flow
  receiver : Receiver
  reporters : Nat → Option Call

inductive Turn where
  | flow (input : FlowInput)
  | receiver (input : ReceiverInput)
  | reporter (n : Nat) (report : Report) (written : Bool)

def step (getApAu : Int → Int) (interfaces : InterfaceAll) (uplink : Uplink) : Turn → Uplink
  | .flow input =>
      let (shared, flow) := flowStep getApAu interfaces uplink.shared uplink.flow input
      { uplink with shared := shared, flow := flow }
  | .receiver input =>
      let (shared, receiver) := receiverStep getApAu uplink.shared uplink.receiver input
      { uplink with shared := shared, receiver := receiver }
  | .reporter n report written =>
      match uplink.reporters n with
      | some call =>
          let (shared, call) := advance getApAu uplink.shared call written
          { uplink with shared := shared, reporters := Function.update uplink.reporters n call }
      | none => { uplink with
          reporters := Function.update uplink.reporters n (enter uplink.shared report.val) }

/-- `fnii_roam_init`, with what its `connect` returns; then the threads start. -/
def fniiRoamInit (connects : Bool) : Uplink where
  shared :=
    { sender := { beatLive := connects }
      socket := 1
      connected := connects
      history := if connects then [.emptied 1, .opened 1] else [.emptied 1] }
  flow := ⟨.localMac true, none⟩
  receiver := ⟨.check, none⟩
  reporters := fun _ => none

/-! What one step of a call does. -/

def Opening (message : Message) : Prop :=
  message.type = 109 ∨ message.type = 108 ∨ message.type = 111

structure Advances (shared : Shared) (call : Call) (next : Shared) (after : Option Call) :
    Prop where
  socket : next.socket = shared.socket
  connected : next.connected = true → shared.connected = true
  enabled : next.sender.enabled = true → shared.sender.enabled = true
  kept : ∀ later, after = some later → later.message = call.message ∧ later.gate = call.gate
  history : next.history = shared.history ∨
    (call.message = .heartBeat ∧ ∃ cseq, next.history = shared.history ++ [.beat cseq]) ∨
    shared.connected = true ∧ after = none ∧
      next.history = shared.history ++ [.wrote shared.socket call.gate call.message]

theorem noteBeat_cases (shared : Shared) (message : Message) : noteBeat shared message = shared ∨
    message = .heartBeat ∧
      noteBeat shared message = shared.note (.beat shared.sender.beatCseq) := by
  cases message with
  | heartBeat => exact .inr ⟨rfl, rfl⟩
  | _ => exact .inl rfl

variable (getApAu : Int → Int)

theorem advance_advances (shared : Shared) (call : Call) (written : Bool) :
    Advances shared call (advance getApAu shared call written).1
      (advance getApAu shared call written).2 := by
  obtain ⟨message, stage, gate⟩ := call
  cases stage with
  | passed =>
      constructor
      case history => exact .inl rfl
      case kept =>
        intro later same
        obtain rfl := Option.some.inj same
        exact ⟨rfl, rfl⟩
      all_goals simp [advance, counted]
  | counted =>
      have link := (encode_link getApAu shared.sender message).1
      have printed := noteBeat_cases { shared with
          sender := (encode getApAu shared.sender message).1 } message
      have shape : (advance getApAu shared ⟨message, .counted, gate⟩ written).1 =
          noteBeat { shared with sender := (encode getApAu shared.sender message).1 } message := by
        simp only [advance]
        cases (encode getApAu shared.sender message).2 <;> rfl
      constructor
      case kept =>
        intro later same
        simp only [advance] at same
        cases encoded : (encode getApAu shared.sender message).2 <;> simp only [encoded] at same
        · obtain rfl := Option.some.inj same
          exact ⟨rfl, rfl⟩
        · exact absurd same (by simp)
        · obtain rfl := Option.some.inj same
          exact ⟨rfl, rfl⟩
      all_goals rw [shape]
      case history =>
        rcases printed with same | ⟨beat, same⟩
        · exact .inl (by rw [same])
        · exact .inr (.inl ⟨beat, _, by rw [same]; rfl⟩)
      all_goals rcases printed with same | ⟨-, same⟩
      all_goals rw [same]
      all_goals simp [Shared.note, link]
  | sending text =>
      simp only [advance]
      split
      · next sent =>
          constructor
          case history => exact .inr (.inr ⟨sent.1, rfl, rfl⟩)
          all_goals simp [Shared.note]
      · constructor
        case history => exact .inl rfl
        case kept =>
          intro later same
          obtain rfl := Option.some.inj same
          exact ⟨rfl, rfl⟩
        all_goals simp
  | failed =>
      constructor
      case history => exact .inl rfl
      case kept =>
        intro later same
        obtain rfl := Option.some.inj same
        exact ⟨rfl, rfl⟩
      all_goals simp [advance, setStatus]
  | disabled =>
      constructor
      case history => exact .inl rfl
      all_goals simp [advance, hangUp]

theorem advance_done (shared : Shared) (call : Call) (written : Bool)
    (speaks : ∀ sender, ∃ text, (encode getApAu sender call.message).2 = .bytes text)
    (done : (advance getApAu shared call written).2 = none)
    (connected : (advance getApAu shared call written).1.connected = true) :
    (advance getApAu shared call written).1.history =
      shared.history ++ [.wrote shared.socket call.gate call.message] := by
  obtain ⟨message, stage, gate⟩ := call
  cases stage with
  | counted =>
      obtain ⟨text, bytes⟩ := speaks shared.sender
      simp only [advance, bytes] at done
      exact absurd done (by simp)
  | sending text =>
      simp only [advance] at done ⊢
      split at done
      · next sent =>
          rw [if_pos sent]
          rfl
      · exact absurd done (by simp)
  | disabled => exact absurd connected (by simp [advance, hangUp])
  | _ => exact absurd done (by simp [advance])

theorem enter_call {shared : Shared} {message : Message} {call : Call}
    (entered : enter shared message = some call) :
    call = ⟨message, .passed, shared.socket⟩ ∧
      (shared.sender.enabled = false → Opening message) := by
  unfold enter at entered
  by_cases legal : message.type < 100 ∨ message.type > 118
  · rw [if_pos legal] at entered
    exact absurd entered (by simp)
  · rw [if_neg legal] at entered
    by_cases closed : shared.sender.enabled = false ∧ message.type ≠ 109 ∧ message.type ≠ 108 ∧
      message.type ≠ 111
    · rw [if_pos closed] at entered
      exact absurd entered (by simp)
    · rw [if_neg closed] at entered
      by_cases null : message.isNull
      · rw [if_pos null] at entered
        exact absurd entered (by simp)
      · rw [if_neg null] at entered
        constructor
        · exact (Option.some.inj entered).symm
        · intro disabled
          unfold Opening
          by_contra report
          simp only [not_or] at report
          exact closed ⟨disabled, report⟩

theorem enter_opening (shared : Shared) (message : Message) (opening : Opening message)
    (payload : message.isNull = false) :
    enter shared message = some ⟨message, .passed, shared.socket⟩ := by
  have legal : ¬ (message.type < 100 ∨ message.type > 118) := by
    rcases opening with type | type | type <;> omega
  have known : ¬ (shared.sender.enabled = false ∧ message.type ≠ 109 ∧ message.type ≠ 108 ∧
      message.type ≠ 111) := by
    rintro ⟨-, first, second, third⟩
    rcases opening with type | type | type
    · exact first type
    · exact second type
    · exact third type
  rw [enter, if_neg legal, if_neg known, if_neg (by simp [payload])]

def alone (written : Bool) : Nat → Shared → Option Call → Shared
  | 0, shared, _ => shared
  | _, shared, none => shared
  | fuel + 1, shared, some call =>
      let (next, after) := advance getApAu shared call written
      alone written fuel next after

theorem alone_none (written : Bool) (fuel : Nat) (shared : Shared) :
    alone getApAu written fuel shared none = shared := by
  cases fuel <;> rfl

theorem alone_sends (shared : Shared) (message : Message) (written : Bool)
    (up : shared.connected = true) :
    (alone getApAu written 5 shared (enter shared message)).sender =
      (fniiSendMsg getApAu shared.sender message written).sender := by
  -- undisturbed, the steps of a call are `fnii_send_msg`
  unfold enter fniiSendMsg
  by_cases legal : message.type < 100 ∨ message.type > 118
  · rw [if_pos legal, if_pos legal, alone_none]
  · rw [if_neg legal, if_neg legal]
    by_cases closed : shared.sender.enabled = false ∧ message.type ≠ 109 ∧ message.type ≠ 108 ∧
      message.type ≠ 111
    · rw [if_pos closed, if_pos closed, alone_none]
    · rw [if_neg closed, if_neg closed]
      by_cases null : message.isNull
      · rw [if_pos null, if_pos null, alone_none]
      · rw [if_neg null, if_neg null]
        have still (shared : Shared) : (noteBeat shared message).sender = shared.sender ∧
            (noteBeat shared message).connected = shared.connected := by
          rcases noteBeat_cases shared message with same | ⟨-, same⟩
          · exact ⟨congrArg Shared.sender same, congrArg Shared.connected same⟩
          · rw [same]
            exact ⟨rfl, rfl⟩
        cases encoded : encode getApAu (counted shared.sender) message with
        | mk sender result =>
            cases result with
            | refused => simp [alone, advance, encoded, finish, closeLink, hangUp, setStatus, still]
            | silent => simp [alone, advance, encoded, finish, still]
            | bytes text =>
                cases written with
                | true => simp [alone, advance, encoded, finish, still, up, Shared.note]
                | false =>
                    simp [alone, advance, encoded, finish, closeLink, hangUp, setStatus, still]

/-! Histories, entry by entry. -/

section Histories
variable {Item : Type} {right : List Item → Item → Prop}

theorem concat_split {items before after : List Item} {last item : Item}
    (same : items ++ [last] = before ++ item :: after) :
    (items = before ∧ last = item ∧ after = []) ∨ ∃ rest, after = rest ++ [last] ∧
      items = before ++ item :: rest := by
  rcases List.eq_nil_or_concat' after with rfl | ⟨rest, final, rfl⟩
  · obtain ⟨front, back⟩ := List.append_inj' same rfl
    exact .inl ⟨front, (List.cons.inj back).1, rfl⟩
  · have shape : items ++ [last] = (before ++ item :: rest) ++ [final] := by
      rw [same, List.append_assoc, List.cons_append]
    obtain ⟨front, back⟩ := List.append_inj' shape rfl
    obtain rfl := (List.cons.inj back).1
    exact .inr ⟨rest, rfl, front⟩

def Each (right : List Item → Item → Prop) (items : List Item) : Prop :=
  ∀ before item after, items = before ++ item :: after → right before item

theorem Each.none : Each right [] := by
  intro before item after same
  exact absurd same.symm (by simp)

theorem Each.concat {items : List Item} (each : Each right items) (latest : Item)
    (fits : right items latest) :
    Each right (items ++ [latest]) := by
  intro before item after same
  rcases concat_split same with ⟨rfl, rfl, -⟩ | ⟨rest, -, earlier⟩
  · exact fits
  · exact each before item rest earlier

end Histories

end LazyAS.UplinkThreads

import LazyAS.SendBuffer
import LazyAS.AddRollback

/-! The life of a command. `AgentStationAddRunnable` and `AgentStationDelRunnable` write a
frame, store the command in the send buffer and schedule its check; the AP's reply and the
check come at any later time. An OK that comes before the command is stored is lost, so an
acknowledged command can still be cancelled. -/
namespace LazyAS.CommandRuns
open WireText ControllerView Master SendBuffer Runs
open StationCoherence (hello probe apMac staMac)
open AddRollback (addCommand)

/-- How far the runnable and the check of a command have come. -/
inductive Phase where
  | written | stored | scheduled | checked
  deriving DecidableEq, Repr

/-- A command whose frame was written, with what happened to it since. -/
structure Command where
  sc : Ref
  msgId : Text
  key : Text
  message : StationCtrlMessage
  phase : Phase := .written
  reply : Option MsgStatus := none
  cancelled : Bool := false
  deriving DecidableEq

/-- The view and the commands written so far. The later phases of a task are kept in its
command and not in the executor's queue. -/
structure Dispatch where
  view : View
  commands : List Command

inductive Event where
  | op (op : Op)
  | write (index : Nat) (written : Bool)
  | put (n : Nat)
  | schedule (n : Nat)
  | reply (n : Nat) (accepted : Bool)
  | check (n : Nat)

structure Call where
  event : Event
  now : Int
  order : Order

def direct : Op → Bool
  | .ok _ _ | .err _ _ | .task _ _ | .check _ => false
  | _ => true

def taskAgent : Task → Option Ref
  | .add a _ _ | .del _ a _ _ => some a
  | _ => none

def started (v : View) (a : Ref) : Task → Option Command
  | .putSendMsg key message => some
      { sc := (v.agents a).sc.getD 0, msgId := zeroPad 4 (nextId (v.agents a)), key := key
        message := message }
  | _ => none

/-- The first phase of a task of the executor; what it submits is the next phase. -/
def write (st : Dispatch) (now : Int) (order : Order) (index : Nat) (written : Bool) : Dispatch :=
  match st.view.tasks[index]? with
  | none => st
  | some task =>
      match taskAgent task with
      | none => st
      | some a =>
          -- what the task submits is kept as the command's next phase, not as a task
          let before := { st.view with tasks := st.view.tasks.eraseIdx index }
          let after := runTask before now order task written
          { view := { after with tasks := before.tasks }
            commands := st.commands ++
              (after.tasks.drop before.tasks.length).filterMap (started st.view a) }

def act (st : Dispatch) (n : Nat) (ready : Command → Bool) (work : Command → View)
    (change : Command → Command) : Dispatch :=
  match st.commands[n]? with
  | none => st
  | some c => if ready c then ⟨work c, st.commands.modify n change⟩ else st

/-- The reply the AP builds from the first four characters of the frame. -/
def replyText (c : Command) (accepted : Bool) : Text :=
  c.msgId.take 4 ++ if accepted then "100002OK".toList else "101003ERR".toList

def deliver (st : Dispatch) (call : Call) : Dispatch :=
  let v := st.view
  match call.event with
  | .op op => if direct op then { st with view := step v call.now call.order op } else st
  | .write index written => write st call.now call.order index written
  | .put n =>
      act st n (fun c => c.phase = .written)
        (fun c => putSendMsg v c.key (some ⟨c.message, .unreply⟩))
        fun c => { c with phase := .stored }
  | .schedule n => act st n (fun c => c.phase = .stored) (fun _ => v) fun c =>
      { c with phase := .scheduled }
  | .reply n accepted =>
      act st n (fun c => c.reply.isNone)
        (fun c =>
          if accepted then processMsgOk v call.now call.order c.sc (replyText c true)
          else processMsgErr v c.sc (replyText c false))
        fun c => { c with reply := some (if accepted then .ok else .err) }
  | .check n =>
      act st n (fun c => c.phase = .scheduled) (fun c => checkSendMsg v call.now call.order c.key)
        fun c => { c with phase := .checked, cancelled := cancels v.sendMsgBuffer c.key }

theorem act_cases (st : Dispatch) (n : Nat) (ready : Command → Bool) (work : Command → View)
    (change : Command → Command) :
    act st n ready work change = st ∨
    ∃ c, st.commands[n]? = some c ∧ ready c = true ∧
      act st n ready work change = ⟨work c, st.commands.modify n change⟩ := by
  unfold act
  split
  · exact .inl rfl
  · rename_i c found
    split
    · rename_i fits
      exact .inr ⟨c, found, fits, rfl⟩
    · exact .inl rfl

theorem modify_cases {commands : List Command} {n m : Nat} {change : Command → Command}
    {d : Command} (found : (commands.modify n change)[m]? = some d) :
    m = n ∧ (∃ c, commands[n]? = some c ∧ d = change c) ∨ m ≠ n ∧ commands[m]? = some d := by
  rw [List.getElem?_modify] at found
  by_cases same : n = m
  · subst same
    cases before : commands[n]? with
    | none => simp [before] at found
    | some c => exact .inl ⟨rfl, c, rfl, by simpa [before] using found.symm⟩
  · exact .inr ⟨fun h => same h.symm, by simpa [same] using found⟩

theorem append_cases {commands new : List Command} {n : Nat} {c : Command}
    (found : (commands ++ new)[n]? = some c) : commands[n]? = some c ∨ c ∈ new := by
  by_cases inside : n < commands.length
  · rw [List.getElem?_append_left inside] at found
    exact .inl found
  · rw [List.getElem?_append_right (Nat.le_of_not_lt inside)] at found
    exact .inr (List.mem_of_getElem? found)

/-! The buffer along a run. -/

theorem excuteAddVap_buffer (v : View) (now : Int) (order : Order) (isRoam : Bool)
    (message : StationCtrlMessage) :
    (excuteAddVap v now order isRoam message).1.sendMsgBuffer = v.sendMsgBuffer := by
  rcases excuteAddVap_outbox v now order isRoam message with same | ⟨s, same⟩
  · exact congrArg Prod.fst same
  · exact congrArg Prod.fst same

theorem direct_buffer (v : View) (now : Int) (order : Order) (op : Op) (free : direct op = true) :
    (step v now order op).sendMsgBuffer = v.sendMsgBuffer := by
  cases quiet : background op with
  | true =>
      obtain ⟨new, same, -⟩ := step_quiet v now order op quiet
      exact congrArg Prod.fst same
  | false =>
      cases op with
      | delVap roamType a s ssid =>
          rcases delVapContainer_outbox v now order roamType a s ssid with same | same
          · exact congrArg Prod.fst same
          · exact congrArg Prod.fst same
      | addVap isRoam message => exact excuteAddVap_buffer v now order isRoam message
      | cmd key =>
          rcases cmdTask_outbox v now order key with same | ⟨appCmd, -, same⟩
          · exact congrArg Prod.fst same
          · exact (congrArg Prod.fst same).trans
              (excuteAddVap_buffer v now order false appCmd.message)
      | _ => simp_all [background, direct]

theorem write_buffer (st : Dispatch) (now : Int) (order : Order) (index : Nat) (written : Bool) :
    (write st now order index written).view.sendMsgBuffer = st.view.sendMsgBuffer := by
  have sent (v : View) (a : Ref) (frame : Text → Text) (message : StationCtrlMessage) :
      (sendCommand v now order a frame message written).sendMsgBuffer = v.sendMsgBuffer := by
    rcases sendCommand_outcome v now order a frame message written with ⟨same, -⟩ |
        ⟨-, -, same | same⟩
    · exact congrArg Prod.fst same
    · exact congrArg Prod.fst same
    · exact congrArg Prod.fst same
  unfold write
  split
  · rfl
  · rename_i task _
    cases task with
    | add a s message =>
        simp only [taskAgent, runTask]
        exact sent _ a _ message
    | del roamType a s ssid =>
        simp only [taskAgent, runTask]
        exact sent _ a _ _
    | putSendMsg sendMsgId message => rfl
    | schedule sendMsgId => rfl

theorem submitted_message (v : View) (now : Int) (order : Order) (a : Ref) (frame : Text → Text)
    (message : StationCtrlMessage) (written : Bool) (task : Task)
    (member : task ∈ (sendCommand v now order a frame message written).tasks.drop v.tasks.length) :
    ∃ key, task = .putSendMsg key message := by
  have unchanged (same : outbox (sendCommand v now order a frame message written) = outbox v) :
      ∃ key, task = .putSendMsg key message := by
    have queue : (sendCommand v now order a frame message written).tasks = v.tasks :=
      congrArg Prod.snd same
    simp [queue] at member
  rcases sendCommand_outcome v now order a frame message written with ⟨same, -⟩ |
      ⟨-, -, same | same⟩
  · exact unchanged same
  · exact unchanged same
  · have queue : (sendCommand v now order a frame message written).tasks = v.tasks ++ _ :=
      congrArg Prod.snd same
    rw [queue, List.drop_left] at member
    exact ⟨_, List.mem_singleton.mp member⟩

def taskMessage (v : View) : Task → Option StationCtrlMessage
  | .add _ _ message => some message
  | .del roamType a s ssid => some
      { msgType := delType roamType, staMacAddr := (v.stations s).macAddress, ssid := ssid,
        mode := none
        agent := a }
  | _ => none

theorem write_commands (st : Dispatch) (now : Int) (order : Order) (index : Nat) (written : Bool) :
    ∃ new, (write st now order index written).commands = st.commands ++ new ∧
      ∀ c ∈ new, c.phase = .written ∧ c.reply = none ∧ c.cancelled = false ∧
        ∃ task ∈ st.view.tasks, taskMessage st.view task = some c.message := by
  -- a write adds at most the command of its task
  unfold write
  split
  · exact ⟨[], by simp, by simp⟩
  · rename_i task taken
    split
    · exact ⟨[], by simp, by simp⟩
    · rename_i a agent
      refine ⟨_, rfl, ?_⟩
      intro c member
      obtain ⟨later, inside, same⟩ := List.mem_filterMap.mp member
      have sends : ∃ key message, later = .putSendMsg key message ∧
          taskMessage st.view task = some message := by
        cases task with
        | add b s message =>
            rw [runTask] at inside
            obtain ⟨key, stores⟩ := submitted_message _ now order _ _ _ written later inside
            exact ⟨key, message, stores, rfl⟩
        | del roamType b s ssid =>
            rw [runTask] at inside
            obtain ⟨key, stores⟩ := submitted_message _ now order _ _ _ written later inside
            exact ⟨key, _, stores, rfl⟩
        | putSendMsg key message => cases agent
        | schedule key => cases agent
      obtain ⟨key, message, rfl, asked⟩ := sends
      cases same
      exact ⟨rfl, rfl, rfl, task, List.mem_of_getElem? taken, asked⟩

theorem answer_ok_cancels (buffer : Text → Option SendMsg) (key : Option Text) (id : Text)
    (fine : cancels buffer id = false ∨ key = some id) :
    cancels (answer buffer key .ok) id = false := by
  cases key with
  | none => simpa [answer] using fine
  | some key =>
      cases stored : buffer key with
      | none =>
          rcases fine with fine | same
          · simpa [answer, stored] using fine
          · cases same
            simp [answer, cancels, stored]
      | some entry =>
          by_cases same : id = key
          · subst same
            simp [answer, cancels, stored]
          · have other : cancels buffer id = false := by
              rcases fine with fine | hit
              · exact fine
              · exact absurd (Option.some.inj hit).symm same
            simpa [answer, stored, cancels, Function.update_of_ne same] using other

theorem update_cancels (buffer : Text → Option SendMsg) (key id : Text) (entry : Option SendMsg)
    (different : id ≠ key) : cancels (Function.update buffer key entry) id = cancels buffer id := by
  simp [cancels, Function.update_of_ne different]

theorem answer_cancels (buffer : Text → Option SendMsg) (key : Option Text) (status : MsgStatus)
    (id : Text) (different : key ≠ some id) :
    cancels (answer buffer key status) id = cancels buffer id := by
  cases key with
  | none => rfl
  | some key =>
      cases stored : buffer key with
      | none => simp [answer, stored]
      | some entry =>
          have other : id ≠ key := fun same => different (congrArg some same.symm)
          simp [answer, stored, update_cancels buffer key id _ other]

theorem check_cancels (v : View) (now : Int) (order : Order) (key id : Text)
    (fine : cancels v.sendMsgBuffer id = false) :
    cancels (checkSendMsg v now order key).sendMsgBuffer id = false := by
  rcases checkSendMsg_outbox v now order key with same | ⟨-, same⟩
  · have buffer : (checkSendMsg v now order key).sendMsgBuffer = v.sendMsgBuffer :=
      congrArg Prod.fst same
    rwa [buffer]
  · have buffer : (checkSendMsg v now order key).sendMsgBuffer =
        Function.update v.sendMsgBuffer key none := congrArg Prod.fst same
    rw [buffer]
    by_cases hit : id = key
    · subst hit
      simp [cancels]
    · rw [update_cancels _ _ _ _ hit, fine]

/-! Acknowledged commands. -/

/-- The OK of the command was delivered and its check is still to come. -/
def Acknowledged (c : Command) : Prop := c.reply = some .ok ∧ c.phase ≠ .checked

/-- An OK comes after its command was stored and finds it under its key, and neither a later
command nor a refusal hits the key of an acknowledged command. -/
def KeepsAcks (st : Dispatch) (call : Call) : Prop :=
  match call.event with
  | .put n =>
      ∀ c (m : Nat) d, st.commands[n]? = some c → st.commands[m]? = some d → m ≠ n →
        Acknowledged d →
        d.key ≠ c.key
  | .reply n true =>
      ∀ c, st.commands[n]? = some c → c.reply = none → c.phase ≠ .checked →
        c.phase ≠ .written ∧ replyKey st.view c.sc (replyText c true) = some c.key
  | .reply n false =>
      ∀ c (m : Nat) d, st.commands[n]? = some c → st.commands[m]? = some d → Acknowledged d →
        replyKey st.view c.sc (replyText c false) ≠ some d.key
  | _ => True

def AcksHold (st : Dispatch) : Prop :=
  ∀ (n : Nat) c, st.commands[n]? = some c → Acknowledged c →
    c.phase ≠ .written ∧ cancels st.view.sendMsgBuffer c.key = false

theorem act_acks (st : Dispatch) (n : Nat) (ready : Command → Bool) (work : Command → View)
    (change : Command → Command) (holds : AcksHold st)
    (own : ∀ c, st.commands[n]? = some c → ready c = true → Acknowledged (change c) →
      (change c).phase ≠ .written ∧ cancels (work c).sendMsgBuffer (change c).key = false)
    (others : ∀ c (m : Nat) d, st.commands[n]? = some c → ready c = true → m ≠ n →
      st.commands[m]? = some d →
      Acknowledged d → cancels st.view.sendMsgBuffer d.key = false →
      cancels (work c).sendMsgBuffer d.key = false) : AcksHold (act st n ready work change) := by
  rcases act_cases st n ready work change with same | ⟨c, found, fits, result⟩
  · rw [same]
    exact holds
  · rw [result]
    intro m d listed acked
    rcases modify_cases listed with ⟨rfl, e, before, rfl⟩ | ⟨other, before⟩
    · cases found.symm.trans before
      exact own c found fits acked
    · obtain ⟨stored, fine⟩ := holds m d before acked
      exact ⟨stored, others c m d found fits other before acked fine⟩

theorem put_acks (st : Dispatch) (n : Nat) (holds : AcksHold st)
    (fits : ∀ c (m : Nat) d, st.commands[n]? = some c → st.commands[m]? = some d → m ≠ n →
      Acknowledged d →
      d.key ≠ c.key) :
    AcksHold (act st n (fun c => c.phase = .written)
      (fun c => putSendMsg st.view c.key (some ⟨c.message, .unreply⟩))
      fun c => { c with phase := .stored }) := by
  apply act_acks st n _ _ _ holds
  · intro c found ready acked
    -- the command itself was acknowledged while it was only written
    have early := (holds n c found ⟨acked.1, by simp_all⟩).1
    exact absurd (by simpa using ready) early
  · intro c m d found _ other before acked fine
    -- another command's entry is untouched, since the keys differ
    change cancels (Function.update _ _ _) _ = false
    rw [update_cancels _ _ _ _ (fits c m d found before other acked), fine]

theorem reply_acks (st : Dispatch) (now : Int) (order : Order) (n : Nat) (accepted : Bool)
    (holds : AcksHold st)
    (fits : KeepsAcks st ⟨.reply n accepted, now, order⟩) :
    AcksHold (deliver st ⟨.reply n accepted, now, order⟩) := by
  cases accepted with
  | true =>
      have buffer (c : Command) :
          (processMsgOk st.view now order c.sc (replyText c true)).sendMsgBuffer =
          answer st.view.sendMsgBuffer (replyKey st.view c.sc (replyText c true)) .ok := by
        obtain ⟨new, same, -⟩ := processMsgOk_outbox st.view now order c.sc (replyText c true)
        exact congrArg Prod.fst same
      apply act_acks st n _ _ _ holds
      · intro c found ready acked
        have fresh : c.reply = none := by simpa using ready
        -- the OK confirms the entry of its own command
        obtain ⟨stored, key⟩ := fits c found fresh acked.2
        simp only [if_true, buffer]
        exact ⟨stored, answer_ok_cancels _ _ _ (.inr key)⟩
      · intro c m d _ _ _ _ _ fine
        simp only [if_true, buffer]
        exact answer_ok_cancels _ _ _ (.inl fine)
  | false =>
      have buffer (c : Command) : (processMsgErr st.view c.sc (replyText c false)).sendMsgBuffer =
          answer st.view.sendMsgBuffer (replyKey st.view c.sc (replyText c false)) .err :=
        congrArg Prod.fst (processMsgErr_outbox st.view c.sc (replyText c false))
      apply act_acks st n _ _ _ holds
      · intro c _ _ acked
        exact absurd acked.1 (by simp)
      · intro c m d found _ _ before acked fine
        simp only [Bool.false_eq_true, if_false, buffer]
        rw [answer_cancels _ _ _ _ (fits c m d found before acked), fine]

theorem deliver_acks (st : Dispatch) (call : Call) (fits : KeepsAcks st call)
    (holds : AcksHold st) :
    AcksHold (deliver st call) := by
  obtain ⟨event, now, order⟩ := call
  cases event with
  | op op =>
      simp only [deliver]
      split
      · rename_i free
        intro n c found acked
        have fine := holds n c found acked
        rwa [← direct_buffer st.view now order op free] at fine
      · exact holds
  | write index written =>
      obtain ⟨new, commands, fresh⟩ := write_commands st now order index written
      intro n c found acked
      simp only [deliver, commands, write_buffer] at found ⊢
      rcases append_cases found with old | late
      · exact holds n c old acked
      · exact absurd acked.1 (by simp [(fresh c late).2.1])
  | put n => exact put_acks st n holds fits
  | schedule n =>
      apply act_acks st n _ _ _ holds
      · intro c found ready acked
        have fine := holds n c found ⟨acked.1, by simp_all⟩
        exact ⟨by simp, fine.2⟩
      · intro _ _ _ _ _ _ _ _ fine
        exact fine
  | reply n accepted => exact reply_acks st now order n accepted holds fits
  | check n =>
      apply act_acks st n _ _ _ holds
      · intro c _ _ acked
        exact absurd rfl acked.2
      · intro c m d _ _ _ _ _ fine
        exact check_cancels st.view now order c.key d.key fine

/-- In every run whose steps meet the condition, the check of a command whose OK was
delivered before does not cancel it. -/
theorem acknowledged_never_cancelled (v : View) (st : Dispatch)
    (reached : Reaches deliver KeepsAcks ⟨v, []⟩ st) (n : Nat) (c : Command)
    (written : st.commands[n]? = some c) (acked : c.reply = some .ok) (due : c.phase = .scheduled) :
    cancels st.view.sendMsgBuffer c.key = false := by
  have holds : AcksHold st := by
    refine reached.invariant AcksHold ?_ (fun st call fits holds => deliver_acks st call fits holds)
    intro n c found
    simp at found
  exact (holds n c written ⟨acked, by simp [due]⟩).2

def commanded : List Call :=
  (hello 0 apMac ++ [probe 0]).map (fun event => ⟨.op event.op, event.now, event.order⟩) ++
    [⟨.op (.addVap false addCommand), 400, .stored⟩, ⟨.write 0 true, 450, .stored⟩]

def calls (events : List Event) : List Call := events.map fun event => ⟨event, 500, .stored⟩

def firstCommand : Command :=
  { sc := 0, msgId := "0001".toList, key := apMac ++ "0001".toList, message := addCommand }

/-- A run that meets the condition: the OK comes when the check is scheduled. -/
theorem stored_command_confirmed :
    let st := run deliver ⟨View.empty, []⟩ (commanded ++ calls [.put 0, .schedule 0, .reply 0 true])
    st.commands[0]? = some { firstCommand with phase := .scheduled, reply := some .ok } ∧
      cancels st.view.sendMsgBuffer firstCommand.key = false := by
  have fits : Allowed deliver KeepsAcks ⟨View.empty, []⟩
      (commanded ++ calls [.put 0, .schedule 0, .reply 0 true]) := by
    have one : (run deliver ⟨View.empty, []⟩ commanded).commands.length = 1 := by decide +kernel
    have due : (run deliver ⟨View.empty, []⟩
        (commanded ++ calls [.put 0, .schedule 0])).commands[0]? =
        some { firstCommand with phase := .scheduled } := by decide +kernel
    have key : replyKey (run deliver ⟨View.empty, []⟩
        (commanded ++ calls [.put 0, .schedule 0])).view
        firstCommand.sc (replyText firstCommand true) = some firstCommand.key := by decide +kernel
    refine ⟨trivial, trivial, trivial, trivial, trivial, trivial, ?_, trivial, ?_, trivial⟩
    · intro c m d _ listed other _
      have bound : m < 1 := by
        rw [← one]
        exact (List.getElem?_eq_some_iff.mp listed).1
      exact absurd (Nat.lt_one_iff.mp bound) other
    · intro c listed _ _
      cases due.symm.trans listed
      exact ⟨by decide, key⟩
  have written : (run deliver ⟨View.empty, []⟩
      (commanded ++ calls [.put 0, .schedule 0, .reply 0 true])).commands[0]? =
      some { firstCommand with phase := .scheduled, reply := some .ok } := by decide +kernel
  exact ⟨written, acknowledged_never_cancelled View.empty _ (Reaches.append _ .start fits) 0
    { firstCommand with phase := .scheduled, reply := some .ok } written rfl rfl⟩

/-- An OK that comes between writing the frame and storing the command is lost, and the
check cancels the command. -/
theorem early_ok_lost :
    ¬ ∀ (v : View) (events : List Call) (n : Nat) (c : Command),
      (run deliver ⟨v, []⟩ events).commands[n]? = some c → c.reply = some .ok →
        c.phase = .scheduled →
      cancels (run deliver ⟨v, []⟩ events).view.sendMsgBuffer c.key = false := by
  intro all
  have fine := all View.empty (commanded ++ calls [.reply 0 true, .put 0, .schedule 0]) 0
    { firstCommand with phase := .scheduled, reply := some .ok } (by decide +kernel) rfl rfl
  exact absurd fine (by decide +kernel)

end LazyAS.CommandRuns

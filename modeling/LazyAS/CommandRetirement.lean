import LazyAS.CommandRuns

/-! What is left of a command after its check. `CheckSendMsgTask` removes the entry of a
confirmed command and leaves the entry of a refused or unanswered one in the send buffer,
where a later reply with the same id still finds it. -/
namespace LazyAS.CommandRetirement
open WireText ControllerView Master SendBuffer CommandRuns Runs
open AddRollback (addCommand)

/-- The commands with the one that stored the entry of each key last. -/
structure Ledger where
  dispatch : Dispatch
  owner : Text → Option Nat

def stores (st : Dispatch) : Event → Option (Nat × Text)
  | .put n =>
      match st.commands[n]? with
      | none => none
      | some c => if c.phase = .written then some (n, c.key) else none
  | _ => none

def record (st : Ledger) (call : Call) : Ledger where
  dispatch := deliver st.dispatch call
  owner := match stores st.dispatch call.event with
    | none => st.owner
    | some (n, key) => Function.update st.owner key (some n)

/-- The check of a command that still has its own entry finds it confirmed. -/
def ChecksConfirmed (st : Ledger) (call : Call) : Prop :=
  match call.event with
  | .check n =>
      ∀ c, st.dispatch.commands[n]? = some c → c.phase = .scheduled → st.owner c.key = some n →
        cancels st.dispatch.view.sendMsgBuffer c.key = false
  | _ => True

def Retired (st : Ledger) : Prop :=
  ∀ (n : Nat) c, st.dispatch.commands[n]? = some c → c.phase = .checked → st.owner c.key = some n →
    st.dispatch.view.sendMsgBuffer c.key = none

theorem answer_none (buffer : Text → Option SendMsg) (key : Option Text) (status : MsgStatus)
    (id : Text) (missing : buffer id = none) : answer buffer key status id = none := by
  cases key with
  | none => exact missing
  | some key =>
      cases stored : buffer key with
      | none => simpa [answer, stored] using missing
      | some entry =>
          have other : id ≠ key := by
            rintro rfl
            rw [stored] at missing
            cases missing
          simpa [answer, stored, Function.update_of_ne other] using missing

theorem reply_none (v : View) (now : Int) (order : Order) (c : Command) (accepted : Bool)
    (id : Text) (missing : v.sendMsgBuffer id = none) :
    (if accepted then processMsgOk v now order c.sc (replyText c true)
      else processMsgErr v c.sc (replyText c false)).sendMsgBuffer id = none := by
  cases accepted with
  | true =>
      obtain ⟨new, same, -⟩ := processMsgOk_outbox v now order c.sc (replyText c true)
      have buffer : (processMsgOk v now order c.sc (replyText c true)).sendMsgBuffer =
          answer v.sendMsgBuffer (replyKey v c.sc (replyText c true)) .ok := congrArg Prod.fst same
      rw [if_pos rfl, buffer]
      exact answer_none _ _ _ id missing
  | false =>
      have buffer : (processMsgErr v c.sc (replyText c false)).sendMsgBuffer =
          answer v.sendMsgBuffer (replyKey v c.sc (replyText c false)) .err :=
        congrArg Prod.fst (processMsgErr_outbox v c.sc (replyText c false))
      rw [if_neg Bool.false_ne_true, buffer]
      exact answer_none _ _ _ id missing

theorem check_removes (v : View) (now : Int) (order : Order) (key : Text)
    (fine : cancels v.sendMsgBuffer key = false) :
    (checkSendMsg v now order key).sendMsgBuffer key = none := by
  rw [checkSendMsg_eq]
  cases stored : v.sendMsgBuffer key with
  | none => exact stored
  | some entry => simp [fine, putSendMsg]

theorem check_none (v : View) (now : Int) (order : Order) (key id : Text)
    (missing : v.sendMsgBuffer id = none) :
    (checkSendMsg v now order key).sendMsgBuffer id = none := by
  rcases checkSendMsg_outbox v now order key with same | ⟨-, same⟩
  · have buffer : (checkSendMsg v now order key).sendMsgBuffer = v.sendMsgBuffer :=
      congrArg Prod.fst same
    rw [buffer, missing]
  · have buffer : (checkSendMsg v now order key).sendMsgBuffer =
        Function.update v.sendMsgBuffer key none := congrArg Prod.fst same
    rw [buffer]
    by_cases hit : id = key
    · simp [hit]
    · rw [Function.update_of_ne hit, missing]

theorem put_retired (st : Ledger) (now : Int) (order : Order) (n : Nat) (retired : Retired st) :
    Retired (record st ⟨.put n, now, order⟩) := by
  cases found : st.dispatch.commands[n]? with
  | none =>
      have same : record st ⟨.put n, now, order⟩ =
          st := by simp [record, deliver, act, stores, found]
      rwa [same]
  | some c =>
      by_cases written : c.phase = .written
      · have result : record st ⟨.put n, now, order⟩ =
            ⟨⟨putSendMsg st.dispatch.view c.key (some ⟨c.message, .unreply⟩),
              st.dispatch.commands.modify n fun c => { c with phase := .stored }⟩,
              Function.update st.owner c.key (some n)⟩ := by
          simp [record, deliver, act, stores, found, written]
        rw [result]
        intro m d listed fired own
        rcases modify_cases listed with ⟨rfl, e, before, rfl⟩ | ⟨other, before⟩
        · cases fired
        · -- another command with this key is no longer the owner of the entry
          have away : d.key ≠ c.key := by
            intro hit
            dsimp only at own
            rw [hit, Function.update_self] at own
            exact other (Option.some.inj own).symm
          dsimp only [putSendMsg] at own ⊢
          rw [Function.update_of_ne away] at own ⊢
          exact retired m d before fired own
      · have same : record st ⟨.put n, now, order⟩ = st := by
          simp [record, deliver, act, stores, found, written]
        rwa [same]

/-- A step of command `n` that stores nothing: what has to hold for it and for the others. -/
theorem act_retired (st : Ledger) (n : Nat) (ready : Command → Bool) (work : Command → View)
    (change : Command → Command) (retired : Retired st)
    (itself : ∀ c, st.dispatch.commands[n]? = some c → ready c = true →
      (change c).phase = .checked →
      st.owner (change c).key = some n → (work c).sendMsgBuffer (change c).key = none)
    (missing : ∀ c id, st.dispatch.view.sendMsgBuffer id = none →
      (work c).sendMsgBuffer id = none) :
    Retired ⟨act st.dispatch n ready work change, st.owner⟩ := by
  rcases act_cases st.dispatch n ready work change with same | ⟨c, found, fits, result⟩
  · rw [same]
    exact retired
  · rw [result]
    intro m d listed fired own
    rcases modify_cases listed with ⟨rfl, e, before, rfl⟩ | ⟨other, before⟩
    · cases found.symm.trans before
      exact itself c found fits fired own
    · exact missing c _ (retired m d before fired own)

theorem record_retired (st : Ledger) (call : Call) (fits : ChecksConfirmed st call)
    (retired : Retired st) :
    Retired (record st call) := by
  obtain ⟨event, now, order⟩ := call
  cases event with
  | op op =>
      simp only [record, deliver, stores]
      split
      · rename_i free
        intro n c found fired own
        have missing := retired n c found fired own
        rwa [← direct_buffer st.dispatch.view now order op free] at missing
      · exact retired
  | write index written =>
      obtain ⟨new, commands, fresh⟩ := write_commands st.dispatch now order index written
      intro n c found fired own
      simp only [record, deliver, stores, commands, write_buffer] at found own ⊢
      rcases append_cases found with old | late
      · exact retired n c old fired own
      · exact absurd fired (by simp [(fresh c late).1])
  | put n => exact put_retired st now order n retired
  | schedule n =>
      apply act_retired st n _ _ _ retired
      · intro c _ _ fired
        cases fired
      · intro _ _ missing
        exact missing
  | reply n accepted =>
      apply act_retired st n _ _ _ retired
      · intro c found _ fired own
        exact reply_none st.dispatch.view now order c accepted _ (retired n c found fired own)
      · intro c id missing
        exact reply_none st.dispatch.view now order c accepted id missing
  | check n =>
      apply act_retired st n _ _ _ retired
      · -- the check that fires now removes the entry it finds confirmed
        intro c found ready _ own
        exact check_removes st.dispatch.view now order c.key
          (fits c found (by simpa using ready) own)
      · intro c id missing
        exact check_none st.dispatch.view now order c.key id missing

theorem reply_without_entry (v : View) (now : Int) (order : Order) (sc : Ref) (message key : Text)
    (looked : replyKey v sc message = some key) (missing : v.sendMsgBuffer key = none) :
    processMsgOk v now order sc message = v ∧ processMsgErr v sc message = v := by
  cases registered : v.sc2AgentMap sc with
  | none => simp [replyKey, registered] at looked
  | some a =>
      cases taken : substring message 0 4 with
      | none => simp [replyKey, registered, taken] at looked
      | some msgId =>
          have same : (v.agents a).macAddress ++ msgId = key := by
            simpa [replyKey, registered, taken] using looked
          constructor
          · simp [processMsgOk, registered, taken, same, missing]
          · simp [processMsgErr, registered, taken, same, missing]

/-- In every run in which each check of a command's own entry finds it confirmed, a checked
command has no entry, and no reply that is looked up under its key changes anything. -/
theorem checked_commands_retired (v : View) (owner : Text → Option Nat) (st : Ledger)
    (reached : Reaches record ChecksConfirmed ⟨⟨v, []⟩, owner⟩ st) (n : Nat) (c : Command)
    (written : st.dispatch.commands[n]? = some c) (fired : c.phase = .checked)
    (own : st.owner c.key = some n) :
    st.dispatch.view.sendMsgBuffer c.key = none ∧
      ∀ now order sc message, replyKey st.dispatch.view sc message = some c.key →
        processMsgOk st.dispatch.view now order sc message = st.dispatch.view ∧
          processMsgErr st.dispatch.view sc message = st.dispatch.view := by
  have retired : Retired st := by
    refine reached.invariant Retired ?_
      (fun st call fits retired => record_retired st call fits retired)
    intro n c found
    simp at found
  have missing := retired n c written fired own
  exact ⟨missing, fun now order sc message looked =>
    reply_without_entry st.dispatch.view now order sc message c.key looked missing⟩

/-- A run that meets the condition: the command is confirmed and then checked. -/
theorem confirmed_command_retired :
    let st := run record ⟨⟨View.empty, []⟩, fun _ => none⟩
      (commanded ++ calls [.put 0, .schedule 0, .reply 0 true, .check 0])
    st.owner firstCommand.key = some 0 ∧ st.dispatch.view.sendMsgBuffer firstCommand.key =
        none := by
  have fits : Allowed record ChecksConfirmed ⟨⟨View.empty, []⟩, fun _ => none⟩
      (commanded ++ calls [.put 0, .schedule 0, .reply 0 true, .check 0]) := by
    have due : (run record ⟨⟨View.empty, []⟩, fun _ => none⟩
        (commanded ++ calls [.put 0, .schedule 0, .reply 0 true])).dispatch.commands[0]? =
        some { firstCommand with phase := .scheduled, reply := some .ok } := by decide +kernel
    have fine : cancels (run record ⟨⟨View.empty, []⟩, fun _ => none⟩
        (commanded ++ calls [.put 0, .schedule 0, .reply 0 true])).dispatch.view.sendMsgBuffer
        firstCommand.key = false := by decide +kernel
    refine ⟨trivial, trivial, trivial, trivial, trivial, trivial, trivial, trivial, trivial, ?_,
      trivial⟩
    intro c listed _ _
    cases due.symm.trans listed
    exact fine
  have own : (run record ⟨⟨View.empty, []⟩, fun _ => none⟩
      (commanded ++ calls [.put 0, .schedule 0, .reply 0 true, .check 0])).owner firstCommand.key =
      some 0 := by decide +kernel
  have written : (run record ⟨⟨View.empty, []⟩, fun _ => none⟩
      (commanded ++ calls [.put 0, .schedule 0, .reply 0 true, .check 0])).dispatch.commands[0]? =
      some { firstCommand with phase := .checked, reply := some .ok } := by decide +kernel
  exact ⟨own, (checked_commands_retired View.empty _ _ (Reaches.append _ .start fits) 0 _ written
    rfl own).1⟩

/-- The check of an unanswered command leaves its entry in the buffer. -/
theorem unanswered_command_stays :
    ¬ ∀ (v : View) (events : List Call) (n : Nat) (c : Command),
      (run record ⟨⟨v, []⟩, fun _ => none⟩ events).dispatch.commands[n]? = some c →
        c.phase = .checked →
      (run record ⟨⟨v, []⟩, fun _ => none⟩ events).owner c.key = some n →
      (run record ⟨⟨v, []⟩, fun _ => none⟩ events).dispatch.view.sendMsgBuffer c.key = none := by
  intro all
  have missing := all View.empty (commanded ++ calls [.put 0, .schedule 0, .check 0]) 0
    { firstCommand with phase := .checked, cancelled := true } (by decide +kernel) rfl
      (by decide +kernel)
  exact absurd missing (by decide +kernel)

end LazyAS.CommandRetirement

import LazyAS.ApLink

/-! Which commands an OK can confirm. Commands and heartbeats are numbered by two counters
that share one space of four-digit ids, and the reply to an echoed heartbeat is looked up like
the reply to a command. As long as no id is used twice at a time, `processMsgOk` confirms only
commands whose handler at the AP has returned `FNII_RET_OK`. -/
namespace LazyAS.CommandConfirmation
open WireText ControllerView Master SendBuffer CommandRuns ApLink Runs
open StationCoherence (hello probe apMac staMac)
open AddRollback (addCommand)

/-! The frame of a command. -/

def CommandText (id frame : Text) : Prop := ∃ type rest, frame = id ++ (commandCode type ++ rest)

theorem commandFrame_text (msgId : Text) (type : CommandType) (staMacAddr mode ssid : Text) :
    CommandText msgId (commandFrame msgId type staMacAddr mode ssid) := by
  refine ⟨type, ?_, ?_⟩
  rotate_left
  · simp only [commandFrame, List.append_assoc]
    rfl

theorem CommandText.take {id frame : Text} (text : CommandText id frame) (four : id.length = 4) :
    frame.take 4 = id := by
  obtain ⟨type, rest, rfl⟩ := text
  rw [← four]
  exact List.take_left

theorem CommandText.isCommand {id frame : Text} (text : CommandText id frame)
    (four : id.length = 4) :
    isCommand frame = true := by
  obtain ⟨type, rest, rfl⟩ := text
  have body : (id ++ (commandCode type ++ rest)).drop 4 = commandCode type ++ rest := by
    rw [← four]
    exact List.drop_left
  have code : (commandCode type ++ rest).take 3 = commandCode type := by
    have three : (commandCode type).length = 3 := by cases type <;> rfl
    rw [← three]
    exact List.take_left
  rw [ApLink.isCommand, frameType, body, code]
  cases type <;> decide

theorem CommandText.length {id frame : Text} (text : CommandText id frame) (four : id.length = 4) :
    4 ≤ frame.length := by
  obtain ⟨type, rest, rfl⟩ := text
  simp only [List.length_append, four]
  omega

def commandId (v : View) (a : Ref) : Text := zeroPad 4 (nextId (v.agents a))

theorem write_outcome (st : Dispatch) (now : Int) (order : Order) (index : Nat) (written : Bool)
    (task : Task) (a : Ref) (taken : st.view.tasks[index]? = some task)
    (agent : taskAgent task = some a) :
    (write st now order index written).commands = st.commands ∧
      (write st now order index written).view.sent = st.view.sent ∨
    written = true ∧ ∃ sc frame,
      (write st now order index written).view.sent = st.view.sent ++ [(sc, frame)] ∧
      CommandText (commandId st.view a) frame ∧
      ((write st now order index written).commands = st.commands ∨
        ∃ c, (write st now order index written).commands = st.commands ++ [c] ∧
          c.msgId = commandId st.view a ∧ c.key = (st.view.agents a).macAddress ++ c.msgId ∧
          c.phase = .written) := by
  -- a write adds nothing, or one frame with the next id and at most its command
  obtain ⟨frame, message, text, sends⟩ : ∃ frame message, (∀ id, CommandText id (frame id)) ∧
      runTask { st.view with tasks := st.view.tasks.eraseIdx index } now order task written =
        sendCommand { st.view with tasks := st.view.tasks.eraseIdx index } now order a frame message
          written := by
    cases task with
    | add b s message =>
        cases agent
        exact ⟨_, message, fun id => commandFrame_text id _ _ _ _, rfl⟩
    | del roamType b s ssid =>
        cases agent
        exact ⟨_, _, fun id => commandFrame_text id _ _ _ _, rfl⟩
    | putSendMsg sendMsgId message => cases agent
    | schedule sendMsgId => cases agent
  have shape : write st now order index written =
      (let after := sendCommand { st.view with tasks := st.view.tasks.eraseIdx index } now order a
        frame message written
      ⟨{ after with tasks := st.view.tasks.eraseIdx index }, st.commands ++
        (after.tasks.drop (st.view.tasks.eraseIdx index).length).filterMap
            (started st.view a)⟩) := by
    simp only [write, taken, agent, sends]
  rw [shape]
  have tasks (w : View) (new : List Task)
      (same : outbox w = (st.view.sendMsgBuffer, st.view.tasks.eraseIdx index ++ new)) :
      w.tasks.drop (st.view.tasks.eraseIdx index).length = new := by
    have queue : w.tasks = st.view.tasks.eraseIdx index ++ new := congrArg Prod.snd same
    rw [queue, List.drop_left]
  rcases sendCommand_outcome { st.view with tasks := st.view.tasks.eraseIdx index } now order
      a frame
      message written with ⟨same, wire⟩ | ⟨wrote, ⟨sc, wire⟩, same | same⟩
  · left
    have none := tasks _ [] (by rw [same]; simp [outbox])
    dsimp only
    rw [none, wire]
    simp
  · right
    have none := tasks _ [] (by rw [same]; simp [outbox])
    dsimp only
    rw [none]
    exact ⟨wrote, sc, frame (commandId st.view a), wire, text _, .inl (by simp)⟩
  · right
    have one := tasks _ _ same
    dsimp only
    rw [one]
    exact ⟨wrote, sc, frame (commandId st.view a), wire, text _, .inr ⟨_, rfl, rfl, rfl, rfl⟩⟩

/-! What is under way. -/

/-- Command `n` with this id was not executed and its entry is in the buffer or still to be
stored. -/
def Waits (st : Link) (n : Nat) (id : Text) : Prop :=
  ∃ c, st.commands[n]? = some c ∧ c.msgId = id ∧ n ∉ st.executed ∧
    (c.phase = .written ∨ st.owner c.key = some n ∧ (st.view.sendMsgBuffer c.key).isSome)

def InFlight (st : Link) (id : Text) : Prop :=
  (∃ frame ∈ st.down, frame.1.take 4 = id) ∨ .ok id ∈ st.up ∨
    ∃ cseq, .beat cseq ∈ st.up ∧ beatId cseq = id

/-- A command gets an id of four digits that nothing else uses, and a heartbeat an id that no
waiting command has. -/
def FreshIds (sc : Ref) (st : Link) (call : ApLink.Call) : Prop :=
  match call.event with
  | .write index true =>
      forLink st.view sc index = true → ∀ task a, st.view.tasks[index]? = some task →
        taskAgent task = some a → (commandId st.view a).length = 4 ∧
          ¬ InFlight st (commandId st.view a) ∧ ∀ n, ¬ Waits st n (commandId st.view a)
  | .beat => ∀ n, ¬ Waits st n (beatId (nextIdf st.ap))
  | _ => True

/-- No OK and no heartbeat under way has the id of a waiting command, and a frame with its id
is its own. -/
structure Flight (waits : Nat → Text → Prop) (down : List (Text × Option Nat)) (up : List Report) :
    Prop where
  oks : ∀ idf, .ok idf ∈ up → idf.length = 4 ∧ ∀ n, ¬ waits n idf
  beats : ∀ cseq, .beat cseq ∈ up → ∀ n, ¬ waits n (beatId cseq)
  frames : ∀ frame label, (frame, label) ∈ down → 4 ≤ frame.length ∧
    (label.isSome → isCommand frame = true) ∧ ∀ n, waits n (frame.take 4) → label = some n

theorem Flight.mono {waits fewer : Nat → Text → Prop} {down down' : List (Text × Option Nat)}
    {up up' : List Report} (flight : Flight waits down up) (less : ∀ n id, fewer n id → waits n id)
    (frames : down' ⊆ down) (reports : up' ⊆ up) : Flight fewer down' up' where
  oks := fun idf member =>
    ⟨(flight.oks idf (reports member)).1, fun n h => (flight.oks idf (reports member)).2 n
      (less n idf h)⟩
  beats := fun cseq member n h => flight.beats cseq (reports member) n (less n _ h)
  frames := by
    intro frame label member
    obtain ⟨long, command, own⟩ := flight.frames frame label (frames member)
    exact ⟨long, command, fun n h => own n (less n _ h)⟩

structure Answers (st : Link) : Prop where
  stored : ∀ key entry, st.view.sendMsgBuffer key = some entry → ∃ n c, st.owner key = some n ∧
    st.commands[n]? = some c ∧ c.key = key ∧ c.message = entry.msg
  ids : ∀ (n : Nat) c, st.commands[n]? = some c → c.msgId.length = 4 ∧ ∃ mac, c.key = mac ++ c.msgId
  flight : Flight (Waits st) st.down st.up

theorem modify_keeps {commands : List Command} {change : Command → Command} (k : Nat)
    (same : ∀ c, (change c).key = c.key ∧ (change c).message = c.message ∧
      (change c).msgId = c.msgId)
    {n : Nat} {c : Command} (found : commands[n]? = some c) :
    ∃ d, (commands.modify k change)[n]? = some d ∧ d.key = c.key ∧ d.message = c.message := by
  rw [List.getElem?_modify, found]
  by_cases hit : k = n
  · exact ⟨change c, by simp [hit], (same c).1, (same c).2.1⟩
  · exact ⟨c, by simp [hit], rfl, rfl⟩

theorem modify_ids {commands : List Command} {change : Command → Command} {k : Nat}
    (same : ∀ c, (change c).key = c.key ∧ (change c).message = c.message ∧
      (change c).msgId = c.msgId)
    (ids : ∀ (n : Nat) c, commands[n]? = some c → c.msgId.length = 4 ∧
      ∃ mac, c.key = mac ++ c.msgId)
    (n : Nat) (c : Command) (found : (commands.modify k change)[n]? = some c) :
    c.msgId.length = 4 ∧ ∃ mac, c.key = mac ++ c.msgId := by
  rcases modify_cases found with ⟨rfl, d, before, rfl⟩ | ⟨-, before⟩
  · rw [(same d).1, (same d).2.2]
    exact ids n d before
  · exact ids n c before

theorem Answers.view {st : Link} (answers : Answers st) (view : View)
    (entries : ∀ key entry, view.sendMsgBuffer key = some entry →
      ∃ before, st.view.sendMsgBuffer key = some before ∧ before.msg = entry.msg) :
    Answers { st with view := view } where
  stored := by
    intro key entry found
    obtain ⟨before, known, same⟩ := entries key entry found
    rw [← same]
    exact answers.stored key before known
  ids := answers.ids
  flight := by
    refine answers.flight.mono ?_ (fun _ h => h) (fun _ h => h)
    rintro n id ⟨c, found, same, fresh, written | ⟨owned, some_⟩⟩
    · exact ⟨c, found, same, fresh, .inl written⟩
    · obtain ⟨entry, stored⟩ := Option.isSome_iff_exists.mp some_
      obtain ⟨before, known, -⟩ := entries c.key entry stored
      exact ⟨c, found, same, fresh, .inr ⟨owned, by rw [known]; rfl⟩⟩

theorem answer_entries (buffer : Text → Option SendMsg) (key : Option Text) (status : MsgStatus)
    (id : Text) (entry : SendMsg) (found : answer buffer key status id = some entry) :
    ∃ before, buffer id = some before ∧ before.msg = entry.msg := by
  cases key with
  | none => exact ⟨entry, found, rfl⟩
  | some key =>
      cases stored : buffer key with
      | none =>
          simp only [answer, stored] at found
          exact ⟨entry, found, rfl⟩
      | some before =>
          simp only [answer, stored] at found
          by_cases same : id = key
          · subst same
            rw [Function.update_self] at found
            cases found
            exact ⟨before, stored, rfl⟩
          · rw [Function.update_of_ne same] at found
            exact ⟨entry, found, rfl⟩

theorem Answers.modify {st : Link} (answers : Answers st) (n : Nat) (change : Command → Command)
    (same : ∀ c, (change c).key = c.key ∧ (change c).message = c.message ∧
      (change c).msgId = c.msgId)
    (later : ∀ c, (change c).phase = .written → c.phase = .written) :
    Answers { st with commands := st.commands.modify n change } where
  stored := by
    intro key entry found
    obtain ⟨m, c, owned, listed, own, message⟩ := answers.stored key entry found
    obtain ⟨d, after, key', message'⟩ := modify_keeps n same listed
    exact ⟨m, d, owned, after, key'.trans own, message'.trans message⟩
  ids := modify_ids same answers.ids
  flight := by
    refine answers.flight.mono ?_ (fun _ h => h) (fun _ h => h)
    rintro m id ⟨d, found, rfl, fresh, waiting⟩
    rcases modify_cases found with ⟨rfl, c, before, rfl⟩ | ⟨-, before⟩
    · refine ⟨c, before, (same c).2.2.symm, fresh, ?_⟩
      rcases waiting with written | owned
      · exact .inl (later c written)
      · rw [(same c).1] at owned
        exact .inr owned
    · exact ⟨d, before, rfl, fresh, waiting⟩

theorem Answers.reports {st : Link} (answers : Answers st) (up : List Report) (fewer : up ⊆ st.up) :
    Answers { st with up := up } :=
  ⟨answers.stored, answers.ids, answers.flight.mono (fun _ _ h => h) (fun _ h => h) fewer⟩

theorem Answers.frame {st : Link} (answers : Answers st) (frame : Text) (label : Option Nat)
    (long : 4 ≤ frame.length) (command : label.isSome → isCommand frame = true)
    (own : ∀ n, Waits st n (frame.take 4) → label = some n) :
    Answers { st with down := st.down ++ [(frame, label)] } := by
  refine ⟨answers.stored, answers.ids, ⟨answers.flight.oks, answers.flight.beats, ?_⟩⟩
  intro frame' label' member
  rcases List.mem_append.mp member with old | new
  · exact answers.flight.frames frame' label' old
  · cases List.mem_singleton.mp new
    exact ⟨long, command, own⟩

/-! One step. -/

theorem put_answers (sc : Ref) (st : Link) (now : Int) (order : Order) (n : Nat)
    (answers : Answers st) :
    Answers (exchange sc st ⟨.put n, now, order⟩) := by
  simp only [exchange]
  cases found : st.commands[n]? with
  | none => exact answers
  | some c =>
      by_cases written : c.phase = .written
      · have next : deliver st.dispatch ⟨.put n, now, order⟩ =
            ⟨putSendMsg st.view c.key (some ⟨c.message, .unreply⟩),
              st.commands.modify n fun c => { c with phase := .stored }⟩ := by
          simp [deliver, act, Link.dispatch, found, written]
        simp only [if_pos written, Link.advance, next]
        have same : ∀ d : Command, ({ d with phase := .stored } : Command).key = d.key ∧
            ({ d with phase := .stored } : Command).message = d.message ∧
            ({ d with phase := .stored } : Command).msgId = d.msgId := fun d => ⟨rfl, rfl, rfl⟩
        refine ⟨?_, modify_ids same answers.ids,
          answers.flight.mono ?_ (fun _ h => h) (fun _ h => h)⟩
        · intro key entry stored
          by_cases hit : key = c.key
          · subst hit
            simp only [putSendMsg, Function.update_self] at stored
            cases stored
            obtain ⟨d, after, key', message⟩ := modify_keeps n same found
            exact ⟨n, d, Function.update_self _ _ _, after, key', message⟩
          · simp only [putSendMsg, Function.update_of_ne hit] at stored
            obtain ⟨m, e, owned, listed, own, message⟩ := answers.stored key entry stored
            obtain ⟨d, after, key', message'⟩ := modify_keeps n same listed
            exact ⟨m, d, (Function.update_of_ne hit _ _).trans owned, after, key'.trans own,
              message'.trans message⟩
        · rintro m id ⟨d, listed, rfl, fresh, waiting⟩
          rcases modify_cases listed with ⟨rfl, e, before, rfl⟩ | ⟨other, before⟩
          · cases found.symm.trans before
            exact ⟨c, found, rfl, fresh, .inl written⟩
          · refine ⟨d, before, rfl, fresh, ?_⟩
            rcases waiting with early | ⟨owned, stored⟩
            · exact .inl early
            · by_cases hit : d.key = c.key
              · simp only [hit, Function.update_self] at owned
                exact absurd (Option.some.inj owned).symm other
              · simp only [putSendMsg, Function.update_of_ne hit] at owned stored
                exact .inr ⟨owned, stored⟩
      · simp only [if_neg written]
        exact answers

theorem advance_answers (st : Link) (now : Int) (order : Order) (n : Nat) (answers : Answers st)
    (event : CommandRuns.Event) (shape : event = .schedule n ∨ event = .check n) :
    Answers (st.advance ⟨event, now, order⟩) := by
  rcases shape with rfl | rfl
  · simp only [Link.advance, deliver]
    rcases act_cases st.dispatch n _ _ _ with same | ⟨c, found, ready, result⟩
    · rw [same]
      exact answers
    · rw [result]
      exact answers.modify n _ (fun _ => ⟨rfl, rfl, rfl⟩) (fun _ h => by simp at h)
  · simp only [Link.advance, deliver]
    rcases act_cases st.dispatch n _ _ _ with same | ⟨c, found, ready, result⟩
    · rw [same]
      exact answers
    · rw [result]
      refine (answers.view (checkSendMsg st.view now order c.key) ?_).modify n _
        (fun _ => ⟨rfl, rfl, rfl⟩) (fun _ h => by simp at h)
      intro key entry stored
      rcases checkSendMsg_outbox st.view now order c.key with same | ⟨-, same⟩
      · have buffer : (checkSendMsg st.view now order c.key).sendMsgBuffer =
            st.view.sendMsgBuffer :=
          congrArg Prod.fst same
        rw [buffer] at stored
        exact ⟨entry, stored, rfl⟩
      · have buffer : (checkSendMsg st.view now order c.key).sendMsgBuffer =
            Function.update st.view.sendMsgBuffer c.key none := congrArg Prod.fst same
        rw [buffer] at stored
        by_cases hit : key = c.key
        · subst hit
          simp at stored
        · rw [Function.update_of_ne hit] at stored
          exact ⟨entry, stored, rfl⟩

theorem Answers.reply {st : Link} (answers : Answers st) {frame : Text} {label : Option Nat}
    {rest : List (Text × Option Nat)} (taken : st.down = (frame, label) :: rest) (ap : Ap)
    (accepted : Bool) :
    Answers { st with
      ap := ap
      down := rest
      up := st.up ++ [if accepted then .ok (frame.take 4) else .err (frame.take 4)]
      executed := if accepted ∧ isCommand frame then st.executed ++ label.toList
          else st.executed } := by
  -- a frame with its reply: what the AP has executed does not wait any more
  obtain ⟨long, command, own⟩ := answers.flight.frames frame label (by simp [taken])
  have less (n : Nat) (id : Text) (waits : Waits { st with
      ap := ap
      down := rest
      up := st.up ++ [if accepted then .ok (frame.take 4) else .err (frame.take 4)]
      executed := if accepted ∧ isCommand frame then st.executed ++ label.toList else st.executed }
        n id) :
      Waits st n id := by
    obtain ⟨c, found, same, fresh, waiting⟩ := waits
    refine ⟨c, found, same, fun old => fresh ?_, waiting⟩
    dsimp only
    split
    · exact List.mem_append_left _ old
    · exact old
  have earlier : Flight _ rest st.up :=
    answers.flight.mono less (fun _ h => by rw [taken]; exact List.mem_cons_of_mem _ h)
      (fun _ h => h)
  refine ⟨answers.stored, answers.ids, ⟨?_, ?_, earlier.frames⟩⟩
  · intro idf member
    rcases List.mem_append.mp member with old | new
    · exact earlier.oks idf old
    · cases accepted with
      | false => cases List.mem_singleton.mp new
      | true =>
          cases List.mem_singleton.mp new
          refine ⟨by simpa using long, fun n waits => ?_⟩
          -- a waiting command with this id owns the frame, so it has just been executed
          have label_eq := own n (less n _ waits)
          subst label_eq
          obtain ⟨c, -, -, fresh, -⟩ := waits
          simp [command rfl] at fresh
  · intro cseq member
    rcases List.mem_append.mp member with old | new
    · exact earlier.beats cseq old
    · cases accepted with
      | false => cases List.mem_singleton.mp new
      | true => cases List.mem_singleton.mp new

theorem beat_text (cseq : Nat) : (Report.beat cseq).text.take 4 = beatId cseq ∧
    (beatId cseq).length = 4 := by
  have four : (beatId cseq).length = 4 := by
    apply zeroPad_length
    · have small : cseq % 9999 < 9999 := Nat.mod_lt _ (by decide)
      omega
    · decide
  refine ⟨?_, four⟩
  simp only [Report.text]
  rw [← four]
  exact List.take_left

theorem newFrames_none {v w : View} (wire : w.sent = v.sent) : newFrames v w = [] := by
  simp [newFrames, wire]

theorem newFrames_one {v w : View} {sc : Ref} {frame : Text}
    (wire : w.sent = v.sent ++ [(sc, frame)]) :
    newFrames v w = [frame] := by
  simp [newFrames, wire]

theorem echo_frames (v : View) (now : Int) (sc : Ref) (message : Text) (written : Bool) :
    newFrames v (processMsgHeartBeat v now sc message written) = [] ∨
    newFrames v (processMsgHeartBeat v now sc message written) = [message ++ [';']] := by
  unfold processMsgHeartBeat
  split
  · exact .inl (newFrames_none rfl)
  · dsimp only
    split
    · exact .inr (newFrames_one rfl)
    · exact .inl (newFrames_none rfl)

theorem receive_answers (sc : Ref) (st : Link) (now : Int) (order : Order) (written : Bool)
    (answers : Answers st) : Answers (exchange sc st ⟨.receive written, now, order⟩) := by
  simp only [exchange]
  cases taken : st.up with
  | nil => exact answers
  | cons report rest =>
      have shorter : rest ⊆ st.up := by
        rw [taken]
        exact List.subset_cons_self report rest
      cases report with
      | ok idf =>
          obtain ⟨new, same, -⟩ := processMsgOk_outbox st.view now order sc (Report.ok idf).text
          refine (answers.view (processMsgOk st.view now order sc (Report.ok idf).text) ?_).reports
            rest shorter
          intro key entry found
          have buffer : (processMsgOk st.view now order sc (Report.ok idf).text).sendMsgBuffer =
              answer st.view.sendMsgBuffer (replyKey st.view sc (Report.ok idf).text) .ok :=
            congrArg Prod.fst same
          rw [buffer] at found
          exact answer_entries _ _ _ key entry found
      | err idf =>
          refine (answers.view (processMsgErr st.view sc (Report.err idf).text) ?_).reports rest
            shorter
          intro key entry found
          have buffer : (processMsgErr st.view sc (Report.err idf).text).sendMsgBuffer =
              answer st.view.sendMsgBuffer (replyKey st.view sc (Report.err idf).text) .err :=
            congrArg Prod.fst (processMsgErr_outbox st.view sc (Report.err idf).text)
          rw [buffer] at found
          exact answer_entries _ _ _ key entry found
      | beat cseq =>
          have quiet : (processMsgHeartBeat st.view now sc (Report.beat cseq).text
              written).sendMsgBuffer =
              st.view.sendMsgBuffer :=
            congrArg Prod.fst (processMsgHeartBeat_outbox st.view now sc (Report.beat cseq).text
              written)
          have heard := (answers.view
            (processMsgHeartBeat st.view now sc (Report.beat cseq).text written)
            (fun key entry found => ⟨entry, quiet ▸ found, rfl⟩)).reports rest shorter
          obtain ⟨id, four⟩ := beat_text cseq
          -- the echo has the id of the heartbeat, which no waiting command has
          have free := answers.flight.beats cseq (by simp [taken])
          have head : ((Report.beat cseq).text ++ [';']).take 4 = beatId cseq := by
            rw [List.take_append_of_le_length, id]
            simp [Report.text, four]
          rcases echo_frames st.view now sc (Report.beat cseq).text written with none | one
          · simp only [none, List.map_nil, List.append_nil]
            exact heard
          · simp only [one, List.map_cons, List.map_nil]
            refine heard.frame _ none ?_ (by simp) ?_
            · simp [Report.text, four]
            · intro n waits
              rw [head] at waits
              obtain ⟨c, found, same, fresh, waiting⟩ := waits
              exact absurd ⟨c, found, same, fresh, by rwa [quiet] at waiting⟩ (free n)

theorem waits_append {st : Link} {c : Command} {n : Nat} {id : Text}
    (waits : Waits { st with commands := st.commands ++ [c] } n id) :
    Waits st n id ∨ n = st.commands.length ∧ c.msgId = id := by
  obtain ⟨d, found, same, fresh, waiting⟩ := waits
  by_cases old : n < st.commands.length
  · simp only [List.getElem?_append_left old] at found
    exact .inl ⟨d, found, same, fresh, waiting⟩
  · simp only [List.getElem?_append_right (Nat.le_of_not_lt old)] at found
    have last : n - st.commands.length = 0 := by
      by_contra beyond
      simp [beyond] at found
    rw [last] at found
    cases found
    exact .inr ⟨by omega, same⟩

theorem Answers.command {st : Link} (answers : Answers st) (c : Command) (mac : Text)
    (four : c.msgId.length = 4) (key : c.key = mac ++ c.msgId) (free : ¬ InFlight st c.msgId) :
    Answers { st with commands := st.commands ++ [c] } where
  stored := by
  -- a new command whose id nothing under way has
    intro key entry found
    obtain ⟨n, d, owned, listed, own, message⟩ := answers.stored key entry found
    refine ⟨n, d, owned, ?_, own, message⟩
    rw [List.getElem?_append_left (List.getElem?_eq_some_iff.mp listed).1]
    exact listed
  ids := by
    intro n d found
    rcases append_cases found with old | new
    · exact answers.ids n d old
    · cases List.mem_singleton.mp new
      exact ⟨four, mac, key⟩
  flight := by
    refine ⟨?_, ?_, ?_⟩
    · intro idf member
      refine ⟨(answers.flight.oks idf member).1, fun n waits => ?_⟩
      rcases waits_append waits with old | ⟨-, rfl⟩
      · exact (answers.flight.oks idf member).2 n old
      · exact free (.inr (.inl member))
    · intro cseq member n waits
      rcases waits_append waits with old | ⟨-, same⟩
      · exact answers.flight.beats cseq member n old
      · exact free (.inr (.inr ⟨cseq, member, same.symm⟩))
    · intro frame label member
      obtain ⟨long, command, own⟩ := answers.flight.frames frame label member
      refine ⟨long, command, fun n waits => ?_⟩
      rcases waits_append waits with old | ⟨-, same⟩
      · exact own n old
      · exact absurd (.inl ⟨(frame, label), member, same.symm⟩) free

theorem write_answers (sc : Ref) (st : Link) (now : Int) (order : Order) (index : Nat)
    (written : Bool) (fits : FreshIds sc st ⟨.write index written, now, order⟩)
    (answers : Answers st) :
    Answers (exchange sc st ⟨.write index written, now, order⟩) := by
  simp only [exchange]
  by_cases here : forLink st.view sc index = true
  · obtain ⟨task, a, taken, agent⟩ : ∃ task a, st.view.tasks[index]? = some task ∧
        taskAgent task = some a := by
      unfold forLink at here
      split at here
      · rename_i task taken
        split at here
        · rename_i a agent
          exact ⟨task, a, taken, agent⟩
        · cases here
      · cases here
    have buffer := write_buffer st.dispatch now order index written
    have viewed := answers.view (write st.dispatch now order index written).view
      (fun key entry found => ⟨entry, buffer ▸ found, rfl⟩)
    have same (n : Nat) (id : Text) (waits : Waits { st with
        view := (write st.dispatch now order index written).view } n id) : Waits st n id := by
      obtain ⟨c, found, id_eq, fresh, waiting⟩ := waits
      exact ⟨c, found, id_eq, fresh, by rwa [buffer] at waiting⟩
    rw [if_pos here]
    simp only [Link.advance, deliver]
    rcases write_outcome st.dispatch now order index written task a taken agent with
      ⟨commands, wire⟩ | ⟨rfl, sc', frame, wire, text, outcome⟩
    · have none : newFrames st.view (write st.dispatch now order index written).view = [] :=
        newFrames_none wire
      simp only [none, List.map_nil, List.append_nil, commands]
      exact viewed
    · have one : newFrames st.view (write st.dispatch now order index true).view = [frame] :=
        newFrames_one wire
      -- the frame has a fresh id, so no other command waits for it
      obtain ⟨four, free, idle⟩ := fits here task a taken agent
      replace text : CommandText (commandId st.view a) frame := text
      simp only [one, List.map_cons, List.map_nil]
      rcases outcome with commands | ⟨c, commands, id, key, -⟩
      · replace commands : (write st.dispatch now order index true).commands = st.commands :=
          commands
        simp only [commands, lt_irrefl, if_false]
        refine viewed.frame frame none (text.length four) (by simp) ?_
        intro n waits
        rw [text.take four] at waits
        exact absurd (same n _ waits) (idle n)
      · replace commands : (write st.dispatch now order index true).commands = st.commands ++ [c] :=
          commands
        replace id : c.msgId = commandId st.view a := id
        simp only [commands, List.length_append, List.length_cons, List.length_nil, zero_add,
          Nat.lt_succ_self, if_true]
        rw [← id] at text four free idle
        have grown := viewed.command c (st.view.agents a).macAddress four key free
        refine grown.frame frame (some st.commands.length) (text.length four)
          (fun _ => text.isCommand four) ?_
        intro n waits
        rw [text.take four] at waits
        rcases waits_append waits with old | ⟨last, -⟩
        · exact absurd (same n _ old) (idle n)
        · rw [last]
  · rw [if_neg here]
    exact answers

theorem exchange_answers (sc : Ref) (st : Link) (call : ApLink.Call) (fits : FreshIds sc st call)
    (answers : Answers st) : Answers (exchange sc st call) := by
  obtain ⟨event, now, order⟩ := call
  cases event with
  | op op =>
      simp only [exchange]
      split
      · rename_i free
        have buffer := direct_buffer st.view now order op
            (by cases op <;> simp_all [unlinked, direct])
        exact answers.view _ (fun key entry found => ⟨entry, buffer ▸ found, rfl⟩)
      · exact answers
  | write index written => exact write_answers sc st now order index written fits answers
  | put n => exact put_answers sc st now order n answers
  | schedule n => exact advance_answers st now order n answers _ (.inl rfl)
  | check n => exact advance_answers st now order n answers _ (.inr rfl)
  | receive written => exact receive_answers sc st now order written answers
  | handle result =>
      simp only [exchange]
      cases taken : st.down with
      | nil => exact answers
      | cons head rest => exact answers.reply taken _ _
  | beat =>
      refine ⟨answers.stored, answers.ids, ⟨?_, ?_, answers.flight.frames⟩⟩
      · intro idf member
        rcases List.mem_append.mp member with old | new
        · exact answers.flight.oks idf old
        · cases List.mem_singleton.mp new
      · intro cseq member
        rcases List.mem_append.mp member with old | new
        · exact answers.flight.beats cseq old
        · cases List.mem_singleton.mp new
          exact fits
  | report => exact ⟨answers.stored, answers.ids, answers.flight⟩

/-! Whole runs. -/

/-- The next message at the controller is an OK that `processMsgOk` confirms this entry by. -/
def Confirms (sc : Ref) (st : Link) (key : Text) (entry : SendMsg) : Prop :=
  ∃ idf rest, st.up = .ok idf :: rest ∧ replyKey st.view sc (Report.ok idf).text = some key ∧
    st.view.sendMsgBuffer key = some entry

/-- The AP has parsed the frame of the command that stored the entry and the command's handler
has returned `FNII_RET_OK`. -/
def Executed (st : Link) (key : Text) (entry : SendMsg) : Prop :=
  ∃ n c, st.owner key = some n ∧ st.commands[n]? = some c ∧ c.message = entry.msg ∧ n ∈ st.executed

theorem answers_start : Answers Link.start where
  stored := by
    intro key entry found
    simp [Link.start, View.empty] at found
  ids := by
    intro n c found
    simp [Link.start] at found
  flight := ⟨by simp [Link.start], by simp [Link.start], by simp [Link.start]⟩

/-- In every run in which no id is used twice at a time, an OK confirms only a command that
the AP has executed. -/
theorem confirmed_was_executed (sc : Ref) (st : Link)
    (reached : Reaches (exchange sc) (FreshIds sc) Link.start st) (key : Text) (entry : SendMsg)
    (confirms : Confirms sc st key entry) : Executed st key entry := by
  have answers : Answers st := reached.invariant Answers answers_start (exchange_answers sc)
  obtain ⟨idf, rest, arrives, found, stored⟩ := confirms
  obtain ⟨n, c, owned, listed, own, message⟩ := answers.stored key entry stored
  obtain ⟨four, mac, key_eq⟩ := answers.ids n c listed
  obtain ⟨four', idle⟩ := answers.flight.oks idf (by simp [arrives])
  -- the key ends with the four characters of the id
  have same : c.msgId = idf := by
    have idText : substring (Report.ok idf).text 0 4 = some idf :=
      substring_middle [] idf "100002OK".toList 0 4 rfl (by rw [four']; rfl)
    cases registered : st.view.sc2AgentMap sc with
    | none => simp [replyKey, registered] at found
    | some a =>
        have keys : (st.view.agents a).macAddress ++ idf = mac ++ c.msgId := by
          rw [← key_eq, own]
          simpa [replyKey, registered, idText] using found
        exact (List.append_inj_right' keys (four'.trans four.symm)).symm
  refine ⟨n, c, owned, listed, message, ?_⟩
  by_contra fresh
  exact idle n ⟨c, listed, same, fresh, .inr ⟨own ▸ owned, by rw [own, stored]; rfl⟩⟩

def traffic (now : Int) (events : List ApLink.Event) : List ApLink.Call :=
  events.map fun event => ⟨event, now, .stored⟩

/-- The AP connects, then reports a probed station; the station gets an add command. -/
def connected : List ApLink.Call :=
  (hello 0 apMac).map fun event => ⟨.op event.op, event.now, event.order⟩

def probed : List ApLink.Call :=
  [⟨.op (probe 0).op, 300, .stored⟩, ⟨.op (.addVap false addCommand), 400, .stored⟩]

/-- A run that meets the condition: the OK of an add command confirms it. -/
theorem first_command_confirmed :
    let st := run (exchange 0) Link.start
      (connected ++ probed ++ traffic 500 [.write 0 true, .put 0, .handle true])
    Confirms 0 st firstCommand.key ⟨addCommand, .unreply⟩ ∧
      Executed st firstCommand.key ⟨addCommand, .unreply⟩ := by
  have fits : Allowed (exchange 0) (FreshIds 0) Link.start
      (connected ++ probed ++ traffic 500 [.write 0 true, .put 0, .handle true]) := by
    have idle : (run (exchange 0) Link.start (connected ++ probed)).down = [] ∧
        (run (exchange 0) Link.start (connected ++ probed)).up = [] ∧
        (run (exchange 0) Link.start (connected ++ probed)).commands = [] := by decide +kernel
    have queued : (run (exchange 0) Link.start (connected ++ probed)).view.tasks =
        [.add 0 0 addCommand] := by decide +kernel
    refine ⟨trivial, trivial, trivial, trivial, trivial, ?_, trivial, trivial, trivial⟩
    intro _ task a taken agent
    replace taken := (congrArg (·[0]?) queued).symm.trans taken
    cases taken
    cases agent
    refine ⟨by decide +kernel, ?_, ?_⟩
    · rintro (⟨frame, under, -⟩ | under | ⟨cseq, under, -⟩)
      · exact absurd (idle.1 ▸ under) (List.not_mem_nil)
      · exact absurd (idle.2.1 ▸ under) (List.not_mem_nil)
      · exact absurd (idle.2.1 ▸ under) (List.not_mem_nil)
    · rintro n ⟨c, found, -⟩
      replace found := (congrArg (·[n]?) idle.2.2).symm.trans found
      cases found
  have confirms : Confirms 0 (run (exchange 0) Link.start
      (connected ++ probed ++ traffic 500 [.write 0 true, .put 0, .handle true])) firstCommand.key
      ⟨addCommand, .unreply⟩ := ⟨"0001".toList, [], by decide +kernel⟩
  exact ⟨confirms, confirmed_was_executed 0 _ (Reaches.append _ .start fits) _ _ confirms⟩

/-- The AP's third message is a heartbeat, and its echo reaches the AP before the frames of
the first three commands. -/
def crossed : List ApLink.Call :=
  connected ++ traffic 250 [.report, .report, .beat, .receive true, .report] ++ probed ++
    traffic 500 [.op (.delVap none 0 0 ['w']), .op (.delVap none 0 0 ['w']), .write 0 true,
      .write 0 true,
      .write 0 true, .put 0, .put 1, .put 2, .handle true]

/-- The OK to the echoed heartbeat confirms the third command, of which the AP has not seen
the frame. -/
theorem echo_confirms_unexecuted :
    ¬ ∀ (sc : Ref) (events : List ApLink.Call) (key : Text) (entry : SendMsg),
      Confirms sc (run (exchange sc) Link.start events) key entry →
      Executed (run (exchange sc) Link.start events) key entry := by
  intro all
  have found : ((run (exchange 0) Link.start crossed).view.sendMsgBuffer
      (apMac ++ "0003".toList)).isSome := by decide +kernel
  obtain ⟨entry, stored⟩ := Option.isSome_iff_exists.mp found
  have waiting : (run (exchange 0) Link.start crossed).up = [.ok "0003".toList] ∧
      replyKey (run (exchange 0) Link.start crossed).view 0 (Report.ok "0003".toList).text =
        some (apMac ++ "0003".toList) := by decide +kernel
  obtain ⟨n, c, -, -, -, executed⟩ := all 0 crossed (apMac ++ "0003".toList) entry
    ⟨"0003".toList, [], waiting.1, waiting.2, stored⟩
  have none : (run (exchange 0) Link.start crossed).executed = [] := by decide +kernel
  rw [none] at executed
  cases executed

end LazyAS.CommandConfirmation

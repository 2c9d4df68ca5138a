import LazyAS.StepTraces
import LazyAS.CommandConfirmation

/-! The ids of the commands. `Agent.getMsgId` counts from 1 to 10000 and `fillZero` prints
the number in at least four characters. Nothing but a command takes an id, so the ids of an
agent follow its counter; every 10000th one has five characters and moves the fields behind
it. -/
namespace LazyAS.CommandIds
open WireText ControllerView Master
open CommandRuns (taskAgent)
open StationCoherence (Event next hello probe apMac staMac)
open CommandConfirmation (commandId)
open StepTraces

section Commands

variable (v : View) (now : Int) (order : Order)

def commands (a : Ref) (op : Op) : Bool :=
  match op with
  | .task index _ => (v.tasks[index]?).bind taskAgent = some a
  | _ => false

theorem step_ids (op : Op) (a : Ref) (known : a < v.nextAgent) :
    ids (step v now order op) a = if commands v a op then nextId (v.agents a) else ids v a := by
  -- only a command for the agent moves its counter
  have kept {w : View} (same : traces w = traces v) : ids w a = ids v a :=
    congrFun (congrArg Prod.fst same) a
  cases op with
  | accept => rfl
  | heard sc =>
      simp only [step, updateAgentHeard, commands]
      split
      · rfl
      · exact kept (traces_agent_frame v _ (fun agent => { agent with lastHeard := now }) rfl)
  | localMac sc message => exact (traces_processMsgLocalMac v now order sc message).2 a known
  | heartBeat sc message written =>
      have heard (b : Ref) := kept
          (traces_agent_frame v b (fun agent => { agent with lastHeartBeat := now }) rfl)
      simp only [step, processMsgHeartBeat, commands]
      split
      · rfl
      · split <;> exact heard _
  | newStation sc message =>
      obtain ⟨fresh, published, -⟩ := processMsgNewStation_publishes v now order sc message
      exact congrFun (congrArg Prod.fst published) a
  | delStation sc message => exact kept (traces_processMsgDelStation v now order sc message)
  | flowInfo sc message => exact kept (traces_processMsgFlowInfo v sc message)
  | probeInfo sc message =>
      obtain ⟨fresh, published, -⟩ := processMsgProbeInfo_publishes v now order sc message
      exact congrFun (congrArg Prod.fst published) a
  | interfaceNum sc message =>
      simp only [step, processMsgInterfaceNum, commands]
      split
      · exact kept (traces_informAgent v _ _ _ _ _ _)
      · rfl
  | ok sc message => exact kept (traces_processMsgOk v now order sc message)
  | err sc message =>
      simp only [step, processMsgErr, commands]
      split
      · split <;> rfl
      · rfl
  | closeSocket sc => exact kept (traces_closeSocket v order sc)
  | addVap isRoam message => exact kept (traces_excuteAddVap v now order isRoam message)
  | queueVap b staMacAddress mode ssid =>
      exact kept (traces_addVapContainer v now order false b _ mode ssid)
  | delVap roamType b s ssid => exact kept (traces_delVapContainer v now order roamType b s ssid)
  | cancel message => exact kept (traces_cancelTask v now order message)
  | age => exact kept (traces_ageTask v now order)
  | cmd key => exact kept (traces_cmdTask v now order key)
  | check index =>
      simp only [step, commands]
      split
      · rfl
      · exact kept (traces_checkSendMsg { v with checks := v.checks.eraseIdx index } now order _)
  | task index written =>
      -- the counter moves at the agent of the command, for any other task it stays
      have moved (w : View) (same : w.agents = v.agents) (b : Ref) (frame : Text → Text)
          (message : StationCtrlMessage) :
          ids (sendCommand w now order b frame message written) a =
            if b = a then nextId (v.agents a) else ids v a := by
        have sent : ids (sendCommand w now order b frame message written) =
            Function.update (ids w) b (nextId (w.agents b)) :=
          congrArg Prod.fst (traces_sendCommand w now order b frame message written)
        rw [sent]
        by_cases own : b = a
        · subst own
          simp [same]
        · rw [Function.update_of_ne (Ne.symm own), if_neg own]
          simp only [ids, same]
      simp only [step]
      split
      · rename_i none
        simp [commands, none]
      · rename_i task found
        cases task with
        | add b s message =>
            simp only [commands, found, Option.bind_some, taskAgent, Option.some.injEq,
              decide_eq_true_eq, runTask]
            exact moved { v with tasks := v.tasks.eraseIdx index } rfl b _ message
        | del roamType b s ssid =>
            simp only [commands, found, Option.bind_some, taskAgent, Option.some.injEq,
              decide_eq_true_eq, runTask]
            exact moved { v with tasks := v.tasks.eraseIdx index } rfl b _ _
        | putSendMsg sendMsgId message =>
            simp [commands, found, taskAgent, runTask, ids, submit, putSendMsg]
        | schedule sendMsgId => simp [commands, found, taskAgent, runTask, ids]

end Commands

/-! The ids along a run. -/

/-- One command of an agent: its id and the frames its step wrote. -/
structure Issue where
  id : Text
  frames : List Text

/-- The commands of an agent along a run, in the order in which they take their ids. -/
def issued (a : Ref) : View → List Event → List Issue
  | _, [] => []
  | v, event :: events =>
      let later := issued a (next v event) events
      if commands v a event.op then ⟨commandId v a, ApLink.newFrames v (next v event)⟩ :: later
        else later

theorem issued_skip (a : Ref) (v : View) (event : Event) (events : List Event)
    (other : commands v a event.op = false) :
    issued a v (event :: events) = issued a (next v event) events := by
  simp only [issued, other, Bool.false_eq_true, if_false]

theorem issued_take (a : Ref) (v : View) (event : Event) (events : List Event)
    (own : commands v a event.op = true) : issued a v (event :: events) =
      ⟨commandId v a, ApLink.newFrames v (next v event)⟩ :: issued a (next v event) events := by
  simp only [issued, own, if_true]

def idAfter : Nat → Nat
  | 0 => 0
  | count + 1 => count % 10000 + 1

theorem nextId_after (agent : Agent) (count : Nat) (counted : agent.currentId = idAfter count) :
    nextId agent = idAfter (count + 1) := by
  cases count with
  | zero => simp [nextId, counted, idAfter]
  | succ count =>
      have before : idAfter (count + 1) = count % 10000 + 1 := rfl
      have after : idAfter (count + 1 + 1) = (count + 1) % 10000 + 1 := rfl
      unfold nextId
      split <;> omega

def FrameOf (id frame : Text) : Prop :=
  ∃ type, ∃ tmp : Text, frame = id ++ (commandCode type ++ (zeroPad 3 tmp.length ++ (tmp ++ [';'])))

/-- The type lies at offset 4 and the length field right behind it, at offset 7. -/
def LaidOut (frame : Text) : Prop :=
  ∃ type, ∃ tmp : Text, frame.drop 4 = commandCode type ++ (zeroPad 3 tmp.length ++ (tmp ++ [';']))

theorem commandFrame_of (msgId : Text) (type : CommandType) (staMacAddr mode ssid : Text) :
    FrameOf msgId (commandFrame msgId type staMacAddr mode ssid) := by
  refine ⟨type, Nat.toDigits 10 staMacAddr.length ++ staMacAddr ++
    Nat.toDigits 10 staMacAddr.length ++
    "ffffffffffff".toList ++ mode ++ zeroPad 2 ssid.length ++ ssid, ?_⟩
  unfold commandFrame
  dsimp only
  rw [List.append_assoc, List.append_assoc, List.append_assoc]

theorem step_frames (v : View) (now : Int) (order : Order) (op : Op) (a : Ref)
    (own : commands v a op = true) :
    ∀ frame ∈ ApLink.newFrames v (step v now order op), FrameOf (commandId v a) frame := by
  -- the step of a command writes nothing but its frame, behind the id it took
  have sends (w : View) (same : w.agents = v.agents) (wire : w.sent = v.sent) (frame : Text → Text)
      (message : StationCtrlMessage) (written : Bool)
      (shape : FrameOf (commandId v a) (frame (commandId v a))) :
      ∀ text ∈ ApLink.newFrames v (sendCommand w now order a frame message written),
        FrameOf (commandId v a) text := by
    intro text member
    rcases SendBuffer.sendCommand_outcome w now order a frame message written with
      ⟨-, quiet⟩ | ⟨-, ⟨sc, wrote⟩, -⟩
    · simp [ApLink.newFrames, quiet, wire] at member
    · simp only [ApLink.newFrames, wrote, wire, List.drop_left, List.map_cons, List.map_nil,
        List.mem_singleton, same] at member
      rw [member]
      exact shape
  cases op with
  | task index written =>
      simp only [commands, decide_eq_true_eq] at own
      obtain ⟨task, found, agent⟩ := Option.bind_eq_some_iff.mp own
      simp only [step, found]
      cases task with
      | add b s message =>
          obtain rfl : b = a := by simpa [taskAgent] using agent
          rw [runTask]
          apply sends
          · rfl
          · rfl
          · exact commandFrame_of _ _ _ _ _
      | del roamType b s ssid =>
          obtain rfl : b = a := by simpa [taskAgent] using agent
          rw [runTask]
          apply sends
          · rfl
          · rfl
          · exact commandFrame_of _ _ _ _ _
      | putSendMsg sendMsgId message => simp [taskAgent] at agent
      | schedule sendMsgId => simp [taskAgent] at agent
  | _ => simp [commands] at own

theorem issued_at (a : Ref) (events : List Event) (v : View) (count : Nat) (known : a < v.nextAgent)
    (counted : ids v a = idAfter count) (n : Nat) (issue : Issue)
    (taken : (issued a v events)[n]? = some issue) :
    issue.id = zeroPad 4 (idAfter (count + n + 1)) ∧
      ∀ frame ∈ issue.frames, FrameOf issue.id frame := by
  -- the id and the frames of the command with a number, counted from the start of the run
  induction events generalizing v count n with
  | nil => simp [issued] at taken
  | cons event events ih =>
      have bound : a < (next v event).nextAgent :=
        Nat.lt_of_lt_of_le known (Directory.step_keeps v event.now event.order event.op).nextAgent
      have moved := step_ids v event.now event.order event.op a known
      by_cases own : commands v a event.op = true
      · have here : nextId (v.agents a) = idAfter (count + 1) := nextId_after _ count counted
        simp only [own, if_true, here] at moved
        rw [issued_take a v event events own] at taken
        cases n with
        | zero =>
            simp only [List.getElem?_cons_zero, Option.some.injEq] at taken
            subst taken
            constructor
            · simp only [commandId, here, Nat.add_zero]
            · exact step_frames v event.now event.order event.op a own
        | succ n =>
            rw [List.getElem?_cons_succ] at taken
            have later := ih (next v event) (count + 1) bound moved n taken
            rwa [show count + 1 + n + 1 = count + (n + 1) + 1 by omega] at later
      · simp only [Bool.not_eq_true] at own
        simp only [own] at moved
        rw [issued_skip a v event events own] at taken
        exact ih (next v event) count bound (moved.trans counted) n taken

theorem idAfter_id (count : Nat) :
    (zeroPad 4 (idAfter (count + 1))).length = 4 ↔ (count + 1) % 10000 ≠ 0 := by
  have value : idAfter (count + 1) = count % 10000 + 1 := rfl
  rw [zeroPad_length_iff 4 _ (by decide), value]
  push_cast
  omega

theorem laidOut_iff (count : Nat) (frame : Text)
    (shape : FrameOf (zeroPad 4 (idAfter (count + 1))) frame) :
    LaidOut frame ↔ (count + 1) % 10000 ≠ 0 := by
  obtain ⟨type, tmp, rfl⟩ := shape
  rw [← idAfter_id]
  constructor
  · rintro ⟨type', tmp', moved⟩
    by_contra wide
    -- an id that is too long is 10000, so the text at offset 4 starts with its last zero
    have last : idAfter (count + 1) = 10000 := by
      have value : idAfter (count + 1) = count % 10000 + 1 := rfl
      rw [idAfter_id, not_not] at wide
      omega
    have digits : zeroPad 4 ((10000 : Nat) : Int) = "10000".toList := by decide
    have front : ("10000".toList ++
        (commandCode type ++ (zeroPad 3 tmp.length ++ (tmp ++ [';'])))).drop 4 =
        '0' :: (commandCode type ++ (zeroPad 3 tmp.length ++ (tmp ++ [';']))) := rfl
    rw [last, digits, front] at moved
    have first := congrArg List.head? moved
    cases type' <;> simp [commandCode] at first
  · intro four
    exact ⟨type, tmp, List.drop_left' four⟩

/-- What the text of a frame relies on: ids of four characters, the fields behind them in
their places, and no id twice among 9999 commands in a row. -/
def KeepsLayout (issues : List Issue) : Prop :=
  (∀ issue ∈ issues, issue.id.length = 4 ∧ ∀ frame ∈ issue.frames, LaidOut frame) ∧
  ∀ m n first second, m < n → n < m + 9999 → issues[m]? = some first → issues[n]? = some second →
    first.id ≠ second.id

theorem issued_fresh (a : Ref) (events : List Event) (v : View) (known : a < v.nextAgent)
    (fresh : (v.agents a).currentId = 0) (n : Nat) (issue : Issue)
    (taken : (issued a v events)[n]? = some issue) :
    issue.id = zeroPad 4 (idAfter (n + 1)) ∧ ∀ frame ∈ issue.frames, FrameOf issue.id frame := by
  have at_n := issued_at a events v 0 known fresh n issue taken
  rwa [Nat.zero_add] at at_n

theorem issued_apart (a : Ref) (events : List Event) (v : View) (known : a < v.nextAgent)
    (fresh : (v.agents a).currentId = 0) (m n : Nat) (first second : Issue) (order : m < n)
    (near : n < m + 10000)
    (early : (issued a v events)[m]? = some first) (late : (issued a v events)[n]? = some second) :
    first.id ≠ second.id := by
  intro same
  rw [(issued_fresh a events v known fresh m first early).1,
    (issued_fresh a events v known fresh n second late).1] at same
  have equal : idAfter (m + 1) = idAfter (n + 1) := by
    rw [← zeroPad_value 4 (idAfter (m + 1)), same, zeroPad_value]
  have left : idAfter (m + 1) = m % 10000 + 1 := rfl
  have right : idAfter (n + 1) = n % 10000 + 1 := rfl
  omega

theorem layout_kept_iff (a : Ref) (events : List Event) (v : View) (known : a < v.nextAgent)
    (fresh : (v.agents a).currentId = 0) :
    KeepsLayout (issued a v events) ↔ (issued a v events).length < 10000 := by
  -- the layout is lost with the 10000th command
  constructor
  · rintro ⟨four, -⟩
    by_contra many
    have taken := List.getElem?_eq_getElem (l := issued a v events) (i := 9999) (by omega)
    have wide := (four _ (List.mem_of_getElem? taken)).1
    rw [(issued_fresh a events v known fresh 9999 _ taken).1, idAfter_id] at wide
    omega
  · intro few
    constructor
    · intro issue member
      obtain ⟨n, taken⟩ := List.mem_iff_getElem?.mp member
      obtain ⟨inside, -⟩ := List.getElem?_eq_some_iff.mp taken
      obtain ⟨id, frames⟩ := issued_fresh a events v known fresh n issue taken
      have low : (n + 1) % 10000 ≠ 0 := by omega
      constructor
      · rw [id, idAfter_id]
        exact low
      · intro frame sent
        have shape := frames frame sent
        rw [id] at shape
        exact (laidOut_iff n frame shape).mpr low
    · intro m n first second order near
      exact issued_apart a events v known fresh m n first second order (by omega)

/-- An agent's commands keep the layout of the frames as long as there are fewer than 10000 of
them; past that, every command whose number is a multiple of 10000 breaks it, and no other. -/
theorem command_ids_keep_layout (a : Ref) (events : List Event) (v : View) (known : a < v.nextAgent)
    (fresh : (v.agents a).currentId = 0) :
    (KeepsLayout (issued a v events) ↔ (issued a v events).length < 10000) ∧
    (∀ n issue, (issued a v events)[n]? = some issue →
      (issue.id.length = 4 ↔ (n + 1) % 10000 ≠ 0) ∧
      ∀ frame ∈ issue.frames, LaidOut frame ↔ (n + 1) % 10000 ≠ 0) ∧
    ∀ m n first second, m < n → n < m + 10000 → (issued a v events)[m]? = some first →
      (issued a v events)[n]? = some second → first.id ≠ second.id := by
  refine ⟨layout_kept_iff a events v known fresh, ?_, issued_apart a events v known fresh⟩
  intro n issue taken
  obtain ⟨id, frames⟩ := issued_fresh a events v known fresh n issue taken
  constructor
  · rw [id]
    exact idAfter_id n
  · intro frame sent
    have shape := frames frame sent
    rw [id] at shape
    exact laidOut_iff n frame shape

/-! A run with 10000 commands. -/

/-- An agent, a station and a container, and nothing to do. -/
structure Idle (v : View) : Prop where
  sc : (v.agents 0).sc = some 0
  registered : (v.sc2AgentMap 0).isSome = true
  heard : agentStatus v 0 0 = .onLine
  linked : agentSetContains v 0 (.agent 0) = true
  quiet : v.tasks = []
  opened : v.isOpen 0 = true

def askDel : List Event := [⟨.delVap none 0 0 ['w'], 0, .stored⟩, ⟨.task 0 false, 0, .stored⟩]

theorem sendCommand_unwritten (v : View) (idle : Idle v) (frame : Text → Text)
    (message : StationCtrlMessage) (del : message.msgType = .delVap) (own : message.agent = 0) :
    sendCommand v 0 .stored 0 frame message false =
      updAgent v 0 (fun agent => { agent with currentId := nextId (v.agents 0) }) := by
  -- a deletion that cannot be written takes its id and nothing else
  have kept (w : View) (channel : (w.agents 0).sc = some 0) (heard : agentStatus w 0 0 = .onLine) :
      cancelTask w 0 .stored message = w := by
    simp [cancelTask, own, del, channel, heard]
  have channel : ((updAgent v 0 fun agent => { agent with currentId := nextId (v.agents 0) }).agents
      0).sc =
      some 0 := by
    simpa [updAgent] using idle.sc
  have heard : agentStatus (updAgent v 0 fun agent => { agent with
      currentId := nextId (v.agents 0) }) 0 0 =
      .onLine := by
    simpa [agentStatus, updAgent] using idle.heard
  have opened : (updAgent v 0 fun agent => { agent with currentId := nextId (v.agents 0) }).isOpen
      0 = true :=
    idle.opened
  unfold sendCommand
  dsimp only
  rw [channel]
  dsimp only
  rw [if_pos opened]
  exact kept _ channel heard

theorem askDel_run (v : View) (idle : Idle v) :
    Runs.run next v askDel =
      updAgent v 0 (fun agent => { agent with currentId := nextId (v.agents 0) }) ∧
      ∀ events, (issued 0 v (askDel ++ events)).length =
        (issued 0 (Runs.run next v askDel) events).length + 1 := by
  have asked : next v ⟨.delVap none 0 0 ['w'], 0, .stored⟩ = submit v (.del none 0 0 ['w']) := by
    simp only [next, step, delVapContainer, idle.sc, idle.registered, idle.heard, idle.linked,
      if_true]
  have alone : (submit v (.del none 0 0 ['w'])).tasks = [.del none 0 0 ['w']] := by
    simp [submit, idle.quiet]
  have restored : { submit v (.del none 0 0 ['w']) with tasks := [] } = v := by
    rw [← idle.quiet]
    rfl
  have numbered : next (submit v (.del none 0 0 ['w'])) ⟨.task 0 false, 0, .stored⟩ =
      updAgent v 0 (fun agent => { agent with currentId := nextId (v.agents 0) }) := by
    have taken : next (submit v (.del none 0 0 ['w'])) ⟨.task 0 false, 0, .stored⟩ =
        runTask { submit v (.del none 0 0 ['w']) with tasks := [] } 0 .stored (.del none 0 0 ['w'])
            false := by
      simp only [next, step, alone, List.getElem?_cons_zero, List.eraseIdx_cons_zero]
    rw [taken, restored]
    simp only [runTask]
    apply sendCommand_unwritten v idle
    · rfl
    · rfl
  constructor
  · simp only [Runs.run, askDel, List.foldl_cons, List.foldl_nil, asked, numbered]
  · intro events
    have free : commands v 0 (.delVap none 0 0 ['w']) = false := rfl
    have own : commands (submit v (.del none 0 0 ['w'])) 0 (.task 0 false) = true := by
      simp [commands, alone, taskAgent]
    rw [askDel, List.cons_append, List.cons_append, List.nil_append, issued_skip _ _ _ _ free,
      asked, issued_take _ _ _ _ own, List.length_cons]
    simp only [Runs.run, List.foldl_cons, List.foldl_nil, asked]

theorem askDel_idle (v : View) (idle : Idle v) : Idle (Runs.run next v askDel) := by
  rw [(askDel_run v idle).1]
  constructor
  · simpa [updAgent] using idle.sc
  · exact idle.registered
  · simpa [agentStatus, updAgent] using idle.heard
  · exact idle.linked
  · exact idle.quiet
  · exact idle.opened

theorem askDel_issues (count : Nat) (v : View) (idle : Idle v) :
    (issued 0 v (List.replicate count askDel).flatten).length = count := by
  induction count generalizing v with
  | zero => rfl
  | succ count ih =>
      rw [List.replicate_succ, List.flatten_cons, (askDel_run v idle).2, ih _ (askDel_idle v idle)]

def joined : View := Runs.run next View.empty (hello 0 apMac ++ [StationCoherence.join 0 apMac 400])

theorem joined_idle : Idle joined := by
  constructor <;> decide +kernel

theorem full_round_keeps_layout :
    (issued 0 joined (List.replicate 9999 askDel).flatten).length = 9999 ∧
      KeepsLayout (issued 0 joined (List.replicate 9999 askDel).flatten) := by
  have count := askDel_issues 9999 joined joined_idle
  exact ⟨count, (command_ids_keep_layout 0 (List.replicate 9999 askDel).flatten joined
    (by decide +kernel)
    (by decide +kernel)).1.mpr (by rw [count]; decide)⟩

theorem ten_thousandth_id_misframed :
    ¬ ∀ (a : Ref) (events : List Event), a < joined.nextAgent → (joined.agents a).currentId = 0 →
      KeepsLayout (issued a joined events) := by
  intro all
  have kept := all 0 (List.replicate 10000 askDel).flatten (by decide +kernel) (by decide +kernel)
  rw [layout_kept_iff 0 _ joined
    (by decide +kernel) (by decide +kernel), askDel_issues 10000 joined joined_idle] at kept
  omega

end LazyAS.CommandIds

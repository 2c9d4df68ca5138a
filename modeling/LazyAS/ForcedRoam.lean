import LazyAS.CommandRuns
import LazyAS.Directory
import LazyAS.HandoffApp

/-! Make before break. A forced roam cuts the old agent after the new one has acknowledged the
add command, but roam type 3 decides from the view, which is changed before the new agent
answers. Under which condition no agent is cut before the target is ready. -/
namespace LazyAS.ForcedRoam
open WireText ControllerView Master SendBuffer CommandRuns Directory HandoffApp Runs
open StationCoherence (hello join apMac otherMac staMac)

/-- The controller with its commands under way and the application. -/
structure Roaming where
  dispatch : Dispatch
  app : App

inductive Event where
  | command (event : CommandRuns.Event)
  | handle (msg : ProbeInfoMessage)

structure Call where
  event : Event
  now : Int
  order : Order

/-- Roaming commands come from the application only. -/
def outside : CommandRuns.Event → Bool
  | .op (.addVap _ _) | .op (.delVap (some _) _ _ _) => false
  | _ => true

def serve (st : Roaming) (call : Call) : Roaming :=
  match call.event with
  | .command event =>
      if outside event then
        { st with dispatch := deliver st.dispatch ⟨event, call.now, call.order⟩ } else st
  | .handle msg =>
      let handled := handle st.dispatch.view call.now call.order st.app msg
      ⟨{ st.dispatch with view := handled.1 }, handled.2⟩

def Roaming.start : Roaming := ⟨⟨View.empty, []⟩, {}⟩

/-! The target. -/

def isAdd : CommandType → Bool
  | .addVap | .addVapRoam => true
  | .delVap | .offlineVap => false

/-- An add command for the station and the SSID at an agent with another address. -/
structure Prepares (v : View) (c : Command) (a s : Ref) (ssid : Text) : Prop where
  add : isAdd c.message.msgType = true
  station : c.message.staMacAddr = (v.stations s).macAddress
  ssid : c.message.ssid = ssid
  other : (v.agents c.message.agent).macAddress ≠ (v.agents a).macAddress

/-- The call writes the frame of a forced deletion. -/
def Cuts (st : Roaming) (call : Call) (a s : Ref) (ssid : Text) : Prop :=
  ∃ index roamType, call.event = .command (.write index true) ∧
    st.dispatch.view.tasks[index]? = some (.del (some roamType) a s ssid) ∧
    (serve st call).dispatch.view.sent ≠ st.dispatch.view.sent

/-! The condition. -/

/-- Acknowledged for good: checked without being cancelled, or certain not to be. -/
def Settled (buffer : Text → Option SendMsg) (c : Command) : Prop :=
  c.reply = some .ok ∧ c.cancelled = false ∧
    (c.phase = .checked ∨ c.phase ≠ .written ∧ cancels buffer c.key = false)

def Waiting (c : Command) : Prop := c.phase ≠ .written ∧ c.phase ≠ .checked

/-- The AP has not answered and the check is still to come. -/
def UnderWay (c : Command) : Prop := c.reply = none ∧ c.phase ≠ .checked

/-- The container that a confirmed roam finds at the old agent has the SSID of the command. -/
def FitsOld (v : View) (message : StationCtrlMessage) : Prop :=
  message.msgType = .addVapRoam → ∀ a s vap, v.agentMap message.fromAgentMacAddr = some a →
    v.stationMap.lookup message.staMacAddr = some s →
    stationVap v s a message.ssid = some vap → (v.vaps vap).ssid = message.ssid

/-- Add commands do not fail and keep their keys: an add command is answered with OK, under its own
key and between its storing and its check, and no other command and no other reply hits the key
while it waits. -/
def KeepsTargets (st : Dispatch) (event : CommandRuns.Event) : Prop :=
  match event with
  | .put n =>
      ∀ c (m : Nat) d, st.commands[n]? = some c → st.commands[m]? = some d → m ≠ n →
        isAdd d.message.msgType = true → Waiting d → d.key ≠ c.key
  | .reply n accepted =>
      ∀ c, st.commands[n]? = some c → c.reply = none →
        if isAdd c.message.msgType then
          accepted = true ∧ Waiting c ∧ replyKey st.view c.sc (replyText c true) = some c.key ∧
            FitsOld st.view c.message
        else
          ∀ (m : Nat) d, st.commands[m]? = some d → isAdd d.message.msgType = true → Waiting d →
            replyKey st.view c.sc (replyText c accepted) ≠ some d.key
  | .check n =>
      ∀ c, st.commands[n]? = some c → c.phase = .scheduled → isAdd c.message.msgType = true →
        c.reply ≠ none
  | _ => True

def AddsAt (c : Command) (staMacAddr ssid : Text) (a : Ref) : Prop :=
  isAdd c.message.msgType = true ∧ c.message.staMacAddr = staMacAddr ∧ c.message.ssid = ssid ∧
    c.message.agent = a

/-- Roam type 3 is taken only after an add command to the other agent was written, and while none is
under way. -/
def Careful (st : Roaming) (call : Call) : Prop :=
  match call.event with
  | .command event => KeepsTargets st.dispatch event
  | .handle msg =>
      ∀ probe, CutsCurrent st.dispatch.view call.now st.app msg probe →
        (∃ c ∈ st.dispatch.commands, AddsAt c msg.staMacAddr probe.workingSsid probe.pAgent) ∧
        ∀ c ∈ st.dispatch.commands, AddsAt c msg.staMacAddr probe.workingSsid probe.pAgent →
          ¬ UnderWay c

/-! Settled commands stay settled. -/

def KeepsSettled (st st' : Dispatch) : Prop :=
  ∀ (n : Nat) c, st.commands[n]? = some c → isAdd c.message.msgType = true →
    Settled st.view.sendMsgBuffer c →
    ∃ d, st'.commands[n]? = some d ∧ d.message = c.message ∧ Settled st'.view.sendMsgBuffer d

theorem KeepsSettled.of_buffer {st : Dispatch} {v : View}
    (same : v.sendMsgBuffer = st.view.sendMsgBuffer) :
    KeepsSettled st { st with view := v } :=
  fun _ c found _ settled => ⟨c, found, rfl, same ▸ settled⟩

theorem Settled.waiting {buffer : Text → Option SendMsg} {c : Command} (settled : Settled buffer c)
    (open_ : c.phase ≠ .checked) : Waiting c :=
  ⟨(settled.2.2.resolve_left open_).1, open_⟩

theorem Settled.mono {buffer buffer' : Text → Option SendMsg} {c : Command}
    (settled : Settled buffer c)
    (kept : c.phase ≠ .checked → cancels buffer c.key = false → cancels buffer' c.key = false) :
    Settled buffer' c := by
  obtain ⟨ok, fine, checked | ⟨stored, safe⟩⟩ := settled
  · exact ⟨ok, fine, .inl checked⟩
  · by_cases checked : c.phase = .checked
    · exact ⟨ok, fine, .inl checked⟩
    · exact ⟨ok, fine, .inr ⟨stored, kept checked safe⟩⟩

/-- An add command is unanswered or acknowledged for good, the entry of a forced roam belongs to a
command that waits, and add commands that wait have different keys. -/
structure Targets (buffer : Text → Option SendMsg) (commands : List Command) : Prop where
  adds : ∀ (n : Nat) c, commands[n]? = some c → isAdd c.message.msgType = true →
    UnderWay c ∧ c.cancelled = false ∨ Settled buffer c
  entries : ∀ key entry, buffer key = some entry → entry.msg.msgType = .addVapRoam →
    ∃ (n : Nat) (d : Command), commands[n]? = some d ∧ d.message = entry.msg ∧ d.key = key ∧
      Waiting d
  apart : ∀ (m n : Nat) c d, commands[m]? = some c → commands[n]? = some d →
    isAdd c.message.msgType = true →
    isAdd d.message.msgType = true → Waiting c → Waiting d → c.key = d.key → m = n

theorem Targets.advance {st : Dispatch} (targets : Targets st.view.sendMsgBuffer st.commands)
    {k : Nat} {e : Command} {v : View} {change : Command → Command}
    (taken : st.commands[k]? = some e) (message : (change e).message = e.message)
    (key : (change e).key = e.key) (settled : KeepsSettled st ⟨v, st.commands.modify k change⟩)
    (own : isAdd e.message.msgType = true →
      UnderWay (change e) ∧ (change e).cancelled = false ∨ Settled v.sendMsgBuffer (change e))
    (entries : ∀ id entry, v.sendMsgBuffer id = some entry → entry.msg.msgType = .addVapRoam →
      ((change e).message = entry.msg ∧ (change e).key = id ∧ Waiting (change e)) ∨
      ∃ (n : Nat) (d : Command), n ≠ k ∧ st.commands[n]? = some d ∧ d.message = entry.msg ∧
        d.key = id ∧ Waiting d)
    (waits : Waiting (change e) → Waiting e ∨ ∀ (n : Nat) d, n ≠ k → st.commands[n]? = some d →
      isAdd d.message.msgType = true → Waiting d → d.key ≠ e.key) :
    Targets v.sendMsgBuffer (st.commands.modify k change) where
  adds := by
    intro n c found add
    rcases modify_cases found with ⟨rfl, d, before, rfl⟩ | ⟨other, before⟩
    · cases taken.symm.trans before
      exact own (message ▸ add)
    · rcases targets.adds n c before add with waiting | ready
      · exact .inl waiting
      · obtain ⟨d, listed, -, still⟩ := settled n c before add ready
        cases listed.symm.trans found
        exact .inr still
  entries := by
    intro id entry stored roam
    rcases entries id entry stored roam with ⟨same, named, waiting⟩ |
        ⟨n, d, other, found, same, named, waiting⟩
    · exact ⟨k, change e, by simp [taken], same, named, waiting⟩
    · refine ⟨n, d, ?_, same, named, waiting⟩
      rw [List.getElem?_modify, found]
      simp [Ne.symm other]
  apart := by
    intro m n c d first second addC addD waitsC waitsD same
    rcases modify_cases first with ⟨rfl, c', beforeC, rfl⟩ | ⟨otherC, beforeC⟩ <;>
      rcases modify_cases second with ⟨rfl, d', beforeD, rfl⟩ | ⟨otherD, beforeD⟩
    · rfl
    · cases taken.symm.trans beforeC
      rw [message] at addC
      rw [key] at same
      rcases waits waitsC with waiting | free
      · exact targets.apart m n e d taken beforeD addC addD waiting waitsD same
      · exact absurd same.symm (free n d otherD beforeD addD waitsD)
    · cases taken.symm.trans beforeD
      rw [message] at addD
      rw [key] at same
      rcases waits waitsD with waiting | free
      · exact targets.apart m n c e beforeC taken addC addD waitsC waiting same
      · exact absurd same (free m c otherC beforeC addC waitsC)
    · exact targets.apart m n c d beforeC beforeD addC addD waitsC waitsD same

theorem Targets.entry {st : Dispatch} (targets : Targets st.view.sendMsgBuffer st.commands)
    {k : Nat} {e : Command} (taken : st.commands[k]? = some e) {id : Text} {entry : SendMsg}
    (stored : st.view.sendMsgBuffer id = some entry) (roam : entry.msg.msgType = .addVapRoam) :
    (e.message = entry.msg ∧ e.key = id ∧ Waiting e) ∨
      ∃ (n : Nat) (d : Command), n ≠ k ∧ st.commands[n]? = some d ∧ d.message = entry.msg ∧
        d.key = id ∧ Waiting d := by
  obtain ⟨n, d, found, same, named, waiting⟩ := targets.entries id entry stored roam
  by_cases here : n = k
  · subst here
    cases taken.symm.trans found
    exact .inl ⟨same, named, waiting⟩
  · exact .inr ⟨n, d, here, found, same, named, waiting⟩

def RoamsAway (v : View) (message : StationCtrlMessage) : Prop :=
  message.msgType = .addVapRoam →
    message.agent < v.nextAgent ∧ (v.agents message.agent).macAddress ≠ message.fromAgentMacAddr

def Ready (st : Dispatch) (a s : Ref) (ssid : Text) : Prop :=
  ∃ (n : Nat) (c : Command), st.commands[n]? = some c ∧ Prepares st.view c a s ssid ∧
    c.message.agent < st.view.nextAgent ∧ Settled st.view.sendMsgBuffer c

def Fine (st : Dispatch) : Task → Prop
  | .add _ _ message => RoamsAway st.view message
  | .del (some _) a s ssid => a < st.view.nextAgent ∧ s < st.view.nextStation ∧ Ready st a s ssid
  | _ => True

structure Prepared (st : Dispatch) : Prop where
  named : Named (names st.view)
  targets : Targets st.view.sendMsgBuffer st.commands
  away : ∀ (n : Nat) c, st.commands[n]? = some c → RoamsAway st.view c.message
  tasks : ∀ task ∈ st.view.tasks, Fine st task

theorem RoamsAway.mono {v w : View} {message : StationCtrlMessage} (away : RoamsAway v message)
    (more : Keeps v w) : RoamsAway w message := by
  intro roam
  obtain ⟨known, different⟩ := away roam
  have same : (w.agents message.agent).macAddress = (v.agents message.agent).macAddress :=
    more.agents message.agent known
  exact ⟨Nat.lt_of_lt_of_le known more.nextAgent, by rwa [same]⟩

theorem Fine.mono {st st' : Dispatch} {task : Task} (fine : Fine st task)
    (more : Keeps st.view st'.view) (settled : KeepsSettled st st') : Fine st' task := by
  cases task with
  | add b s message => exact RoamsAway.mono fine more
  | del roamType a s ssid =>
      cases roamType with
      | none => trivial
      | some roamType =>
          obtain ⟨agent, station, n, c, found, prepares, known, ready⟩ := fine
          -- the command that justifies the deletion is still there, and nobody was renamed
          obtain ⟨d, listed, same, ready'⟩ := settled n c found prepares.add ready
          have old : (st'.view.agents a).macAddress = (st.view.agents a).macAddress :=
            more.agents a agent
          have target : (st'.view.agents c.message.agent).macAddress =
              (st.view.agents c.message.agent).macAddress := more.agents c.message.agent known
          have sta : (st'.view.stations s).macAddress = (st.view.stations s).macAddress :=
            more.stations s station
          refine ⟨Nat.lt_of_lt_of_le agent more.nextAgent,
            Nat.lt_of_lt_of_le station more.nextStation,
            n, d, listed, ⟨same ▸ prepares.add, ?_, same ▸ prepares.ssid, ?_⟩, ?_, ready'⟩
          · rw [same, sta]
            exact prepares.station
          · rw [same, target, old]
            exact prepares.other
          · rw [same]
            exact Nat.lt_of_lt_of_le known more.nextAgent
  | putSendMsg sendMsgId message => trivial
  | schedule sendMsgId => trivial

theorem fine_of_plain (st : Dispatch) (task : Task) (simple : plain task = true) :
    Fine st task := by
  cases task with
  | add b s message =>
      intro roam
      simp [plain, roam] at simple
  | del roamType a s ssid =>
      cases roamType with
      | none => trivial
      | some roamType => simp [plain] at simple
  | putSendMsg sendMsgId message => trivial
  | schedule sendMsgId => trivial

theorem Prepared.view {st : Dispatch} (prepared : Prepared st) (v : View) (more : Keeps st.view v)
    (buffer : v.sendMsgBuffer = st.view.sendMsgBuffer)
    (tasks : ∀ task ∈ v.tasks, task ∈ st.view.tasks ∨ Fine { st with view := v } task) :
    Prepared { st with view := v } where
  named := Extends.named more prepared.named
  targets := buffer.symm ▸ prepared.targets
  away := fun n c found => (prepared.away n c found).mono more
  tasks := by
    intro task member
    rcases tasks task member with old | new
    · exact (prepared.tasks task old).mono more (.of_buffer buffer)
    · exact new

theorem Prepared.quiet {st : Dispatch} (prepared : Prepared st) {v : View} (more : Keeps st.view v)
    (quiet : Quiet st.view v) : Prepared { st with view := v } := by
  obtain ⟨new, same, simple⟩ := quiet
  have buffer : v.sendMsgBuffer = st.view.sendMsgBuffer := congrArg Prod.fst same
  have queue : v.tasks = st.view.tasks ++ new := congrArg Prod.snd same
  refine prepared.view v more buffer fun task member => ?_
  rw [queue, List.mem_append] at member
  exact member.imp_right fun late => fine_of_plain _ task (simple task late)

theorem Prepared.advance {st : Dispatch} (prepared : Prepared st) {k : Nat} {e : Command} {v : View}
    {change : Command → Command} (taken : st.commands[k]? = some e)
    (message : (change e).message = e.message) (more : Keeps st.view v)
    (targets : Targets v.sendMsgBuffer (st.commands.modify k change))
    (settled : KeepsSettled st ⟨v, st.commands.modify k change⟩)
    (tasks : ∀ task ∈ v.tasks, task ∈ st.view.tasks ∨ Fine ⟨v, st.commands.modify k change⟩ task) :
    Prepared ⟨v, st.commands.modify k change⟩ where
  named := Extends.named more prepared.named
  targets := targets
  away := by
    intro n c found
    rcases modify_cases found with ⟨rfl, d, before, rfl⟩ | ⟨-, before⟩
    · cases taken.symm.trans before
      rw [message]
      exact (prepared.away n e before).mono more
    · exact (prepared.away n c before).mono more
  tasks := by
    intro task member
    rcases tasks task member with old | new
    · exact (prepared.tasks task old).mono more settled
    · exact new

theorem Prepared.outbox {st : Dispatch} (prepared : Prepared st) {v : View} (more : Keeps st.view v)
    (same : outbox v = outbox st.view) : Prepared { st with view := v } :=
  prepared.quiet more (.of_eq same)

theorem Prepared.submitted {st : Dispatch} (prepared : Prepared st) {v : View}
    (more : Keeps st.view v) (task : Task)
    (same : SendBuffer.outbox v = (st.view.sendMsgBuffer, st.view.tasks ++ [task]))
    (fine : Fine st task) : Prepared { st with view := v } := by
  have buffer : v.sendMsgBuffer = st.view.sendMsgBuffer := congrArg Prod.fst same
  have queue : v.tasks = st.view.tasks ++ [task] := congrArg Prod.snd same
  refine prepared.view v more buffer fun other member => ?_
  rw [queue, List.mem_append, List.mem_singleton] at member
  rcases member with old | rfl
  · exact .inl old
  · exact .inr (fine.mono more (.of_buffer buffer))

def settledIn : List Call :=
  (hello 0 apMac ++ hello 1 otherMac ++ [join 0 apMac 400]).map fun event =>
    ⟨.command (.op event.op), event.now, event.order⟩

/-- Agent `a`, on connection `a`, reports a probe, which the application handles. -/
def heard (a : Ref) (rssi : Int) (text : Text) (now : Int) : List Call :=
  [⟨.command (.op (.probeInfo a ("000410703212".toList ++ staMac ++ "03".toList ++ text ++
      "0301003006010".toList))), now, .stored⟩,
    ⟨.handle ⟨staMac, rssi, 6, "010".toList, a⟩, now, .stored⟩]

def commands (now : Int) (events : List CommandRuns.Event) : List Call :=
  events.map fun event => ⟨.command event, now, .stored⟩

/-- Both agents hear the station, and the add command for the second one has been written. -/
def sent (rssi : Int) (text : Text) : List Call :=
  settledIn ++ heard 0 (-60) "-60".toList 500 ++ heard 1 rssi text 600 ++
    commands 700 [.write 0 true, .put 0, .schedule 0]

def forced : List Call := sent (-40) "-40".toList

def better : List Call := sent (-55) "-55".toList

def addCommand (msgType : CommandType) (fromAgentMacAddr : Text) : Command :=
  { sc := 1, msgId := "0001".toList, key := otherMac ++ "0001".toList
    message := { msgType, staMacAddr := staMac, ssid := ['w'], mode := some "010".toList,
                 fromAgentMacAddr, agent := 1 }
    phase := .scheduled }

/-- The second agent is heard better, refuses its add command, and some seconds later is heard
much better. -/
def refused : List Call :=
  better ++ commands 800 [.reply 0 false] ++ heard 1 (-40) "-40".toList 6000

end LazyAS.ForcedRoam

import LazyAS.UplinkThreads

/-! The controller learns of an AP before it hears from it: on every connection the station table
has been emptied and the AP's address and interfaces are written before any report whose sender
checked the status on that connection. -/
namespace LazyAS.UplinkIntroduction
open WireText Runs ApSender UplinkThreads

variable (getApAu : Int → Int) (interfaces : InterfaceAll)

/-! What has been said of a connection. -/

def Emptied (socket : Nat) (history : List Happening) : Prop := .emptied socket ∈ history

def Addressed (socket : Nat) (history : List Happening) : Prop :=
  .unread socket ∈ history ∨ ∃ gate mac, .wrote socket gate (.localMac mac) ∈ history

def Listed (socket : Nat) (history : List Happening) : Prop :=
  ∃ gate, .wrote socket gate (.interfaceNum interfaces) ∈ history

structure Introduced (socket : Nat) (history : List Happening) : Prop where
  emptied : Emptied socket history
  addressed : Addressed socket history
  listed : Listed interfaces socket history

/-- Nothing but introductions is written to a connection before its introduction, except by callers
that had checked the status on an earlier one. -/
def ReportsIntroduced : List Happening → Prop :=
  Each fun before happening => ∀ socket gate message, happening = .wrote socket gate message →
    Opening message ∨ gate < socket ∨ Introduced interfaces socket before

variable {interfaces}

theorem Addressed.more {socket : Nat} {history : List Happening}
    (addressed : Addressed socket history) (later : List Happening) :
    Addressed socket (history ++ later) := by
  rcases addressed with unread | ⟨gate, mac, written⟩
  · exact .inl (List.mem_append_left _ unread)
  · exact .inr ⟨gate, mac, List.mem_append_left _ written⟩

theorem Introduced.more {socket : Nat} {history : List Happening}
    (introduced : Introduced interfaces socket history) (later : List Happening) :
    Introduced interfaces socket (history ++ later) := by
  obtain ⟨emptied, addressed, gate, written⟩ := introduced
  exact ⟨List.mem_append_left _ emptied, addressed.more later, gate, List.mem_append_left _ written⟩

/-! What the threads keep. -/

def making : FlowStage → Bool
  | .connecting | .unmade | .unmadeClose | .reset | .localMac _ | .interfaceNum _ | .enable _ =>
    true
  | _ => false

variable (interfaces) in
def Told (flow : Flow) (socket : Nat) (history : List Happening) : Prop :=
  match flow.stage with
  | .connecting | .unmade | .unmadeClose | .reset => True
  | .localMac _ => Emptied socket history
  | .interfaceNum _ => Emptied socket history ∧ (flow.call = none → Addressed socket history)
  | .enable _ => Emptied socket history ∧ Addressed socket history ∧
      (flow.call = none → Listed interfaces socket history)
  | _ => Introduced interfaces socket history

variable (interfaces) in
def Speaking (flow : Flow) : Prop :=
  ∀ call, flow.call = some call → match flow.stage with
    | .interfaceNum _ => ∃ mac, call.message = .localMac mac
    | .enable _ => call.message = .interfaceNum interfaces
    | .localMac _ | .connecting | .unmade | .unmadeClose | .reset => False
    | _ => True

variable (interfaces) in
structure Introduces (shared : Shared) (flow : Flow) (calls : Call → Prop) : Prop where
  closed : making flow.stage ∨ flow.stage = .connect → shared.sender.enabled = false
  told : shared.connected → Told interfaces flow shared.socket shared.history
  speaking : Speaking interfaces flow
  gates : ∀ call, calls call → call.gate ≤ shared.socket
  fresh : ∀ call, calls call → call.gate = shared.socket → Opening call.message ∨
    making flow.stage = false ∧
      (shared.connected → Introduced interfaces shared.socket shared.history)
  logged : ReportsIntroduced interfaces shared.history

theorem Told.more {flow : Flow} {socket : Nat} {history : List Happening}
    (told : Told interfaces flow socket history) (later : List Happening) :
    Told interfaces flow socket (history ++ later) := by
  obtain ⟨stage, call⟩ := flow
  cases stage with
  | localMac first => exact List.mem_append_left later told
  | interfaceNum first =>
      exact ⟨List.mem_append_left later told.1, fun done => (told.2 done).more later⟩
  | enable first =>
      refine ⟨List.mem_append_left later told.1, told.2.1.more later, fun done => ?_⟩
      obtain ⟨gate, written⟩ := told.2.2 done
      exact ⟨gate, List.mem_append_left later written⟩
  | connecting => trivial
  | unmade => trivial
  | unmadeClose => trivial
  | reset => trivial
  | _ => exact Introduced.more told later

theorem told_introduced {flow : Flow} {socket : Nat} {history : List Happening}
    (made : making flow.stage = false) (told : Told interfaces flow socket history) :
    Introduced interfaces socket history := by
  obtain ⟨stage, call⟩ := flow
  cases stage with
  | check | connect | look | report | beat | giveUp | giveUpClose => exact told
  | _ => exact absurd made (by simp [making])

theorem stays_off {before after : Bool} (enabled : after = true → before = true)
    (off : before = false) :
    after = false := by
  by_contra on
  rw [Bool.not_eq_false] at on
  exact absurd ((enabled on).symm.trans off) (by decide)

theorem Introduces.step {shared next : Shared} {flow flow' : Flow} {calls calls' : Call → Prop}
    (kept : Introduces interfaces shared flow calls) (later : List Happening)
    (history : next.history = shared.history ++ later) (socket : next.socket = shared.socket)
    (connected : next.connected = true → shared.connected = true)
    (enabled : next.sender.enabled = true → shared.sender.enabled = true)
    (logged : ReportsIntroduced interfaces next.history)
    (stage : making flow'.stage = making flow.stage)
    (connects : flow'.stage = .connect → next.sender.enabled = false)
    (told : next.connected → Told interfaces flow' next.socket next.history)
    (speaking : Speaking interfaces flow')
    (held : ∀ call, calls' call →
      (∃ earlier, calls earlier ∧ call.message = earlier.message ∧ call.gate = earlier.gate) ∨
      ∃ message, enter shared message = some call) : Introduces interfaces next flow' calls' := by
  -- a step that makes no socket, connects none and enables nothing, wherever the threads then stand
  constructor
  case closed =>
    rintro (made | connecting)
    · exact stays_off enabled (kept.closed (.inl (stage ▸ made)))
    · exact connects connecting
  case told => exact told
  case speaking => exact speaking
  case logged => exact logged
  case gates =>
    intro call mine
    rw [socket]
    rcases held call mine with ⟨earlier, theirs, -, gate⟩ | ⟨message, entered⟩
    · rw [gate]
      exact kept.gates earlier theirs
    · rw [(enter_call entered).1]
  case fresh =>
    intro call mine current
    rw [socket] at current
    rw [stage, socket, history]
    rcases held call mine with ⟨earlier, theirs, message, gate⟩ | ⟨message, entered⟩
    · rcases kept.fresh earlier theirs (gate ▸ current) with opening | ⟨made, introduced⟩
      · exact .inl (message ▸ opening)
      · exact .inr ⟨made, fun up => (introduced (connected up)).more later⟩
    · obtain ⟨rfl, opening⟩ := enter_call entered
      by_cases on : shared.sender.enabled
      · have made : making flow.stage = false := by
          by_contra wrong
          rw [Bool.not_eq_false] at wrong
          exact absurd (on.symm.trans (kept.closed (.inl wrong))) (by decide)
        exact .inr ⟨made, fun up => (told_introduced made (kept.told (connected up))).more later⟩
      · exact .inl (opening (by simpa using on))

theorem Introduces.advance {shared next : Shared} {flow flow' : Flow} {calls calls' : Call → Prop}
    {call : Call} {after : Option Call} (kept : Introduces interfaces shared flow calls)
    (mine : calls call) (advances : Advances shared call next after)
    (stage : flow'.stage = flow.stage)
    (told : next.connected → Told interfaces flow' next.socket next.history)
    (speaking : Speaking interfaces flow')
    (held : ∀ other, calls' other → calls other ∨ after = some other) :
    Introduces interfaces next flow' calls' := by
  -- one step of any thread's call, the statistics thread standing where it stands
  have logged : ∃ later, next.history = shared.history ++ later ∧
      ReportsIntroduced interfaces next.history := by
    rcases advances.history with same | ⟨-, cseq, same⟩ | ⟨up, -, same⟩
    · refine ⟨[], by rw [same, List.append_nil], same ▸ kept.logged⟩
    · refine ⟨_, same, same ▸ kept.logged.concat _ ?_⟩
      intro socket gate message wrong
      exact absurd wrong (by simp)
    · refine ⟨_, same, same ▸ kept.logged.concat _ ?_⟩
      intro socket gate message written
      obtain ⟨rfl, rfl, rfl⟩ := Happening.wrote.inj written
      by_cases current : call.gate = shared.socket
      · rcases kept.fresh call mine current with opening | ⟨-, introduced⟩
        · exact .inl opening
        · exact .inr (.inr (introduced up))
      · exact .inr (.inl (lt_of_le_of_ne (kept.gates call mine) current))
  obtain ⟨later, history, reports⟩ := logged
  refine kept.step later history advances.socket advances.connected advances.enabled reports
    (by rw [stage]) ?_ told
    speaking ?_
  · intro connecting
    have disabled := kept.closed (.inr (stage ▸ connecting))
    by_contra on
    rw [Bool.not_eq_false] at on
    exact absurd ((advances.enabled on).symm.trans disabled) (by decide)
  · intro other others
    rcases held other others with theirs | same
    · exact .inl ⟨other, theirs, rfl, rfl⟩
    · exact .inl ⟨call, mine, advances.kept other same⟩

theorem told_advance {shared : Shared} {flow : Flow} {call : Call} (mine : flow.call = some call)
    (written : Bool) (told : shared.connected → Told interfaces flow shared.socket shared.history)
    (speaking : Speaking interfaces flow)
    (up : (advance getApAu shared call written).1.connected = true) :
    Told interfaces ⟨flow.stage, (advance getApAu shared call written).2⟩
      (advance getApAu shared call written).1.socket
        (advance getApAu shared call written).1.history := by
  -- what a step of its own call leaves told
  have advances := advance_advances getApAu shared call written
  have before := told (advances.connected up)
  have grown : ∃ later, (advance getApAu shared call written).1.history = shared.history ++
      later := by
    rcases advances.history with same | ⟨-, cseq, same⟩ | ⟨-, -, same⟩
    · exact ⟨[], by rw [same, List.append_nil]⟩
    · exact ⟨_, same⟩
    · exact ⟨_, same⟩
  obtain ⟨later, history⟩ := grown
  have said := before.more later
  rw [← history, ← advances.socket] at said
  have named := speaking call mine
  obtain ⟨stage, held⟩ := flow
  cases stage with
  | interfaceNum first =>
      refine ⟨said.1, fun done => ?_⟩
      obtain ⟨mac, message⟩ := named
      have last := advance_done getApAu shared call written
          (fun sender => ⟨_, by rw [message]; rfl⟩) done up
      refine .inr ⟨call.gate, mac, ?_⟩
      rw [last, message, advances.socket]
      exact List.mem_append_right _ List.mem_cons_self
  | enable first =>
      refine ⟨said.1, said.2.1, fun done => ?_⟩
      have message : call.message = .interfaceNum interfaces := named
      have last := advance_done getApAu shared call written
          (fun sender => ⟨_, by rw [message]; rfl⟩) done up
      refine ⟨call.gate, ?_⟩
      rw [last, message, advances.socket]
      exact List.mem_append_right _ List.mem_cons_self
  | _ => exact said

def Calls (uplink : Uplink) (call : Call) : Prop :=
  uplink.flow.call = some call ∨ uplink.receiver.call = some call ∨
    ∃ n, uplink.reporters n = some call

variable (interfaces) in
def Kept (uplink : Uplink) : Prop := Introduces interfaces uplink.shared uplink.flow (Calls uplink)

theorem kept_init (connects : Bool) : Kept interfaces (fniiRoamInit connects) := by
  constructor
  case told =>
    intro up
    cases connects with
    | false => exact absurd up (by simp [fniiRoamInit])
    | true => exact List.mem_cons_self
  case speaking =>
    intro call wrong
    exact absurd wrong (by simp [fniiRoamInit])
  case logged =>
    rintro before - after same socket gate message rfl
    exfalso
    have listed : Happening.wrote socket gate message ∈ (fniiRoamInit connects).shared.history := by
      rw [same]
      exact List.mem_append_right _ List.mem_cons_self
    cases connects <;> simp [fniiRoamInit] at listed
  case closed => exact fun _ => rfl
  all_goals simp [Calls, fniiRoamInit]

theorem ReportsIntroduced.quiet {history : List Happening}
    (logged : ReportsIntroduced interfaces history) (latest : Option Happening)
    (silent : ∀ socket gate message, latest ≠ some (.wrote socket gate message)) :
    ReportsIntroduced interfaces (history ++ latest.toList) := by
  cases latest with
  | none =>
      rw [Option.toList_none, List.append_nil]
      exact logged
  | some happening =>
      apply logged.concat
      intro socket gate message same
      exact absurd (congrArg some same) (silent socket gate message)

theorem Introduces.quiet {shared next : Shared} {flow : Flow} {calls calls' : Call → Prop}
    (kept : Introduces interfaces shared flow calls) (latest : Option Happening)
    (history : next.history = shared.history ++ latest.toList)
    (socket : next.socket = shared.socket)
    (connected : next.connected = true → shared.connected = true)
    (enabled : next.sender.enabled = true → shared.sender.enabled = true)
    (silent : ∀ socket gate message, latest ≠ some (.wrote socket gate message))
    (held : ∀ call, calls' call → calls call ∨ ∃ message, enter shared message = some call) :
    Introduces interfaces next flow calls' := by
  have logged := history ▸ kept.logged.quiet latest silent
  refine kept.step latest.toList history socket connected enabled logged rfl ?_ ?_ kept.speaking ?_
  · exact fun connecting => stays_off enabled (kept.closed (.inr connecting))
  · intro up
    rw [socket, history]
    exact (kept.told (connected up)).more latest.toList
  · intro call mine
    rcases held call mine with theirs | entered
    · exact .inl ⟨call, theirs, rfl, rfl⟩
    · exact .inr entered

theorem Introduces.others {shared : Shared} {flow : Flow} {calls calls' : Call → Prop} {call : Call}
    (kept : Introduces interfaces shared flow calls) (mine : calls call) (written : Bool)
    (held : ∀ other, calls' other → calls other ∨
      (UplinkThreads.advance getApAu shared call written).2 = some other) :
    Introduces interfaces (UplinkThreads.advance getApAu shared call written).1 flow calls' := by
  have advances := advance_advances getApAu shared call written
  refine kept.advance mine advances rfl ?_ kept.speaking held
  intro up
  have before := kept.told (advances.connected up)
  rw [advances.socket]
  rcases advances.history with same | ⟨-, cseq, same⟩ | ⟨-, -, same⟩
  · exact same ▸ before
  · exact same ▸ before.more _
  · exact same ▸ before.more _

theorem kept_receiver (uplink : Uplink) (input : ReceiverInput) (kept : Kept interfaces uplink) :
    Kept interfaces (step getApAu interfaces uplink (.receiver input)) := by
  obtain ⟨shared, flow, ⟨stage, held⟩, reporters⟩ := uplink
  have others (receiver : Receiver) {call : Call}
      (called : Calls ⟨shared, flow, receiver, reporters⟩ call) :
      Calls ⟨shared, flow, ⟨stage, held⟩, reporters⟩ call ∨ receiver.call = some call := by
    rcases called with flows | mine | reports
    · exact .inl (.inl flows)
    · exact .inr mine
    · exact .inl (.inr (.inr reports))
  cases held with
  | some call =>
      exact Introduces.others getApAu kept (.inr (.inl rfl)) input.written fun other called =>
        others _ called
  | none =>
      -- what the step notes, and that it starts no call
      have plain {next : Shared} (at' : ReceiverStage) (latest : Option Happening)
          (history : next.history = shared.history ++ latest.toList)
          (socket : next.socket = shared.socket)
          (connected : next.connected = true → shared.connected = true)
          (enabled : next.sender.enabled = true → shared.sender.enabled = true)
          (silent : ∀ socket gate message, latest ≠ some (.wrote socket gate message)) :
          Kept interfaces ⟨next, flow, ⟨at', none⟩, reporters⟩ := by
        refine Introduces.quiet kept latest history socket connected enabled silent fun call
          called => ?_
        rcases others ⟨at', none⟩ called with earlier | wrong
        · exact .inl earlier
        · exact absurd wrong (by simp)
      have stays (at' : ReceiverStage) : Kept interfaces ⟨shared, flow, ⟨at', none⟩, reporters⟩ :=
        plain at' none (List.append_nil _).symm rfl id id (by simp)
      cases stage with
      | check => exact stays _
      | recv =>
          obtain ⟨frames, result, written⟩ := input
          cases frames with
          | none => exact stays _
          | some frames => exact stays _
      | parse frames =>
          cases frames with
          | nil => exact stays _
          | cons frame rest =>
              simp only [UplinkThreads.step, receiverStep]
              split
              · exact plain _ (some (.received frame)) rfl rfl id id (by simp)
              · exact plain _ (some (.received frame)) rfl rfl id id (by simp)
      | accept frame beats rest =>
          exact plain _ (some (.accepted frame beats)) rfl rfl id id (by simp)
      | reply frame ok rest =>
          refine Introduces.quiet kept none (List.append_nil _).symm rfl id id (by simp) fun call
            called => ?_
          rcases others _ called with earlier | entered
          · exact .inl earlier
          · exact .inr ⟨_, entered⟩
      | recheck => exact stays _
      | giveUp => exact plain _ none (List.append_nil _).symm rfl id (by simp [setStatus]) (by simp)
      | giveUpClose =>
          exact plain _ none (List.append_nil _).symm rfl (by simp [hangUp]) id (by simp)

theorem kept_reporter (uplink : Uplink) (n : Nat) (report : Report) (written : Bool)
    (kept : Kept interfaces uplink) :
    Kept interfaces (step getApAu interfaces uplink (.reporter n report written)) := by
  have others {shared : Shared} {call : Option Call} {other : Call}
      (called : Calls { uplink with
        shared := shared
        reporters := Function.update uplink.reporters n call } other) : Calls uplink other ∨
            call = some other := by
    rcases called with flows | mine | ⟨place, reports⟩
    · exact .inl (.inl flows)
    · exact .inl (.inr (.inl mine))
    · rcases eq_or_ne place n with rfl | apart
      · exact .inr ((Function.update_self place call uplink.reporters).symm.trans reports)
      · exact .inl (.inr (.inr ⟨place,
          (Function.update_of_ne apart call uplink.reporters).symm.trans reports⟩))
  simp only [UplinkThreads.step]
  cases held : uplink.reporters n with
  | some call =>
      exact Introduces.others getApAu kept (.inr (.inr ⟨n, held⟩)) written fun other called =>
        others called
  | none =>
      refine Introduces.quiet kept none (List.append_nil _).symm rfl id id (by simp) fun call
        called => ?_
      rcases others called with earlier | entered
      · exact .inl earlier
      · exact .inr ⟨_, entered⟩

theorem flow_others {shared next : Shared} {stage : FlowStage} {held : Option Call} {flow : Flow}
    {receiver : Receiver} {reporters : Nat → Option Call} {call : Call}
    (called : Calls ⟨next, flow, receiver, reporters⟩ call) :
    Calls ⟨shared, ⟨stage, held⟩, receiver, reporters⟩ call ∨ flow.call = some call := by
  rcases called with mine | theirs
  · exact .inr mine
  · exact .inl (.inr theirs)

section Idle
variable {shared next : Shared} {stage : FlowStage} {receiver : Receiver}
    {reporters : Nat → Option Call}

theorem Kept.goes (kept : Kept interfaces ⟨shared, ⟨stage, none⟩, receiver, reporters⟩)
    (at' : FlowStage) (latest : Option Happening)
    (history : next.history = shared.history ++ latest.toList)
    (socket : next.socket = shared.socket)
    (connected : next.connected = true → shared.connected = true)
    (enabled : next.sender.enabled = true → shared.sender.enabled = true)
    (silent : ∀ socket gate message, latest ≠ some (.wrote socket gate message))
    (same : making at' = making stage) (connects : at' = .connect → next.sender.enabled = false)
    (told : next.connected → Told interfaces ⟨at', none⟩ next.socket next.history) :
    Kept interfaces ⟨next, ⟨at', none⟩, receiver, reporters⟩ := by
  have logged := history ▸ kept.logged.quiet latest silent
  refine Introduces.step kept latest.toList history socket connected enabled logged same
    connects told ?_
    fun call called => ?_
  · intro call wrong
    exact absurd wrong (by simp)
  · rcases flow_others called with earlier | wrong
    · exact .inl ⟨call, earlier, rfl, rfl⟩
    · exact absurd wrong (by simp)

theorem Kept.stays (kept : Kept interfaces ⟨shared, ⟨stage, none⟩, receiver, reporters⟩)
    (at' : FlowStage) (same : making at' = making stage) (connects : at' ≠ .connect)
    (told : shared.connected → Told interfaces ⟨at', none⟩ shared.socket shared.history) :
    Kept interfaces ⟨shared, ⟨at', none⟩, receiver, reporters⟩ :=
  kept.goes at' none (List.append_nil _).symm rfl id id (by simp) same
    (fun wrong => absurd wrong connects) told

theorem Kept.calls (kept : Kept interfaces ⟨shared, ⟨stage, none⟩, receiver, reporters⟩)
    (at' : FlowStage) (message : Message) (same : making at' = making stage)
    (connects : at' ≠ .connect)
    (told : shared.connected →
      Told interfaces ⟨at', enter shared message⟩ shared.socket shared.history)
    (speaking : Speaking interfaces ⟨at', enter shared message⟩) :
    Kept interfaces ⟨shared, ⟨at', enter shared message⟩, receiver, reporters⟩ := by
  refine Introduces.step kept [] (List.append_nil _).symm rfl id id kept.logged same
    (fun wrong => absurd wrong connects) told speaking fun call called => ?_
  rcases flow_others called with earlier | entered
  · exact .inl ⟨call, earlier, rfl, rfl⟩
  · exact .inr ⟨message, entered⟩

theorem Kept.connect (kept : Kept interfaces ⟨shared, ⟨.connect, none⟩, receiver, reporters⟩) :
    Kept interfaces ⟨{ shared with socket := shared.socket + 1, connected := false },
      ⟨.connecting, none⟩, receiver,
      reporters⟩ := by
  have older (call : Call) (called :
      Calls ⟨{ shared with socket := shared.socket + 1, connected := false },
      ⟨.connecting, none⟩, receiver, reporters⟩ call) : call.gate ≤ shared.socket := by
    rcases flow_others called with earlier | wrong
    · exact kept.gates call earlier
    · exact absurd wrong (by simp)
  constructor
  case closed => exact fun _ => kept.closed (.inr rfl)
  case told => exact fun wrong => absurd wrong (by simp)
  case speaking =>
    intro call wrong
    exact absurd wrong (by simp)
  case gates => exact fun call called => Nat.le_succ_of_le (older call called)
  case fresh =>
    intro call called current
    have earlier := older call called
    dsimp only at current
    omega
  case logged => exact kept.logged

theorem Kept.opens (kept : Kept interfaces ⟨shared, ⟨.connecting, none⟩, receiver, reporters⟩) :
    Kept interfaces ⟨{ shared with
      sender := { shared.sender with beatLive := true }
      connected := true }.note (.opened shared.socket), ⟨.reset, none⟩, receiver, reporters⟩ := by
  have earlier (call : Call) (called : Calls ⟨{ shared with
      sender := { shared.sender with beatLive := true }
      connected := true }.note (.opened shared.socket), ⟨.reset, none⟩, receiver, reporters⟩ call) :
      Calls ⟨shared, ⟨.connecting, none⟩, receiver, reporters⟩ call := by
    rcases flow_others called with earlier | wrong
    · exact earlier
    · exact absurd wrong (by simp)
  constructor
  case closed => exact fun _ => kept.closed (.inl rfl)
  case told => exact fun _ => trivial
  case speaking =>
    intro call wrong
    exact absurd wrong (by simp)
  case gates => exact fun call called => kept.gates call (earlier call called)
  case fresh =>
    intro call called current
    rcases kept.fresh call (earlier call called) current with opening | ⟨wrong, -⟩
    · exact .inl opening
    · exact absurd wrong (by simp [making])
  case logged =>
    apply kept.logged.concat
    intro socket gate message wrong
    exact absurd wrong (by simp)

theorem Kept.made (kept : Kept interfaces ⟨shared, ⟨stage, none⟩, receiver, reporters⟩)
    (at' : FlowStage) (before : making stage = true) (after : making at' = false)
    (connects : at' ≠ .connect) (socket : next.socket = shared.socket)
    (history : next.history = shared.history)
    (introduced : next.connected → Introduced interfaces shared.socket shared.history)
    (told : Introduced interfaces shared.socket shared.history →
      Told interfaces ⟨at', none⟩ shared.socket shared.history) :
    Kept interfaces ⟨next, ⟨at', none⟩, receiver, reporters⟩ := by
  -- the introduction is over, or there is no connection to introduce
  have earlier (call : Call) (called : Calls ⟨next, ⟨at', none⟩, receiver, reporters⟩ call) :
      Calls ⟨shared, ⟨stage, none⟩, receiver, reporters⟩ call := by
    rcases flow_others called with earlier | wrong
    · exact earlier
    · exact absurd wrong (by simp)
  constructor
  case closed =>
    rintro (wrong | wrong)
    · exact absurd (wrong.symm.trans after) (by decide)
    · exact absurd wrong connects
  case told =>
    intro up
    rw [socket, history]
    exact told (introduced up)
  case speaking =>
    intro call wrong
    exact absurd wrong (by simp)
  case gates =>
    intro call called
    rw [socket]
    exact kept.gates call (earlier call called)
  case fresh =>
    intro call called current
    rw [socket] at current
    rcases kept.fresh call (earlier call called) current with opening | ⟨wrong, -⟩
    · exact .inl opening
    · exact absurd (wrong.symm.trans before) (by decide)
  case logged => exact history ▸ kept.logged

end Idle

theorem kept_flow (uplink : Uplink) (input : FlowInput) (kept : Kept interfaces uplink) :
    Kept interfaces (step getApAu interfaces uplink (.flow input)) := by
  obtain ⟨shared, ⟨stage, held⟩, receiver, reporters⟩ := uplink
  obtain ⟨mac, connects, station, written⟩ := input
  cases held with
  | some call =>
      have advances := advance_advances getApAu shared call written
      refine Introduces.advance kept (.inl rfl) advances rfl
        (told_advance getApAu rfl written kept.told kept.speaking) ?_ fun other called =>
          flow_others called
      intro later same
      rw [show later.message = call.message from (advances.kept later same).1]
      exact kept.speaking call rfl
  | none =>
      cases stage with
      | localMac first =>
          cases mac with
          | none =>
              refine kept.goes _ (some (.unread shared.socket)) rfl rfl id id (by simp) rfl
                (by simp) fun up => ?_
              refine ⟨List.mem_append_left _ (kept.told up), fun _ => .inl ?_⟩
              exact List.mem_append_right _ List.mem_cons_self
          | some mac =>
              have begins := enter_opening shared (.localMac mac) (.inl rfl) rfl
              refine kept.calls _ (.localMac mac) rfl (by simp)
                (fun up => ⟨kept.told up, fun wrong => ?_⟩) ?_
              · exact absurd (begins.symm.trans wrong) (by simp)
              · intro call entered
                obtain rfl := (enter_call (show enter shared (.localMac mac) =
                    some call from entered)).1
                exact ⟨mac, rfl⟩
      | interfaceNum first =>
          have begins := enter_opening shared (.interfaceNum interfaces) (.inr (.inr rfl)) rfl
          refine kept.calls _ (.interfaceNum interfaces) rfl (by simp) (fun up => ?_) ?_
          · have told := kept.told up
            exact ⟨told.1, told.2 rfl, fun wrong => absurd (begins.symm.trans wrong) (by simp)⟩
          · intro call entered
            obtain rfl := (enter_call (show enter shared (.interfaceNum interfaces) =
                some call from entered)).1
            rfl
      | enable first =>
          have introduced (up : shared.connected) :
              Introduced interfaces shared.socket shared.history := by
            have told := kept.told up
            exact ⟨told.1, told.2.1, told.2.2 rfl⟩
          cases first with
          | true => exact kept.made .check rfl rfl (by simp) rfl rfl introduced id
          | false => exact kept.made .look rfl rfl (by simp) rfl rfl introduced id
      | check =>
          by_cases on : shared.sender.enabled
          · have shape : step getApAu interfaces ⟨shared, ⟨.check, none⟩, receiver, reporters⟩
                (.flow ⟨mac, connects, station, written⟩) =
                    ⟨shared, ⟨.look, none⟩, receiver, reporters⟩ := by
              simp [UplinkThreads.step, flowStep, on]
            rw [shape]
            exact kept.stays _ rfl (by simp) kept.told
          · have shape : step getApAu interfaces ⟨shared, ⟨.check, none⟩, receiver, reporters⟩
                (.flow ⟨mac, connects, station, written⟩) =
                    ⟨shared, ⟨.connect, none⟩, receiver, reporters⟩ := by
              simp [UplinkThreads.step, flowStep, on]
            rw [shape]
            exact kept.goes .connect none (List.append_nil _).symm rfl id id (by simp) rfl
              (fun _ => by simpa using on) kept.told
      | connect => exact kept.connect
      | connecting =>
          cases connects with
          | true => exact kept.opens
          | false => exact kept.stays .unmade rfl (by simp) fun _ => trivial
      | unmade =>
          exact kept.goes .unmadeClose none (List.append_nil _).symm rfl id (by simp [setStatus])
            (by simp) rfl
            (by simp) fun _ => trivial
      | unmadeClose =>
          exact kept.made .check rfl rfl (by simp) rfl rfl (fun wrong => absurd wrong (by simp)) id
      | reset =>
          refine kept.goes (.localMac false) (some (.emptied shared.socket)) rfl rfl id id
            (by simp) rfl (by simp)
            fun _ => ?_
          exact List.mem_append_right _ List.mem_cons_self
      | look =>
          by_cases live : shared.sender.beatLive
          · have shape : step getApAu interfaces ⟨shared, ⟨.look, none⟩, receiver, reporters⟩
                (.flow ⟨mac, connects, station, written⟩) =
                    ⟨shared, ⟨.report, none⟩, receiver, reporters⟩ := by
              simp [UplinkThreads.step, flowStep, live]
            rw [shape]
            exact kept.stays _ rfl (by simp) kept.told
          · have shape : step getApAu interfaces ⟨shared, ⟨.look, none⟩, receiver, reporters⟩
                (.flow ⟨mac, connects, station, written⟩) =
                  ⟨shared.note .dropped, ⟨.giveUp, none⟩, receiver, reporters⟩ := by
              simp [UplinkThreads.step, flowStep, live]
            rw [shape]
            exact kept.goes .giveUp (some .dropped) rfl rfl id id (by simp) rfl (by simp) fun up =>
              (kept.told up).more _
      | report =>
          cases station with
          | none => exact kept.stays .beat rfl (by simp) kept.told
          | some info =>
              refine kept.calls .report (.flowInfo info) rfl (by simp) kept.told ?_
              exact fun _ _ => trivial
      | beat =>
          refine kept.calls .check .heartBeat rfl (by simp) kept.told ?_
          exact fun _ _ => trivial
      | giveUp =>
          exact kept.goes .giveUpClose none (List.append_nil _).symm rfl id (by simp [setStatus])
            (by simp) rfl
            (by simp) kept.told
      | giveUpClose =>
          exact kept.goes .check none (List.append_nil _).symm rfl (by simp [hangUp]) id
            (by simp) rfl (by simp)
            (by simp [hangUp])

theorem kept_step (uplink : Uplink) (turn : Turn) (kept : Kept interfaces uplink) :
    Kept interfaces (step getApAu interfaces uplink turn) := by
  cases turn with
  | flow input => exact kept_flow getApAu uplink input kept
  | receiver input => exact kept_receiver getApAu uplink input kept
  | reporter n report written => exact kept_reporter getApAu uplink n report written kept

/-- However the threads take their turns and whatever fails: a report is written behind the
introduction of its connection, or by a caller that had checked the status on an earlier one. -/
theorem reports_follow_introduction (connects : Bool) (turns : List Turn) :
    ReportsIntroduced interfaces
      (run (step getApAu interfaces) (fniiRoamInit connects) turns).shared.history :=
  (run_invariant (Kept interfaces) (kept_init connects)
    (fun uplink turn => kept_step getApAu uplink turn) turns).logged

def listed : InterfaceAll := ⟨32, 149, []⟩

def leaves : Report := ⟨.delSta ⟨fun _ => 2, fun _ => 16, []⟩, by decide⟩

-- A caller that was held up behind its check is the one report that can come first.
example : (run (step (fun _ => 50) listed) (fniiRoamInit true)
    (List.replicate 6 (.flow ⟨none, true, none, true⟩) ++ [.reporter 0 leaves true] ++
      List.replicate 12 (.flow ⟨none, true, none, false⟩) ++
      List.replicate 3 (.reporter 0 leaves true))).shared.history =
    [.emptied 1, .opened 1, .unread 1, .wrote 1 1 (.interfaceNum listed), .beat 2, .opened 2,
      .wrote 2 1 leaves.val] := by
  rfl

end LazyAS.UplinkIntroduction

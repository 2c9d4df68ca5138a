import LazyAS.StationCoherence

/-! What becomes of a failed add command. `cancelTask` looks for the station in the station's
set of agents, so taking back an add command never does anything and the new container stays
on both sides, whichever way the command fails. -/
namespace LazyAS.AddRollback
open WireText ControllerView Master VapBindings BindingLaws ViewUpkeep ViewGrowth
  StationCoherence Runs

/-- Both container tables and the idle count are the same in two views. -/
structure SameTables (before after : View) (s a : Ref) : Prop where
  stored : (after.stations s).vapContainerSet = (before.stations s).vapContainerSet
  held : (after.agents a).vapContainerSet = (before.agents a).vapContainerSet
  idle : (after.agents a).staCountIdle = (before.agents a).staCountIdle

/-- The ways an add command fails: the frame cannot be written, or its entry in the send
buffer is not confirmed when its check fires. -/
inductive Fails (v : View) (now : Int) (order : Order) (s : Ref) (message : StationCtrlMessage) :
    View → Prop where
  | write : Fails v now order s message (runTask v now order (.add message.agent s message) false)
  | check (sendMsgId : Text) (status : MsgStatus) (refused : status ≠ .ok)
      (stored : v.sendMsgBuffer sendMsgId = some ⟨message, status⟩) :
      Fails v now order s message (checkSendMsg v now order sendMsgId)

theorem sendCommand_add (v : View) (now : Int) (order : Order) (a : Ref) (frame : Text → Text)
    (message : StationCtrlMessage)
    (add : message.msgType = .addVap ∨ message.msgType = .addVapRoam) :
    sendCommand v now order a frame message false =
      updAgent v a fun agent => { agent with currentId := nextId (v.agents a) } := by
  unfold sendCommand
  simp only [cancelTask_add _ now order message add]
  grind

theorem Fails.sameTables {v after : View} {now : Int} {order : Order} {s : Ref}
    {message : StationCtrlMessage} (fails : Fails v now order s message after)
    (add : message.msgType = .addVap ∨ message.msgType = .addVapRoam) (a : Ref) :
    SameTables v after s a := by
  cases fails with
  | write =>
      rw [runTask, sendCommand_add v now order _ _ message add]
      by_cases same : a = message.agent
      · subst same
        constructor <;> simp [updAgent]
      · constructor <;> simp [updAgent, same]
  | check sendMsgId status refused stored =>
      have same : checkSendMsg v now order sendMsgId = v := by
        rw [checkSendMsg, stored]
        cases status with
        | ok => exact absurd rfl refused
        | err => exact cancelTask_add v now order message add
        | unreply => exact cancelTask_add v now order message add
      rw [same]
      exact ⟨rfl, rfl, rfl⟩

theorem createVap_held (v : View) (now : Int) (s a : Ref) (ssid : Text)
    (absent : agentVap v a s ssid = none) :
    ((createVap v now s a ssid).agents a).vapContainerSet.lookup
      ((v.agents a).macAddress ++ (v.stations s).macAddress ++ ssid) = some v.nextVap := by
  change ((bindings (createVap v now s a ssid)).held a).lookup _ = _
  have free : ((bindings v).create s a ssid).key (bindings v).nextVap ∉
      ((bindings v).create s a ssid).held a := by
    rw [create_key]
    exact AList.lookup_eq_none.mp absent
  rw [bindings_createVap, added, Bindings.hold, if_neg free]
  simp only [Bindings.store, Function.update_self, create_key]
  exact AList.lookup_insert _

/-- No failed add command is taken back: whatever view the accepted command left, as long
as the two tables are untouched until it fails, they still hold the new container. -/
theorem failed_add_never_undone (v w after : View) (now later : Int) (order order' : Order)
    (isRoam : Bool) (message : StationCtrlMessage) (s : Ref)
    (add : message.msgType = .addVap ∨ message.msgType = .addVapRoam)
    (accepted : Accepted v now order isRoam message s)
    (untouched : SameTables (excuteAddVap v now order isRoam message).1 w s message.agent)
    (fails : Fails w later order' s message after) : ¬ SameTables v after s message.agent := by
  intro undone
  have kept := fails.sameTables add message.agent
  have created : (excuteAddVap v now order isRoam message).1 =
      submit (createVap v now s message.agent message.ssid) (.add message.agent s message) := by
    rw [accepted.excuteAddVap_eq]
  have held := createVap_held v now s message.agent message.ssid accepted.absent
  have same : ((createVap v now s message.agent message.ssid).agents
      message.agent).vapContainerSet =
      (v.agents message.agent).vapContainerSet := by
    calc ((createVap v now s message.agent message.ssid).agents message.agent).vapContainerSet
        = ((excuteAddVap v now order isRoam message).1.agents message.agent).vapContainerSet := by
          rw [created]
          rfl
      _ = (w.agents message.agent).vapContainerSet := untouched.held.symm
      _ = (after.agents message.agent).vapContainerSet := kept.held.symm
      _ = (v.agents message.agent).vapContainerSet := undone.held
  rw [same] at held
  exact absurd (accepted.absent.symm.trans held) (by simp)

def probed : View := run next View.empty (hello 0 apMac ++ [probe 0])

def addCommand : StationCtrlMessage :=
  { msgType := .addVap, staMacAddr := staMac, ssid := ['w'], mode := some "010".toList, agent := 0 }

theorem probed_accepts : Accepted probed 400 .stored false addCommand 0 where
  connected := ⟨0, by decide +kernel, by decide +kernel⟩
  known := by decide +kernel
  online := by decide +kernel
  allowed := by decide +kernel
  absent := by decide +kernel

def requested : View := (excuteAddVap probed 400 .stored false addCommand).1

/-- The command is accepted, its frame cannot be written and the container stays. -/
theorem unwritten_add_stays :
    Accepted probed 400 .stored false addCommand 0 ∧
      ¬ SameTables probed (runTask requested 500 .stored (.add 0 0 addCommand) false) 0 0 :=
  ⟨probed_accepts, failed_add_never_undone probed requested _ 400 500 .stored .stored false
    addCommand 0
    (.inl rfl) probed_accepts ⟨rfl, rfl, rfl⟩ .write⟩

theorem failed_add_not_undone :
    ¬ ∀ (events : List Event) (now later : Int) (order order' : Order) (isRoam : Bool)
        (message : StationCtrlMessage) (s : Ref) (w after : View),
      (message.msgType = .addVap ∨ message.msgType = .addVapRoam) →
      Accepted (run next View.empty events) now order isRoam message s →
      SameTables (excuteAddVap (run next View.empty events) now order isRoam message).1 w s
        message.agent →
      (∃ sc, (w.agents message.agent).sc = some sc ∧ (w.sc2AgentMap sc).isSome) →
      agentStatus w message.agent later = .onLine → Fails w later order' s message after →
      SameTables (run next View.empty events) after s message.agent := by
  intro all
  have undone := all (hello 0 apMac ++ [probe 0]) 400 500 .stored .stored false addCommand 0
      requested
    (runTask requested 500 .stored (.add 0 0 addCommand) false) (.inl rfl) probed_accepts
    ⟨rfl, rfl, rfl⟩ ⟨0, by decide +kernel, by decide +kernel⟩ (by decide +kernel) .write
  have held := congrArg (AList.lookup (apMac ++ staMac ++ ['w'])) undone.held
  exact absurd held (by decide +kernel)

end LazyAS.AddRollback

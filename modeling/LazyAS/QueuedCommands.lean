import LazyAS.AgingStrikes

/-! The queue of commands of the access control: for every station and SSID the last 5 GHz command
since the entry was made, or else the last one, which `CmdTask.run` hands over after three seconds.
An exception in the execution of a command ends the task for good. -/
namespace LazyAS.QueuedCommands
open WireText ControllerView Master StationCoherence ViewGround StepEffects StepTouches Runs

/-! One run of the task. -/

section Drain

variable (now : Int) (order : Order)

def due (appCmd : AppCmd) : Prop := now - appCmd.firstHeart > 3 * 1000

instance (appCmd : AppCmd) : Decidable (due now appCmd) := by
  unfold due
  infer_instance

/-- The command that a pass of the loop hands to `excuteAddVap`. -/
def hands (w : View) (key : Text) : Option AppCmd :=
  (w.cmdQueue.lookup key).filter fun appCmd =>
    w.cmdTaskRuns ∧ due now appCmd ∧ (w.stationMap.lookup appCmd.message.staMacAddr).isSome

def pass (w : View) (key : Text) : View := cmdTask w now order key

def cmdTaskRun (v : View) : View := run (pass now order) v (order.arrange v.cmdQueue.keys)

def handedOver (w : View) : List Text → List AppCmd
  | [] => []
  | key :: keys => (hands now w key).toList ++ handedOver (cmdTask w now order key) keys

def Breaks (w : View) (message : StationCtrlMessage) : Prop :=
  ∃ sc s, (w.agents message.agent).sc = some sc ∧ (w.sc2AgentMap sc).isSome ∧
    w.stationMap.lookup message.staMacAddr = some s ∧ agentStatus w message.agent now = .onLine ∧
    checkSsidExist w order false s message.agent message.ssid = none

def Fails (w : View) (key : Text) : Prop :=
  ∃ appCmd, hands now w key = some appCmd ∧ Breaks now order w appCmd.message

variable {now order}

theorem hands_eq_some {w : View} {key : Text} {appCmd : AppCmd} : hands now w key = some appCmd ↔
    w.cmdQueue.lookup key = some appCmd ∧ w.cmdTaskRuns = true ∧ due now appCmd ∧
      (w.stationMap.lookup appCmd.message.staMacAddr).isSome = true := by
  unfold hands
  simp only [Option.filter_eq_some_iff, decide_eq_true_eq]

theorem excuteAddVap_breaks (w : View) (message : StationCtrlMessage) :
    (excuteAddVap w now order false message).2 = false ↔ Breaks now order w message := by
  constructor
  · intro failed
    unfold excuteAddVap at failed
    dsimp only at failed
    split at failed
    · cases failed
    · rename_i sc linked
      split at failed
      · rename_i registered
        split at failed
        · cases failed
        · rename_i s known
          split at failed
          · rename_i online
            split at failed
            · rename_i thrown
              exact ⟨sc, s, linked, registered, known, online, thrown⟩
            · cases failed
            · split at failed <;> cases failed
          · cases failed
      · cases failed
  · rintro ⟨sc, s, linked, registered, known, online, thrown⟩
    unfold excuteAddVap
    simp only [linked, registered, known, online, thrown, if_true]

theorem stationMap_excuteAddVap (w : View) (message : StationCtrlMessage)
    (grounded : GroundedView w) :
    (excuteAddVap w now order false message).1.stationMap = w.stationMap := by
  unfold excuteAddVap
  dsimp only
  split
  · rfl
  · split
    · split
      · rfl
      · split
        · split
          · rfl
          · rfl
          · split
            · rfl
            · simp only [submit, createVap, stationAddVap, updStation, agentAddVap]
              split <;> rfl
        · exact (closeSocket_steady w order _ grounded).stationMap
    · rfl

theorem cmdTask_pass {w : View} {key : Text} (grounded : GroundedView w)
    (runs : w.cmdTaskRuns = true) (fine : ¬ Fails now order w key) :
    (∀ other, (cmdTask w now order key).cmdQueue.lookup other =
      if other = key then (w.cmdQueue.lookup key).filter (fun appCmd => ¬ due now appCmd)
        else w.cmdQueue.lookup other) ∧
      (cmdTask w now order key).cmdTaskRuns = true ∧
        (cmdTask w now order key).stationMap = w.stationMap := by
  -- a pass that does not fail takes a due command out of the queue
  have removed (x : View) (same : x.cmdQueue = w.cmdQueue) (other : Text) :
      (x.cmdQueue.erase key).lookup other = if other = key then none
          else w.cmdQueue.lookup other := by
    rw [same]
    split
    · rename_i here
      rw [here, AList.lookup_erase]
    · rename_i away
      exact AList.lookup_erase_ne away
  unfold cmdTask
  cases waiting : w.cmdQueue.lookup key with
  | none =>
      dsimp only
      refine ⟨fun other => ?_, runs, rfl⟩
      split
      · rename_i here
        rw [here]
        exact waiting
      · rfl
  | some appCmd =>
      dsimp only
      by_cases old : due now appCmd
      · have ready : w.cmdTaskRuns = true ∧ now - appCmd.firstHeart > 3 * 1000 := ⟨runs, old⟩
        have left : (some appCmd).filter (fun appCmd => ¬ due now appCmd) = none := by simp [old]
        rw [if_pos ready, left]
        split
        · rename_i tracked
          have touches := touches_queue (touches_excuteAddVap w now order false appCmd.message)
          have executed : (excuteAddVap w now order false appCmd.message).2 = true := by
            by_contra failed
            rw [Bool.not_eq_true] at failed
            exact fine ⟨appCmd, hands_eq_some.mpr ⟨waiting, runs, old, tracked⟩,
              (excuteAddVap_breaks w _).mp failed⟩
          rw [if_pos executed]
          exact ⟨removed _ touches.1, touches.2.trans runs, stationMap_excuteAddVap w _ grounded⟩
        · exact ⟨removed w rfl, runs, rfl⟩
      · have early : ¬ (w.cmdTaskRuns = true ∧ now - appCmd.firstHeart > 3 * 1000) := fun ready =>
            old ready.2
        have left : (some appCmd).filter (fun appCmd => ¬ due now appCmd) =
            some appCmd := by simp [old]
        rw [if_neg early, left]
        refine ⟨fun other => ?_, runs, rfl⟩
        split
        · rename_i here
          rw [here]
          exact waiting
        · rfl

theorem cmdTask_fails {w : View} {key : Text} (fails : Fails now order w key) :
    (cmdTask w now order key).cmdQueue = w.cmdQueue ∧
      (cmdTask w now order key).cmdTaskRuns = false := by
  obtain ⟨appCmd, handed, breaks⟩ := fails
  obtain ⟨waiting, runs, old, tracked⟩ := hands_eq_some.mp handed
  have failed := (excuteAddVap_breaks w appCmd.message).mpr breaks
  have touches := touches_queue (touches_excuteAddVap w now order false appCmd.message)
  have ready : w.cmdTaskRuns = true ∧ now - appCmd.firstHeart > 3 * 1000 := ⟨runs, old⟩
  unfold cmdTask
  rw [waiting]
  dsimp only
  rw [if_pos ready, if_pos tracked, if_neg (by rw [failed]; decide)]
  exact ⟨touches.1, rfl⟩

theorem cmdTask_stopped {w : View} (key : Text) (stopped : w.cmdTaskRuns = false) :
    cmdTask w now order key = w := by
  unfold cmdTask
  split
  · rfl
  · rw [if_neg fun ready => absurd (stopped.symm.trans ready.1) (by decide)]

theorem pass_grounded {w : View} (key : Text) (grounded : GroundedView w) :
    GroundedView (pass now order w key) :=
  next_grounded w ⟨.cmd key, now, order⟩ grounded

theorem hands_pass {w : View} {key other : Text} (grounded : GroundedView w)
    (runs : w.cmdTaskRuns = true) (fine : ¬ Fails now order w key) (apart : other ≠ key) :
    hands now (pass now order w key) other = hands now w other := by
  obtain ⟨queue, still, stations⟩ := cmdTask_pass grounded runs fine
  have same : (pass now order w key).cmdQueue.lookup other = w.cmdQueue.lookup other := by
    rw [pass, queue, if_neg apart]
  unfold hands
  rw [same]
  simp only [pass, still, stations, runs]

theorem run_fine {w : View} (keys : List Text) (grounded : GroundedView w)
    (runs : w.cmdTaskRuns = true) (distinct : keys.Nodup)
    (fine : Allowed (pass now order) (fun w key => ¬ Fails now order w key) w keys) :
    (∀ other, (run (pass now order) w keys).cmdQueue.lookup other =
      if other ∈ keys then (w.cmdQueue.lookup other).filter (fun appCmd => ¬ due now appCmd)
      else w.cmdQueue.lookup other) ∧
      (run (pass now order) w keys).cmdTaskRuns = true ∧
        handedOver now order w keys = keys.filterMap (hands now w) := by
  induction keys generalizing w with
  | nil => exact ⟨fun _ => rfl, runs, rfl⟩
  | cons key keys ih =>
      obtain ⟨absent, distinct⟩ := List.nodup_cons.mp distinct
      obtain ⟨queue, still, -⟩ := cmdTask_pass grounded runs fine.1
      obtain ⟨rest, ends, handed⟩ := ih (pass_grounded key grounded) still distinct fine.2
      refine ⟨fun other => ?_, ends, ?_⟩
      · refine (rest other).trans ?_
        rw [pass, queue]
        by_cases here : other = key
        · subst here
          rw [if_neg absent, if_pos rfl, if_pos List.mem_cons_self]
        · simp only [here, if_false, List.mem_cons, false_or]
      · have later : keys.filterMap (hands now (pass now order w key)) =
            keys.filterMap (hands now w) := by
          refine List.filterMap_congr fun other member => hands_pass grounded runs fine.1 ?_
          rintro rfl
          exact absent member
        rw [handedOver, show cmdTask w now order key = pass now order w key from rfl, handed, later]
        cases handing : hands now w key with
        | none => rw [List.filterMap_cons_none handing]; rfl
        | some appCmd => rw [List.filterMap_cons_some handing]; rfl

theorem run_stopped {w : View} (keys : List Text) (stopped : w.cmdTaskRuns = false) :
    run (pass now order) w keys = w := by
  induction keys with
  | nil => rfl
  | cons key keys ih =>
      rw [run, List.foldl_cons, pass, cmdTask_stopped key stopped]
      exact ih

theorem run_fails {w : View} (keys : List Text) (grounded : GroundedView w)
    (runs : w.cmdTaskRuns = true)
    (broken : ¬ Allowed (pass now order) (fun w key => ¬ Fails now order w key) w keys) :
    ∃ key appCmd, w.cmdQueue.lookup key = some appCmd ∧ due now appCmd ∧
      (run (pass now order) w keys).cmdQueue.lookup key = some appCmd := by
  -- where a pass fails, its due command is still in the queue at the end
  induction keys generalizing w with
  | nil => exact absurd trivial broken
  | cons key keys ih =>
      by_cases fails : Fails now order w key
      · obtain ⟨kept, stopped⟩ := cmdTask_fails fails
        obtain ⟨appCmd, handed, -⟩ := fails
        obtain ⟨waiting, -, old, -⟩ := hands_eq_some.mp handed
        refine ⟨key, appCmd, waiting, old, ?_⟩
        have rest : run (pass now order) w (key :: keys) = cmdTask w now order key :=
          run_stopped keys stopped
        rw [rest, kept]
        exact waiting
      · obtain ⟨queue, still, -⟩ := cmdTask_pass grounded runs fails
        obtain ⟨other, appCmd, waiting, old, remains⟩ :=
          ih (pass_grounded key grounded) still fun fine => broken ⟨fails, fine⟩
        refine ⟨other, appCmd, ?_, old, remains⟩
        rw [pass, queue] at waiting
        split at waiting
        · rw [Option.filter_eq_some_iff, decide_eq_true_eq] at waiting
          exact absurd old waiting.2
        · exact waiting

end Drain

/-! The law of the queue. -/

inductive Band where
  | low | high
  deriving DecidableEq

def Band.text : Band → Text
  | .low => "010".toList
  | .high => "011".toList

abbrev Mac := { mac : Text // mac.length = 12 }

structure Submission where
  agent : Ref
  band : Band
  time : Int

def command (mac : Mac) (ssid : Text) (sub : Submission) : StationCtrlMessage :=
  { msgType := .addVap, staMacAddr := mac, ssid := ssid, mode := some sub.band.text,
    agent := sub.agent }

def latest (band : Band) (subs : List Submission) : Option Submission :=
  (subs.filter fun sub => sub.band = band).getLast?

/-- The last 5 GHz submission, or else the last 2.4 GHz one. -/
def chosen (subs : List Submission) : Option Submission := (latest .high subs).or (latest .low subs)

/-- What the queue holds after the submissions since the entry was made. -/
def queued (mac : Mac) (ssid : Text) (subs : List Submission) : Option AppCmd := do
  let first ← subs.head?
  let last ← chosen subs
  return ⟨command mac ssid last, first.time⟩

def idle : Op → Bool
  | .cmd _ | .queueVap .. => false
  | _ => true

inductive Call where
  | submit (a : Ref) (mac : Mac) (band : Band) (ssid : Text) (now : Int)
  | drain (now : Int) (order : Order)
  | other (op : { op : Op // idle op = true }) (now : Int) (order : Order)

/-- The view and, for every station and SSID, what was submitted since the entry was made. -/
structure Log where
  view : View
  pending : Mac → Text → List Submission

def waited (now : Int) (subs : List Submission) : Bool :=
  match subs.head? with
  | none => false
  | some first => now - first.time > 3 * 1000

def follow (log : Log) : Call → Log
  | .submit a mac band ssid now =>
      ⟨addVapContainer log.view now .stored false a mac band.text ssid,
        Function.update log.pending mac
          (Function.update (log.pending mac) ssid (log.pending mac ssid ++ [⟨a, band, now⟩]))⟩
  | .drain now order =>
      ⟨cmdTaskRun now order log.view,
        fun mac ssid => if waited now (log.pending mac ssid) then [] else log.pending mac ssid⟩
  | .other op now order => ⟨step log.view now order op, log.pending⟩

def Log.empty : Log := ⟨View.empty, fun _ _ => []⟩

/-- The queue holds what the submissions since then say. -/
def Follows (log : Log) : Prop :=
  ∀ mac ssid, log.view.cmdQueue.lookup (mac.val ++ ssid) = queued mac ssid (log.pending mac ssid)

/-- A call keeps the law, and a drain hands over the due commands of the tracked stations, each
once. -/
def Lawful (log : Log) (call : Call) : Prop :=
  Follows (follow log call) ∧ ∀ now order, call = .drain now order →
    (handedOver now order log.view (order.arrange log.view.cmdQueue.keys)).Nodup ∧
    ∀ appCmd, appCmd ∈ handedOver now order log.view (order.arrange log.view.cmdQueue.keys) ↔
      ∃ mac ssid, queued mac ssid (log.pending mac ssid) = some appCmd ∧ due now appCmd ∧
        (log.view.stationMap.lookup mac.val).isSome

/-- No command that a drain comes to ends it with an exception. -/
def Undisturbed (log : Log) : Call → Prop
  | .drain now order => Allowed (pass now order) (fun w key => ¬ Fails now order w key) log.view
      (order.arrange log.view.cmdQueue.keys)
  | _ => True

/-! Submissions. -/

theorem latest_append (band : Band) (subs : List Submission) (sub : Submission) :
    latest band (subs ++ [sub]) = if sub.band = band then some sub else latest band subs := by
  unfold latest
  rw [List.filter_append]
  by_cases same : sub.band = band
  · rw [if_pos same, List.filter_cons_of_pos (by simpa using same)]
    exact List.getLast?_concat
  · rw [if_neg same, List.filter_cons_of_neg (by simpa using same)]
    simp

theorem latest_band {band : Band} {subs : List Submission} {sub : Submission}
    (found : latest band subs = some sub) :
    sub.band = band := by
  have member := List.mem_of_getLast? found
  simpa using (List.mem_filter.mp member).2

theorem chosen_nonempty {subs : List Submission} (some' : subs ≠ []) :
    ∃ last, chosen subs = some last := by
  obtain ⟨front, sub, rfl⟩ := List.eq_nil_or_concat subs |>.resolve_left some'
  unfold chosen
  rw [List.concat_eq_append, latest_append, latest_append]
  cases here : sub.band with
  | low =>
      simp only [reduceCtorEq, if_true, if_false]
      cases latest .high front with
      | none => exact ⟨sub, rfl⟩
      | some high => exact ⟨high, rfl⟩
  | high => exact ⟨sub, rfl⟩

theorem queued_single (mac : Mac) (ssid : Text) (sub : Submission) :
    queued mac ssid [sub] = some ⟨command mac ssid sub, sub.time⟩ := by
  obtain ⟨a, band, time⟩ := sub
  cases band <;> rfl

theorem queued_cons (mac : Mac) (ssid : Text) (first : Submission) (rest : List Submission) :
    ∃ last, chosen (first :: rest) = some last ∧
      queued mac ssid (first :: rest) = some ⟨command mac ssid last, first.time⟩ := by
  obtain ⟨last, found⟩ := chosen_nonempty (List.cons_ne_nil first rest)
  exact ⟨last, found, by simp [queued, found]⟩

theorem queued_eq_none {mac : Mac} {ssid : Text} {subs : List Submission}
    (none' : queued mac ssid subs = none) :
    subs = [] := by
  cases subs with
  | nil => rfl
  | cons first rest =>
      obtain ⟨last, -, found⟩ := queued_cons mac ssid first rest
      cases none'.symm.trans found

theorem queued_append {mac : Mac} {ssid : Text} {subs : List Submission} {appCmd : AppCmd}
    (held : queued mac ssid subs = some appCmd) (sub : Submission) :
    queued mac ssid (subs ++ [sub]) =
      some (if appCmd.message.mode = some "011".toList ∧ sub.band.text = "010".toList then appCmd
        else ⟨command mac ssid sub, appCmd.firstHeart⟩) := by
  -- a later submission replaces the command, unless it is a 2.4 GHz one after a 5 GHz one
  cases subs with
  | nil => cases held
  | cons first rest =>
      obtain ⟨last, before, found⟩ := queued_cons mac ssid first rest
      cases held.symm.trans found
      have after : chosen (first :: rest ++ [sub]) =
          some (if last.band = .high ∧ sub.band = .low then last else sub) := by
        unfold chosen at before ⊢
        rw [latest_append, latest_append]
        cases here : sub.band with
        | high => simp
        | low =>
            simp only [reduceCtorEq, if_true, if_false, and_true]
            cases high : latest .high (first :: rest) with
            | some sub' =>
                rw [high] at before
                cases before
                rw [if_pos (latest_band high)]
                rfl
            | none =>
                rw [high] at before
                have low := latest_band before
                rw [Option.none_or, if_neg (by rw [low]; decide)]
      have modes : (command mac ssid last).mode = some "011".toList ∧ sub.band.text = "010".toList ↔
          last.band = .high ∧ sub.band = .low := by
        have bands : ∀ one two : Band, some one.text = some "011".toList ∧ two.text = "010".toList ↔
            one = .high ∧ two = .low := by
          intro one two
          cases one <;> cases two <;> decide
        exact bands last.band sub.band
      rw [List.cons_append] at after ⊢
      simp only [queued, List.head?_cons, after, Option.bind_eq_bind, Option.bind_some,
        Option.pure_def, modes]
      split <;> rfl

theorem key_inj {mac mac' : Mac} {ssid ssid' : Text} (same : mac.val ++ ssid = mac'.val ++ ssid') :
    mac = mac' ∧ ssid = ssid' := by
  obtain ⟨address, rest⟩ := List.append_inj same (mac.property.trans mac'.property.symm)
  exact ⟨Subtype.ext address, rest⟩

structure Tidy (log : Log) : Prop where
  grounded : GroundedView log.view
  runs : log.view.cmdTaskRuns = true
  follows : Follows log
  keyed : ∀ key appCmd, log.view.cmdQueue.lookup key = some appCmd →
    ∃ (mac : Mac) (ssid : Text), key = mac.val ++ ssid

theorem submit_queue {log : Log} (follows : Follows log) (a : Ref) (mac : Mac) (band : Band)
    (ssid : Text) (now : Int) (key : Text) :
    (addVapContainer log.view now .stored false a mac.val band.text ssid).cmdQueue.lookup key =
      if key = mac.val ++ ssid then queued mac ssid (log.pending mac ssid ++ [⟨a, band, now⟩])
      else log.view.cmdQueue.lookup key := by
  -- a submission enters what the submissions since the entry was made say
  have entered (appCmd : AppCmd) : (log.view.cmdQueue.insert (mac.val ++ ssid) appCmd).lookup key =
      if key = mac.val ++ ssid then some appCmd else log.view.cmdQueue.lookup key := by
    split
    · rename_i here
      rw [here, AList.lookup_insert]
    · rename_i away
      exact AList.lookup_insert_ne away
  have law := follows mac ssid
  unfold addVapContainer
  simp only [Bool.false_eq_true, if_false]
  cases waiting : log.view.cmdQueue.lookup (mac.val ++ ssid) with
  | none =>
      rw [waiting] at law
      rw [queued_eq_none law.symm, List.nil_append, queued_single]
      exact entered _
  | some appCmd =>
      rw [waiting] at law
      have own : appCmd.message.staMacAddr = mac.val := by
        cases pending : log.pending mac ssid with
        | nil =>
            rw [pending] at law
            cases law
        | cons first rest =>
            obtain ⟨last, -, found⟩ := queued_cons mac ssid first rest
            rw [pending, found] at law
            cases law
            rfl
      rw [queued_append law.symm]
      simp only [own, if_true]
      split
      · split
        · rename_i here
          rw [here]
          exact waiting
        · rfl
      · exact entered _

theorem submit_tidy {log : Log} (tidy : Tidy log) (a : Ref) (mac : Mac) (band : Band) (ssid : Text)
    (now : Int) :
    Tidy (follow log (.submit a mac band ssid now)) := by
  have queue := submit_queue tidy.follows a mac band ssid now
  refine ⟨?_, ?_, fun mac' ssid' => ?_, fun key appCmd found => ?_⟩
  · exact next_grounded log.view ⟨.queueVap a mac.val band.text ssid, now, .stored⟩ tidy.grounded
  · refine Eq.trans ?_ tidy.runs
    change (addVapContainer log.view now .stored false a mac.val band.text ssid).cmdTaskRuns =
      log.view.cmdTaskRuns
    unfold addVapContainer
    simp only [Bool.false_eq_true, if_false]
    split
    · rfl
    · split
      · split <;> rfl
      · rfl
  · refine (queue (mac'.val ++ ssid')).trans ?_
    change _ = queued mac' ssid'
      (Function.update log.pending mac (Function.update (log.pending mac) ssid
      (log.pending mac ssid ++ [⟨a, band, now⟩])) mac' ssid')
    by_cases here : mac' = mac ∧ ssid' = ssid
    · obtain ⟨rfl, rfl⟩ := here
      rw [if_pos rfl, Function.update_self, Function.update_self]
    · rw [if_neg fun same => here (key_inj same), tidy.follows mac' ssid']
      by_cases station : mac' = mac
      · subst station
        rw [Function.update_self, Function.update_of_ne fun same => here ⟨rfl, same⟩]
      · rw [Function.update_of_ne station]
  · rw [show (follow log (.submit a mac band ssid now)).view.cmdQueue.lookup key = _ from queue key]
      at found
    split at found
    · rename_i here
      exact ⟨mac, ssid, here⟩
    · exact tidy.keyed key appCmd found

/-! Drains, and whole runs. -/

theorem idle_queue (v : View) (now : Int) (order : Order) (op : Op) (quiet : idle op = true)
    (grounded : GroundedView v) :
    (step v now order op).cmdQueue = v.cmdQueue ∧
      (step v now order op).cmdTaskRuns = v.cmdTaskRuns := by
  by_cases aging : op = .age
  · subst aging
    exact (AgingStrikes.aged_run v now order).1.queue
  · have calm : plain op = true := by
      cases op <;> first | rfl | exact absurd rfl aging | cases quiet
    exact touches_queue (step_touches v now order op calm grounded)

theorem other_tidy {log : Log} (tidy : Tidy log) (op : { op : Op // idle op = true }) (now : Int)
    (order : Order) :
    Tidy (follow log (.other op now order)) := by
  obtain ⟨queue, runs⟩ := idle_queue log.view now order op op.property tidy.grounded
  have same : (follow log (.other op now order)).view.cmdQueue = log.view.cmdQueue := queue
  refine ⟨next_grounded log.view ⟨op, now, order⟩ tidy.grounded,
    runs.trans tidy.runs, fun mac ssid => ?_, ?_⟩
  · rw [same]
    exact tidy.follows mac ssid
  · intro key appCmd found
    rw [same] at found
    exact tidy.keyed key appCmd found

theorem waited_iff (now : Int) (mac : Mac) (ssid : Text) (subs : List Submission) :
    waited now subs = true ↔ ∃ appCmd, queued mac ssid subs = some appCmd ∧ due now appCmd := by
  cases subs with
  | nil => simp [waited, queued]
  | cons first rest =>
      obtain ⟨last, -, found⟩ := queued_cons mac ssid first rest
      simp [waited, found, due]

theorem queued_drained (now : Int) (mac : Mac) (ssid : Text) (subs : List Submission) :
    (queued mac ssid subs).filter (fun appCmd => ¬ due now appCmd) =
      queued mac ssid (if waited now subs then [] else subs) := by
  by_cases old : waited now subs = true
  · obtain ⟨appCmd, held, late⟩ := (waited_iff now mac ssid subs).mp old
    rw [if_pos old, held]
    simp [late, queued]
  · rw [if_neg old]
    cases held : queued mac ssid subs with
    | none => rfl
    | some appCmd =>
        have early : ¬ due now appCmd := fun late =>
            old ((waited_iff now mac ssid subs).mpr ⟨appCmd, held, late⟩)
        simp [early]

theorem mem_arranged (order : Order) (v : View) (key : Text) :
    key ∈ order.arrange v.cmdQueue.keys ↔ ∃ appCmd, v.cmdQueue.lookup key = some appCmd := by
  rw [(order.perm _).mem_iff, ← AList.mem_keys, ← AList.lookup_isSome, Option.isSome_iff_exists]

theorem queued_named {mac : Mac} {ssid : Text} {subs : List Submission} {appCmd : AppCmd}
    (held : queued mac ssid subs = some appCmd) :
    appCmd.message.staMacAddr = mac.val ∧ appCmd.message.ssid = ssid := by
  cases subs with
  | nil => cases held
  | cons first rest =>
      obtain ⟨last, -, found⟩ := queued_cons mac ssid first rest
      cases held.symm.trans found
      exact ⟨rfl, rfl⟩

theorem drain_fine {log : Log} (tidy : Tidy log) (now : Int) (order : Order)
    (fine : Undisturbed log (.drain now order)) :
    Lawful log (.drain now order) ∧ Tidy (follow log (.drain now order)) := by
  have distinct : (order.arrange log.view.cmdQueue.keys).Nodup :=
    (order.perm _).nodup_iff.mpr log.view.cmdQueue.keys_nodup
  obtain ⟨queue, runs, handed⟩ := run_fine _ tidy.grounded tidy.runs distinct fine
  have after (key : Text) : (cmdTaskRun now order log.view).cmdQueue.lookup key =
      (log.view.cmdQueue.lookup key).filter (fun appCmd => ¬ due now appCmd) := by
    refine (queue key).trans ?_
    split
    · rfl
    · rename_i absent
      have nothing : log.view.cmdQueue.lookup key = none := by
        rw [mem_arranged, ← Option.isSome_iff_exists, Option.not_isSome_iff_eq_none] at absent
        exact absent
      rw [nothing]
      rfl
  have follows : Follows (follow log (.drain now order)) := by
    intro mac ssid
    refine (after (mac.val ++ ssid)).trans ?_
    rw [tidy.follows mac ssid]
    exact queued_drained now mac ssid (log.pending mac ssid)
  -- what a pass hands over is the command queued for a station and an SSID
  have each (key : Text) (appCmd : AppCmd) (hand : hands now log.view key = some appCmd) :
      key = appCmd.message.staMacAddr ++ appCmd.message.ssid ∧ ∃ mac ssid,
        queued mac ssid (log.pending mac ssid) = some appCmd ∧ due now appCmd ∧
          (log.view.stationMap.lookup mac.val).isSome := by
    obtain ⟨waiting, -, late, known⟩ := hands_eq_some.mp hand
    obtain ⟨mac, ssid, rfl⟩ := tidy.keyed key appCmd waiting
    rw [tidy.follows mac ssid] at waiting
    obtain ⟨address, name⟩ := queued_named waiting
    rw [address] at known
    exact ⟨by rw [address, name], mac, ssid, waiting, late, known⟩
  refine ⟨⟨follows, ?_⟩, ?_, runs, follows, ?_⟩
  · rintro _ _ ⟨rfl, rfl⟩
    rw [handed]
    constructor
    · refine List.Nodup.filterMap ?_ distinct
      intro key other appCmd one two
      rw [(each key appCmd one).1, (each other appCmd two).1]
    · intro appCmd
      rw [List.mem_filterMap]
      constructor
      · rintro ⟨key, -, hand⟩
        exact (each key appCmd hand).2
      · rintro ⟨mac, ssid, held, late, known⟩
        have waiting := tidy.follows mac ssid
        rw [held] at waiting
        refine ⟨mac.val ++ ssid, (mem_arranged order log.view _).mpr ⟨appCmd, waiting⟩,
          hands_eq_some.mpr ?_⟩
        rw [(queued_named held).1]
        exact ⟨waiting, tidy.runs, late, known⟩
  · exact run_invariant GroundedView tidy.grounded (fun w key => pass_grounded key) _
  · intro key appCmd found
    rw [show (follow log (.drain now order)).view.cmdQueue.lookup key = _ from after key,
      Option.filter_eq_some_iff] at found
    exact tidy.keyed key appCmd found.1

theorem drain_lawful_iff {log : Log} (tidy : Tidy log) (now : Int) (order : Order) :
    Lawful log (.drain now order) ↔ Undisturbed log (.drain now order) := by
  constructor
  · intro lawful
    by_contra disturbed
    obtain ⟨key, appCmd, waiting, late, remains⟩ := run_fails _ tidy.grounded tidy.runs disturbed
    obtain ⟨mac, ssid, rfl⟩ := tidy.keyed key appCmd waiting
    have held := (tidy.follows mac ssid).symm.trans waiting
    have drained : (if waited now (log.pending mac ssid) then [] else log.pending mac ssid) = [] :=
      if_pos ((waited_iff now mac ssid _).mpr ⟨appCmd, held, late⟩)
    have law := lawful.1 mac ssid
    change _ = queued mac ssid
      (if waited now (log.pending mac ssid) then [] else log.pending mac ssid) at law
    rw [drained] at law
    cases law.symm.trans remains
  · exact fun fine => (drain_fine tidy now order fine).1

theorem tidy_empty : Tidy Log.empty where
  grounded := grounded_empty
  runs := rfl
  follows := fun _ _ => rfl
  keyed := fun _ _ found => by cases found

/-- The queue keeps the law in a run, and the drains hand over and remove what they should, exactly
if no drain comes to a command whose execution throws. -/
theorem queue_lawful_iff (calls : List Call) :
    Allowed follow Lawful Log.empty calls ↔ Allowed follow Undisturbed Log.empty calls := by
  refine allowed_congr Tidy tidy_empty ?_ ?_ calls
  · intro log call tidy
    cases call with
    | submit a mac band ssid now =>
        exact iff_of_true ⟨(submit_tidy tidy a mac band ssid
          now).follows, fun _ _ other => by cases other⟩ trivial
    | drain now order => exact drain_lawful_iff tidy now order
    | other op now order =>
        exact iff_of_true ⟨(other_tidy tidy op now order).follows, fun _ _ other => by cases other⟩
          trivial
  · intro log call tidy fine
    cases call with
    | submit a mac band ssid now => exact submit_tidy tidy a mac band ssid now
    | drain now order => exact (drain_fine tidy now order fine).2
    | other op now order => exact other_tidy tidy op now order

def others (events : List Event) : List Call :=
  events.filterMap fun event =>
    if quiet : idle event.op = true then some (.other ⟨event.op, quiet⟩ event.now event.order)
      else none

def unmoded : List Call :=
  others [⟨.accept, 0, .stored⟩, ⟨.localMac 0 ("000110901412".toList ++ apMac), 100, .stored⟩,
    probe 0] ++
    [.submit 0 ⟨staMac, by decide⟩ .high ['w'] 400]

/-- The drain throws, and the command stays in the queue for good. -/
theorem unmoded_stays : ¬ ∀ calls, Allowed follow Lawful Log.empty calls := by
  intro all
  have lawful := ((allowed_iff Log.empty _).mp (all (unmoded ++ [.drain 4000 .stored]))) unmoded
      _ [] rfl
  have law := lawful.1 ⟨staMac, by decide⟩ ['w']
  have emptied : (follow (run follow Log.empty unmoded) (.drain 4000 .stored)).pending
      ⟨staMac, by decide⟩ ['w'] = [] := by
    decide +kernel
  have waiting : ((follow (run follow Log.empty unmoded) (.drain 4000 .stored)).view.cmdQueue.lookup
      (staMac ++ ['w'])).isSome = true := by decide +kernel
  rw [show AList.lookup (staMac ++ ['w']) _ = _ from law, emptied] at waiting
  cases waiting

end LazyAS.QueuedCommands

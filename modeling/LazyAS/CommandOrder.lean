import LazyAS.CommandRuns

/-! The order in which the frames of one VAP are written. The view operations submit their
tasks to a cached thread pool, which may start pending tasks in any order. Every task gets
a number when it is submitted and every frame the number of the task that wrote it. -/
namespace LazyAS.CommandOrder
open WireText ControllerView Master SendBuffer CommandRuns Runs
open StationCoherence (hello probe apMac staMac)
open AddRollback (addCommand)

structure Vap where
  station : Ref
  agent : Ref
  ssid : Text
  deriving DecidableEq

def taskVap : Task → Option Vap
  | .add a s message => some ⟨s, a, message.ssid⟩
  | .del _ a s ssid => some ⟨s, a, ssid⟩
  | _ => none

/-- A written frame, with its channel and the number of its task. -/
structure Frame where
  number : Nat
  vap : Vap
  frame : Ref × Text
  deriving DecidableEq

/-- The controller with the tasks submitted so far, the numbers of the pending ones and the
frames the tasks have written. -/
structure Journal where
  dispatch : Dispatch
  submitted : List Task
  pending : List Nat
  frames : List Frame

def Journal.tasks (st : Journal) : List Task := st.dispatch.view.tasks

def Journal.start : Journal := ⟨⟨View.empty, []⟩, [], [], []⟩

def journal (st : Journal) (call : Call) : Journal :=
  let after := deliver st.dispatch call
  match call.event with
  | .write index _ =>
      match (st.tasks[index]?).bind taskVap with
      | none => { st with dispatch := after }
      | some vap =>
          let number := st.pending.getD index 0
          let wrote := after.view.sent.drop st.dispatch.view.sent.length
          { st with
            dispatch := after
            pending := st.pending.eraseIdx index
            frames := st.frames ++ wrote.map fun frame => ⟨number, vap, frame⟩ }
  | _ =>
      let new := after.view.tasks.drop st.tasks.length
      { st with
        dispatch := after
        submitted := st.submitted ++ new
        pending := st.pending ++ List.range' st.submitted.length new.length }

/-- No task is started while an earlier one for the same VAP is pending. -/
def InOrder (st : Journal) (call : Call) : Prop :=
  match call.event with
  | .write index _ =>
      ∀ (earlier : Nat) vap, earlier < index → (st.tasks[earlier]?).bind taskVap = some vap →
        (st.tasks[index]?).bind taskVap ≠ some vap
  | _ => True

/-! What the steps do to the executor's queue. -/

def isWrite : Event → Bool
  | .write _ _ => true
  | _ => false

theorem nothing_new {v w : View} (same : w.tasks = v.tasks) : ∃ new, w.tasks = v.tasks ++ new :=
  ⟨[], by simpa using same⟩

theorem direct_tasks (v : View) (now : Int) (order : Order) (op : Op) (free : direct op = true) :
    ∃ new, (step v now order op).tasks = v.tasks ++ new := by
  have added (isRoam : Bool) (message : StationCtrlMessage) :
      ∃ new, (excuteAddVap v now order isRoam message).1.tasks = v.tasks ++ new := by
    rcases excuteAddVap_outbox v now order isRoam message with same | ⟨s, same⟩
    · exact nothing_new (congrArg Prod.snd same)
    · exact ⟨_, congrArg Prod.snd same⟩
  cases quiet : background op with
  | true =>
      obtain ⟨new, same, -⟩ := step_quiet v now order op quiet
      exact ⟨new, congrArg Prod.snd same⟩
  | false =>
      cases op with
      | delVap roamType a s ssid =>
          rcases delVapContainer_outbox v now order roamType a s ssid with same | same
          · exact nothing_new (congrArg Prod.snd same)
          · exact ⟨_, congrArg Prod.snd same⟩
      | addVap isRoam message => exact added isRoam message
      | cmd key =>
          rcases cmdTask_outbox v now order key with same | ⟨appCmd, -, same⟩
          · exact nothing_new (congrArg Prod.snd same)
          · obtain ⟨new, queue⟩ := added false appCmd.message
            exact ⟨new, (congrArg Prod.snd same).trans queue⟩
      | _ => simp_all [background, direct]

theorem deliver_tasks (st : Dispatch) (call : Call) (other : isWrite call.event = false) :
    ∃ new, (deliver st call).view.tasks = st.view.tasks ++ new := by
  -- every step but a write only adds tasks at the end
  obtain ⟨event, now, order⟩ := call
  have acts (n : Nat) (ready : Command → Bool) (work : Command → View) (change : Command → Command)
      (each : ∀ c, ∃ new, (work c).tasks = st.view.tasks ++ new) :
      ∃ new, (act st n ready work change).view.tasks = st.view.tasks ++ new := by
    rcases act_cases st n ready work change with same | ⟨c, -, -, result⟩
    · exact ⟨[], by rw [same]; simp⟩
    · rw [result]
      exact each c
  cases event with
  | op op =>
      simp only [deliver]
      split
      · rename_i free
        exact direct_tasks st.view now order op free
      · exact ⟨[], by simp⟩
  | write index written => cases other
  | put n => exact acts n _ _ _ fun c => ⟨[], by simp [putSendMsg]⟩
  | schedule n => exact acts n _ _ _ fun c => ⟨[], by simp⟩
  | reply n accepted =>
      refine acts n _ _ _ fun c => ?_
      cases accepted with
      | true =>
          obtain ⟨new, same, -⟩ := processMsgOk_outbox st.view now order c.sc (replyText c true)
          exact ⟨new, congrArg Prod.snd same⟩
      | false =>
          have same := processMsgErr_outbox st.view c.sc (replyText c false)
          exact nothing_new (congrArg Prod.snd same)
  | check n =>
      refine acts n _ _ _ fun c => ?_
      rcases checkSendMsg_outbox st.view now order c.key with same | ⟨-, same⟩
      · exact nothing_new (congrArg Prod.snd same)
      · exact nothing_new (congrArg Prod.snd same)

theorem write_skips (st : Dispatch) (now : Int) (order : Order) (index : Nat) (written : Bool)
    (idle : (st.view.tasks[index]?).bind taskVap = none) :
    write st now order index written = st := by
  unfold write
  cases taken : st.view.tasks[index]? with
  | none => rfl
  | some task =>
      cases task with
      | putSendMsg sendMsgId message => rfl
      | schedule sendMsgId => rfl
      | _ => simp [taken, taskVap] at idle

theorem write_takes (st : Dispatch) (now : Int) (order : Order) (index : Nat) (written : Bool)
    (vap : Vap) (asks : (st.view.tasks[index]?).bind taskVap = some vap) :
    (write st now order index written).view.tasks = st.view.tasks.eraseIdx index ∧
      ∃ wrote, wrote.length ≤ 1 ∧
        (write st now order index written).view.sent = st.view.sent ++ wrote := by
  -- a write takes its task out of the queue and writes at most one frame
  have sends (v : View) (a : Ref) (frame : Text → Text) (message : StationCtrlMessage) :
      ∃ wrote : List (Ref × Text), wrote.length ≤ 1 ∧
        (sendCommand v now order a frame message written).sent = v.sent ++ wrote := by
    rcases sendCommand_outcome v now order a frame message written with ⟨-, same⟩ |
        ⟨-, ⟨sc, same⟩, -⟩
    · exact ⟨[], by simp, by simpa using same⟩
    · exact ⟨_, by simp, same⟩
  unfold write
  cases taken : st.view.tasks[index]? with
  | none => simp [taken] at asks
  | some task =>
      cases task with
      | add a s message =>
          dsimp only [taskAgent, runTask]
          exact ⟨rfl, sends _ a _ message⟩
      | del roamType a s ssid =>
          dsimp only [taskAgent, runTask]
          exact ⟨rfl, sends _ a _ _⟩
      | _ => simp [taken, taskVap] at asks

/-! Numbers. -/

def skip (index i : Nat) : Nat := if i < index then i else i + 1

theorem getElem?_erase {α : Type} (items : List α) (index i : Nat) :
    (items.eraseIdx index)[i]? = items[skip index i]? := by
  rw [List.getElem?_eraseIdx, skip]
  split <;> rfl

/-- The queue is in the order of submission, and a frame has the number of its task, which
is no longer pending. -/
structure Numbered (st : Journal) : Prop where
  lengths : st.pending.length = st.tasks.length
  logged : ∀ (i : Nat) n, st.pending[i]? = some n → st.submitted[n]? = st.tasks[i]?
  rising : ∀ (i j : Nat) n m, i < j → st.pending[i]? = some n → st.pending[j]? = some m → n < m
  origin : ∀ frame ∈ st.frames, (st.submitted[frame.number]?).bind taskVap = some frame.vap
  gone : ∀ frame ∈ st.frames, ∀ i : Nat, st.pending[i]? ≠ some frame.number
  once : (st.frames.map Frame.number).Nodup

theorem numbered_start : Numbered .start where
  lengths := rfl
  logged := by simp [Journal.start]
  rising := by simp [Journal.start]
  origin := by simp [Journal.start]
  gone := by simp [Journal.start]
  once := List.nodup_nil

theorem Numbered.bound {st : Journal} (numbered : Numbered st) (i n : Nat)
    (listed : st.pending[i]? = some n) :
    n < st.submitted.length := by
  have inside : i < st.pending.length := (List.getElem?_eq_some_iff.mp listed).1
  have task := numbered.logged i n listed
  rw [numbered.lengths] at inside
  rw [List.getElem?_eq_getElem inside] at task
  exact (List.getElem?_eq_some_iff.mp task).1

theorem Numbered.frame_bound {st : Journal} (numbered : Numbered st) (frame : Frame)
    (member : frame ∈ st.frames) : frame.number < st.submitted.length := by
  have origin := numbered.origin frame member
  by_contra outside
  rw [List.getElem?_eq_none (Nat.le_of_not_lt outside)] at origin
  cases origin

theorem Numbered.pending_cases {st : Journal} (numbered : Numbered st) {new : List Task} {i n : Nat}
    (listed : (st.pending ++ List.range' st.submitted.length new.length)[i]? = some n) :
    st.pending[i]? = some n ∨
    st.tasks.length ≤ i ∧ i - st.tasks.length < new.length ∧
      n = st.submitted.length + (i - st.tasks.length) := by
  by_cases inside : i < st.pending.length
  · rw [List.getElem?_append_left inside] at listed
    exact .inl listed
  · rw [List.getElem?_append_right (Nat.le_of_not_lt inside)] at listed
    rw [numbered.lengths] at listed inside
    obtain ⟨fits, same⟩ := List.getElem?_eq_some_iff.mp listed
    rw [List.length_range'] at fits
    rw [List.getElem_range'] at same
    exact .inr ⟨Nat.le_of_not_lt inside, fits, by omega⟩

theorem submit_numbered (st : Journal) (after : Dispatch) (new : List Task) (numbered : Numbered st)
    (queue : after.view.tasks = st.tasks ++ new) :
    Numbered ⟨after, st.submitted ++ new, st.pending ++ List.range' st.submitted.length new.length,
      st.frames⟩ where
  lengths := by simp [Journal.tasks, queue, numbered.lengths]
  logged := by
    intro i n listed
    change _ = after.view.tasks[i]?
    rw [queue]
    rcases numbered.pending_cases listed with old | ⟨outside, fits, rfl⟩
    · have inside := (List.getElem?_eq_some_iff.mp old).1
      rw [numbered.lengths] at inside
      rw [List.getElem?_append_left (numbered.bound i n old), List.getElem?_append_left inside]
      exact numbered.logged i n old
    · rw [List.getElem?_append_right (by omega), List.getElem?_append_right outside]
      congr 1
      omega
  rising := by
    intro i j n m before first second
    rcases numbered.pending_cases first with old | ⟨outside, fits, rfl⟩
    · rcases numbered.pending_cases second with later | ⟨_, _, rfl⟩
      · exact numbered.rising i j n m before old later
      · exact Nat.lt_of_lt_of_le (numbered.bound i n old) (Nat.le_add_right _ _)
    · rcases numbered.pending_cases second with later | ⟨_, _, rfl⟩
      · have inside := (List.getElem?_eq_some_iff.mp later).1
        rw [numbered.lengths] at inside
        omega
      · omega
  origin := by
    intro frame member
    rw [List.getElem?_append_left (numbered.frame_bound frame member)]
    exact numbered.origin frame member
  gone := by
    intro frame member i listed
    have bound := numbered.frame_bound frame member
    rcases numbered.pending_cases listed with old | ⟨_, _, same⟩
    · exact numbered.gone frame member i old
    · omega
  once := numbered.once

theorem Numbered.taken {st : Journal} (numbered : Numbered st) (index : Nat) (vap : Vap)
    (asks : (st.tasks[index]?).bind taskVap = some vap) :
    st.pending[index]? = some (st.pending.getD index 0) ∧
      (st.submitted[st.pending.getD index 0]?).bind taskVap = some vap := by
  have inside : index < st.tasks.length := by
    by_contra outside
    rw [List.getElem?_eq_none (Nat.le_of_not_lt outside)] at asks
    cases asks
  rw [← numbered.lengths] at inside
  have listed : st.pending[index]? = some (st.pending.getD index 0) := by
    rw [List.getD_eq_getElem?_getD, List.getElem?_eq_getElem inside]
    rfl
  exact ⟨listed, by rw [numbered.logged index _ listed, asks]⟩

theorem take_numbered (st : Journal) (after : Dispatch) (index : Nat) (vap : Vap)
    (wrote : List (Ref × Text)) (numbered : Numbered st)
    (asks : (st.tasks[index]?).bind taskVap = some vap) (single : wrote.length ≤ 1)
    (queue : after.view.tasks = st.tasks.eraseIdx index) :
    Numbered ⟨after, st.submitted, st.pending.eraseIdx index,
      st.frames ++ wrote.map fun frame => ⟨st.pending.getD index 0, vap, frame⟩⟩ := by
  obtain ⟨listed, task⟩ := numbered.taken index vap asks
  have inside : index < st.pending.length := (List.getElem?_eq_some_iff.mp listed).1
  have new (frame : Frame) (member :
      frame ∈ wrote.map fun frame => ⟨st.pending.getD index 0, vap, frame⟩) :
      frame.number = st.pending.getD index 0 ∧ frame.vap = vap := by
    obtain ⟨text, _, rfl⟩ := List.mem_map.mp member
    exact ⟨rfl, rfl⟩
  have removed (i : Nat) : st.pending[skip index i]? ≠ some (st.pending.getD index 0) := by
    intro again
    unfold skip at again
    split at again
    · rename_i before
      exact absurd (numbered.rising i index _ _ before again listed) (Nat.lt_irrefl _)
    · rename_i behind
      exact absurd (numbered.rising index (i + 1) _ _ (by omega) listed again) (Nat.lt_irrefl _)
  constructor
  · change _ = after.view.tasks.length
    rw [queue, List.length_eraseIdx, List.length_eraseIdx, numbered.lengths]
  · intro i n found
    simp only [Journal.tasks, queue]
    rw [getElem?_erase] at found ⊢
    exact numbered.logged _ n found
  · intro i j n m before first second
    rw [getElem?_erase] at first second
    refine numbered.rising _ _ n m ?_ first second
    unfold skip
    split <;> split <;> omega
  · intro frame member
    rcases List.mem_append.mp member with old | late
    · exact numbered.origin frame old
    · obtain ⟨number, same⟩ := new frame late
      rw [number, same]
      exact task
  · intro frame member i found
    rw [getElem?_erase] at found
    rcases List.mem_append.mp member with old | late
    · exact numbered.gone frame old _ found
    · rw [(new frame late).1] at found
      exact removed i found
  · rw [List.map_append, List.nodup_append]
    refine ⟨numbered.once, ?_, ?_⟩
    · match wrote, single with
      | [], _ => exact List.nodup_nil
      | [_], _ => exact List.nodup_singleton _
    · intro number old other late same
      obtain ⟨frame, member, rfl⟩ := List.mem_map.mp old
      obtain ⟨latest, added, rfl⟩ := List.mem_map.mp late
      rw [(new latest added).1] at same
      exact numbered.gone frame member index (by rw [listed, same])

theorem journal_cases (st : Journal) (call : Call) :
    (∃ new, (deliver st.dispatch call).view.tasks = st.tasks ++ new ∧
      journal st call = ⟨deliver st.dispatch call, st.submitted ++ new,
        st.pending ++ List.range' st.submitted.length new.length, st.frames⟩) ∨
    ∃ (index : Nat) (written : Bool) (vap : Vap) (wrote : List (Ref × Text)),
      call.event = .write index written ∧
      (st.tasks[index]?).bind taskVap = some vap ∧ wrote.length ≤ 1 ∧
      (deliver st.dispatch call).view.tasks = st.tasks.eraseIdx index ∧
      journal st call = ⟨deliver st.dispatch call, st.submitted, st.pending.eraseIdx index,
        st.frames ++ wrote.map fun frame => ⟨st.pending.getD index 0, vap, frame⟩⟩ := by
  -- what a step does to the journal: it submits tasks, or it runs one
  obtain ⟨event, now, order⟩ := call
  cases writes : isWrite event with
  | false =>
      obtain ⟨new, queue⟩ := deliver_tasks st.dispatch ⟨event, now, order⟩ writes
      refine .inl ⟨new, queue, ?_⟩
      have fresh : (deliver st.dispatch ⟨event, now, order⟩).view.tasks.drop st.tasks.length =
          new := by
        rw [queue]
        exact List.drop_left
      cases event with
      | write index written => cases writes
      | _ => simp only [journal, fresh]
  | true =>
      cases event with
      | write index written =>
          cases asks : (st.tasks[index]?).bind taskVap with
          | none =>
              have same : deliver st.dispatch ⟨.write index written, now, order⟩ = st.dispatch :=
                write_skips st.dispatch now order index written asks
              refine .inl ⟨[], by simp [same, Journal.tasks], ?_⟩
              simp [journal, asks]
          | some vap =>
              obtain ⟨queue, wrote, single, sent⟩ :=
                write_takes st.dispatch now order index written vap asks
              refine .inr ⟨index, written, vap, wrote, rfl, asks, single, queue, ?_⟩
              have new : (deliver st.dispatch ⟨.write index written, now, order⟩).view.sent.drop
                  st.dispatch.view.sent.length = wrote := by
                simp only [deliver, sent]
                exact List.drop_left
              simp only [journal, asks, new]
      | _ => cases writes

theorem journal_numbered (st : Journal) (call : Call) (numbered : Numbered st) :
    Numbered (journal st call) := by
  rcases journal_cases st call with ⟨new, queue, result⟩ |
      ⟨index, written, vap, wrote, -, asks, single, queue, result⟩
  · rw [result]
    exact submit_numbered st _ new numbered queue
  · rw [result]
    exact take_numbered st _ index vap wrote numbered asks single queue

/-! Order. -/

def Follows (first second : Frame) : Prop := first.vap = second.vap → first.number < second.number

/-- The frames are in order, and what is still pending for a VAP comes after its frames. -/
structure Ordered (st : Journal) : Prop where
  frames : st.frames.Pairwise Follows
  later : ∀ frame ∈ st.frames, ∀ (i : Nat) n, st.pending[i]? = some n →
    (st.tasks[i]?).bind taskVap = some frame.vap → frame.number < n

theorem submit_ordered (st : Journal) (after : Dispatch) (new : List Task) (numbered : Numbered st)
    (ordered : Ordered st) (queue : after.view.tasks = st.tasks ++ new) :
    Ordered ⟨after, st.submitted ++ new, st.pending ++ List.range' st.submitted.length new.length,
      st.frames⟩ := by
  refine ⟨ordered.frames, ?_⟩
  intro frame member i n listed asks
  rcases numbered.pending_cases listed with old | ⟨_, _, rfl⟩
  · have inside := (List.getElem?_eq_some_iff.mp old).1
    rw [numbered.lengths] at inside
    change (after.view.tasks[i]?).bind taskVap = _ at asks
    rw [queue, List.getElem?_append_left inside] at asks
    exact ordered.later frame member i n old asks
  · exact Nat.lt_of_lt_of_le (numbered.frame_bound frame member) (Nat.le_add_right _ _)

theorem take_ordered (st : Journal) (after : Dispatch) (index : Nat) (vap : Vap)
    (wrote : List (Ref × Text)) (numbered : Numbered st) (ordered : Ordered st)
    (asks : (st.tasks[index]?).bind taskVap = some vap) (single : wrote.length ≤ 1)
    (queue : after.view.tasks = st.tasks.eraseIdx index)
    (first : ∀ (earlier : Nat) other, earlier < index →
      (st.tasks[earlier]?).bind taskVap = some other →
      (st.tasks[index]?).bind taskVap ≠ some other) :
    Ordered ⟨after, st.submitted, st.pending.eraseIdx index,
      st.frames ++ wrote.map fun frame => ⟨st.pending.getD index 0, vap, frame⟩⟩ := by
  obtain ⟨listed, -⟩ := numbered.taken index vap asks
  constructor
  · refine List.pairwise_append.mpr ⟨ordered.frames, ?_, ?_⟩
    · match wrote, single with
      | [], _ => exact List.Pairwise.nil
      | [_], _ => exact List.pairwise_singleton _ _
    · intro frame old latest added same
      obtain ⟨text, _, rfl⟩ := List.mem_map.mp added
      exact ordered.later frame old index _ listed (by rw [asks, same])
  · intro frame member i n found asked
    change (after.view.tasks[i]?).bind taskVap = _ at asked
    rw [queue, getElem?_erase] at asked
    rw [getElem?_erase] at found
    rcases List.mem_append.mp member with old | late
    · exact ordered.later frame old _ n found asked
    · obtain ⟨text, _, rfl⟩ := List.mem_map.mp late
      -- the tasks before the one that was taken are for other VAPs
      unfold skip at found asked
      split at found
      · rename_i before
        rw [if_pos before] at asked
        exact absurd asks (first i vap before asked)
      · exact numbered.rising index (i + 1) _ n (by omega) listed found

theorem journal_ordered (st : Journal) (call : Call) (fits : InOrder st call)
    (numbered : Numbered st) (ordered : Ordered st) : Ordered (journal st call) := by
  rcases journal_cases st call with ⟨new, queue, result⟩ |
    ⟨index, written, vap, wrote, starts, asks, single, queue, result⟩
  · rw [result]
    exact submit_ordered st _ new numbered ordered queue
  · rw [result]
    refine take_ordered st _ index vap wrote numbered ordered asks single queue ?_
    simpa only [InOrder, starts] using fits

/-- In every run a frame is written by a task that was submitted for its VAP, and no task
writes two; where no task is started while an earlier one for its VAP is pending, the frames
of each VAP are written in the order of submission. -/
theorem frames_in_submission_order (st : Journal) :
    (Reaches journal (fun _ _ => True) Journal.start st →
      (st.frames.map Frame.number).Nodup ∧
        ∀ frame ∈ st.frames, (st.submitted[frame.number]?).bind taskVap = some frame.vap) ∧
    (Reaches journal InOrder Journal.start st → st.frames.Pairwise Follows) := by
  constructor
  · intro reached
    have numbered : Numbered st :=
      reached.invariant Numbered numbered_start fun st call _ numbered =>
        journal_numbered st call numbered
    exact ⟨numbered.once, numbered.origin⟩
  · intro reached
    have both : Numbered st ∧ Ordered st := by
      refine reached.invariant (fun st => Numbered st ∧ Ordered st) ⟨numbered_start, ?_⟩ ?_
      · exact ⟨List.Pairwise.nil, by simp [Journal.start]⟩
      · intro st call fits both
        exact ⟨journal_numbered st call both.1, journal_ordered st call fits both.1 both.2⟩
    exact both.2.frames

def addThenDel : List Call :=
  (hello 0 apMac ++ [probe 0]).map (fun event => ⟨.op event.op, event.now, event.order⟩) ++
    calls [.op (.addVap false addCommand), .op (.delVap none 0 0 "w".toList)]

theorem tasks_started_in_order :
    ((run journal Journal.start (addThenDel ++ calls [.write 0 true, .write 0 true])).frames.map
        Frame.number) = [0, 1] ∧
      (run journal Journal.start
        (addThenDel ++ calls [.write 0 true, .write 0 true])).frames.Pairwise
        Follows := by
  have fits : Allowed journal InOrder Journal.start
      (addThenDel ++ calls [.write 0 true, .write 0 true]) := by
    refine ⟨trivial, trivial, trivial, trivial, trivial, trivial, ?_, ?_, trivial⟩
    · intro earlier vap before
      cases before
    · intro earlier vap before
      cases before
  exact ⟨by decide +kernel, (frames_in_submission_order _).2 (Reaches.append _ .start fits)⟩

theorem pool_inverts_order :
    ¬ ∀ events : List Call, (run journal Journal.start events).frames.Pairwise Follows := by
  intro all
  have ordered := all (addThenDel ++ calls [.write 1 true, .write 0 true])
  have vaps : (run journal Journal.start
      (addThenDel ++ calls [.write 1 true, .write 0 true])).frames.map
      (fun frame => (frame.vap, frame.number)) =
          [(⟨0, 0, "w".toList⟩, 1), (⟨0, 0, "w".toList⟩, 0)] := by
    decide +kernel
  have pairs : (List.map (fun frame : Frame => (frame.vap, frame.number))
      (run journal Journal.start
        (addThenDel ++ calls [.write 1 true, .write 0 true])).frames).Pairwise
      fun first second => first.1 = second.1 → first.2 < second.2 := List.pairwise_map.mpr ordered
  rw [vaps] at pairs
  exact absurd pairs (by simp)

end LazyAS.CommandOrder

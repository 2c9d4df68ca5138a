import LazyAS.Monitor
import LazyAS.RecordHandoff

/-! The three threads of `infoCollect.c` over what they share: `captureOne`, called for every
packet, makes records, `getArgs` takes them from `cur_task` to `sendQueue` with `mtx` held all the
while, and `sendData` sends and frees them. A step is one call or some statements of one thread.
`sendQueue` is never closed and stands here for its calls as if one user made them one after the
other, a call that must wait changing nothing. A record is known by the place of its `malloc` among
all of them. -/
namespace LazyAS.CollectorPipeline
open Monitor Runs SessionKey RecordHandoff

def MAXSIZE : Nat := 65535

inductive Thread where
  | capture | getArgs
  deriving DecidableEq

inductive Cond where
  | cond
  deriving DecidableEq

/-- Where `captureOne` is; the record is the one it has made. -/
inductive Capturing where
  | watching
  | holding (record : Nat)
  | storing (record : Nat)
  | signalling
  | unlocking
  deriving DecidableEq

inductive Gathering where
  | locking | testing | waiting | informing | putting | freeing | clearing | unlocking
  deriving DecidableEq

inductive Sending where
  | getting
  | sending (record : Nat)
  | freeing (record : Nat)
  deriving DecidableEq

/-- `lost` lists the records that were overwritten in `cur_task`. -/
structure State where
  records : List Record
  mtx : Mutex Thread Cond
  curTask : Option Nat
  sendQueue : List Nat
  capturing : Capturing
  gathering : Gathering
  sending : Sending
  sent : List Nat
  freed : List Nat
  lost : List Nat

def initial : State := ⟨[], unused, none, [], .watching, .locking, .getting, [], [], []⟩

/-- `captureOne` is called. It comes to the lock if it makes a record. -/
def packet (packet : Packet) (start : Option (Int × Int)) (s : State) : State :=
  match s.capturing, recordOf packet start with
  | .watching, some record =>
      { s with records := s.records ++ [record], capturing := .holding s.records.length }
  | _, _ => s

def store (record : Nat) (s : State) : State :=
  { s with curTask := some record, lost := s.lost ++ s.curTask.toList, capturing := .signalling }

def capture (s : State) : State :=
  match s.capturing with
  | .watching => s
  | .holding record =>
      if s.mtx.Free then { s with mtx := s.mtx.acquire .capture, capturing := .storing record }
      else { s with freed := s.freed ++ [record], capturing := .watching }
  | .storing record => store record s
  | .signalling => { s with mtx := s.mtx.signal .cond, capturing := .unlocking }
  | .unlocking => { s with mtx := s.mtx.release, capturing := .watching }

/-- A step of `getArgs`; `informed` is what `getInfo` returns. -/
def gather (informed : Bool) (s : State) : State :=
  match s.gathering with
  | .locking => if s.mtx.Free then { s with mtx := s.mtx.acquire .getArgs, gathering := .testing }
      else s
  | .testing =>
      if s.curTask = none then { s with mtx := s.mtx.wait .cond .getArgs, gathering := .waiting }
      else { s with gathering := .informing }
  | .waiting =>
      if s.mtx.Free ∧ .getArgs ∉ s.mtx.blocked .cond then
        { s with mtx := s.mtx.acquire .getArgs, gathering := .testing }
      else s
  | .informing => { s with gathering := if informed then .putting else .freeing }
  | .putting =>
      if s.sendQueue.length < MAXSIZE then
        { s with sendQueue := s.sendQueue ++ s.curTask.toList, gathering := .clearing }
      else s
  | .freeing => { s with freed := s.freed ++ s.curTask.toList, gathering := .clearing }
  | .clearing => { s with curTask := none, gathering := .unlocking }
  | .unlocking => { s with mtx := s.mtx.release, gathering := .locking }

def send (s : State) : State :=
  match s.sending with
  | .getting =>
      match s.sendQueue with
      | [] => s
      | record :: rest => { s with sendQueue := rest, sending := .sending record }
  | .sending record => { s with sent := s.sent ++ [record], sending := .freeing record }
  | .freeing record => { s with freed := s.freed ++ [record], sending := .getting }

/-- `wake` is a return of `pthread_cond_wait` without a signal. -/
inductive Event where
  | packet (packet : Packet) (start : Option (Int × Int))
  | capture
  | gather (informed : Bool)
  | wake
  | send

def step (s : State) : Event → State
  | .packet packet start => CollectorPipeline.packet packet start s
  | .capture => capture s
  | .gather informed => gather informed s
  | .wake => { s with mtx := s.mtx.wake .cond .getArgs }
  | .send => send s

/-! What a step can do. -/

inductive Moves (s : State) : State → Prop where
  | stay : Moves s s
  | wake : Moves s { s with mtx := s.mtx.wake .cond .getArgs }
  | make (record : Record) (here : s.capturing = .watching) :
      Moves s { s with records := s.records ++ [record], capturing := .holding s.records.length }
  | lockCapture (record : Nat) (here : s.capturing = .holding record) (free : s.mtx.Free) :
      Moves s { s with mtx := s.mtx.acquire .capture, capturing := .storing record }
  | drop (record : Nat) (here : s.capturing = .holding record) (busy : ¬ s.mtx.Free) :
      Moves s { s with freed := s.freed ++ [record], capturing := .watching }
  | store (record : Nat) (here : s.capturing = .storing record) : Moves s (store record s)
  | signal (here : s.capturing = .signalling) :
      Moves s { s with mtx := s.mtx.signal .cond, capturing := .unlocking }
  | unlockCapture (here : s.capturing = .unlocking) :
      Moves s { s with mtx := s.mtx.release, capturing := .watching }
  | lock (here : s.gathering = .locking) (free : s.mtx.Free) :
      Moves s { s with mtx := s.mtx.acquire .getArgs, gathering := .testing }
  | sleep (here : s.gathering = .testing) (none' : s.curTask = none) :
      Moves s { s with mtx := s.mtx.wait .cond .getArgs, gathering := .waiting }
  | find (here : s.gathering = .testing) (some' : s.curTask ≠ none) :
      Moves s { s with gathering := .informing }
  | resume (here : s.gathering = .waiting) (free : s.mtx.Free)
      (woken : .getArgs ∉ s.mtx.blocked .cond) :
      Moves s { s with mtx := s.mtx.acquire .getArgs, gathering := .testing }
  | inform (informed : Bool) (here : s.gathering = .informing) :
      Moves s { s with gathering := if informed then .putting else .freeing }
  | put (here : s.gathering = .putting) (room : s.sendQueue.length < MAXSIZE) :
      Moves s { s with sendQueue := s.sendQueue ++ s.curTask.toList, gathering := .clearing }
  | discard (here : s.gathering = .freeing) :
      Moves s { s with freed := s.freed ++ s.curTask.toList, gathering := .clearing }
  | clear (here : s.gathering = .clearing) :
      Moves s { s with curTask := none, gathering := .unlocking }
  | unlock (here : s.gathering = .unlocking) :
      Moves s { s with mtx := s.mtx.release, gathering := .locking }
  | take (record : Nat) (rest : List Nat) (here : s.sending = .getting)
      (queued : s.sendQueue = record :: rest) :
      Moves s { s with sendQueue := rest, sending := .sending record }
  | send (record : Nat) (here : s.sending = .sending record) :
      Moves s { s with sent := s.sent ++ [record], sending := .freeing record }
  | free (record : Nat) (here : s.sending = .freeing record) :
      Moves s { s with freed := s.freed ++ [record], sending := .getting }

theorem capture_moves (s : State) : Moves s (capture s) := by
  cases stage : s.capturing with
  | watching =>
      simp only [capture, stage]
      exact .stay
  | holding record =>
      simp only [capture, stage]
      split
      case isTrue free => exact .lockCapture record stage free
      case isFalse busy => exact .drop record stage busy
  | storing record =>
      simp only [capture, stage]
      exact .store record stage
  | signalling =>
      simp only [capture, stage]
      exact .signal stage
  | unlocking =>
      simp only [capture, stage]
      exact .unlockCapture stage

theorem gather_moves (informed : Bool) (s : State) : Moves s (gather informed s) := by
  cases stage : s.gathering with
  | locking =>
      simp only [gather, stage]
      split
      case isTrue free => exact .lock stage free
      case isFalse => exact .stay
  | testing =>
      simp only [gather, stage]
      split
      case isTrue none' => exact .sleep stage none'
      case isFalse some' => exact .find stage some'
  | waiting =>
      simp only [gather, stage]
      split
      case isTrue resumes => exact .resume stage resumes.1 resumes.2
      case isFalse => exact .stay
  | informing =>
      simp only [gather, stage]
      exact .inform informed stage
  | putting =>
      simp only [gather, stage]
      split
      case isTrue room => exact .put stage room
      case isFalse => exact .stay
  | freeing =>
      simp only [gather, stage]
      exact .discard stage
  | clearing =>
      simp only [gather, stage]
      exact .clear stage
  | unlocking =>
      simp only [gather, stage]
      exact .unlock stage

theorem send_moves (s : State) : Moves s (send s) := by
  cases stage : s.sending with
  | getting =>
      cases queued : s.sendQueue with
      | nil =>
          simp only [send, stage, queued]
          exact .stay
      | cons record rest =>
          simp only [send, stage, queued]
          exact .take record rest stage queued
  | sending record =>
      simp only [send, stage]
      exact .send record stage
  | freeing record =>
      simp only [send, stage]
      exact .free record stage

theorem packet_moves (arrived : Packet) (start : Option (Int × Int)) (s : State) :
    Moves s (packet arrived start s) := by
  unfold packet
  split
  case h_1 record watching made => exact .make record watching
  case h_2 => exact .stay

theorem step_moves (s : State) (event : Event) : Moves s (step s event) := by
  cases event with
  | packet arrived start => exact packet_moves arrived start s
  | capture => exact capture_moves s
  | gather informed => exact gather_moves informed s
  | wake => exact .wake
  | send => exact send_moves s

/-! One thread has the mutex at a time. -/

def Inside (s : State) : Thread → Prop
  | .capture => s.capturing ≠ .watching ∧ ∀ record, s.capturing ≠ .holding record
  | .getArgs => s.gathering ≠ .locking ∧ s.gathering ≠ .waiting

def Alone (s : State) : Prop := Owned (Inside s) s.mtx

variable {s s' : State}

theorem alone_moves (move : Moves s s') (alone : Alone s) : Alone s' := by
  cases move with
  | stay => exact alone
  | wake | take | send | free => exact alone.keep rfl fun u => by cases u <;> exact Iff.rfl
  | make record here | drop record here =>
      apply alone.keep rfl
      intro u
      cases u <;> simp [Inside, here]
  | store record here | signal here =>
      apply alone.keep rfl
      intro u
      cases u <;> simp [Inside, here, store]
  | find here | put here | discard here | clear here =>
      apply alone.keep rfl
      intro u
      cases u <;> simp [Inside, here]
  | inform informed here =>
      apply alone.keep rfl
      intro u
      cases u <;> cases informed <;> simp [Inside, here]
  | lockCapture record here free =>
      apply alone.enter free
      · simp [Inside]
      · intro u other
        cases u with
        | capture => exact absurd rfl other
        | getArgs => exact Iff.rfl
  | lock here free | resume here free =>
      apply alone.enter free
      · simp [Inside]
      · intro u other
        cases u with
        | capture => exact Iff.rfl
        | getArgs => exact absurd rfl other
  | unlockCapture here =>
      refine alone.leave (t := .capture) ?_ rfl ?_ ?_
      · simp [Inside, here]
      · simp [Inside]
      · intro u other
        cases u with
        | capture => exact absurd rfl other
        | getArgs => exact Iff.rfl
  | sleep here | unlock here =>
      refine alone.leave (t := .getArgs) ?_ rfl ?_ ?_
      · simp [Inside, here]
      · simp [Inside]
      · intro u other
        cases u with
        | capture => exact Iff.rfl
        | getArgs => exact absurd rfl other

/-! Where records are. -/

def held : Capturing → List Nat
  | .holding record | .storing record => [record]
  | _ => []

/-- The record in `cur_task`, until it has been passed on or freed. -/
def slot (s : State) : List Nat := if s.gathering = .clearing then [] else s.curTask.toList

def carried : Sending → List Nat
  | .sending record | .freeing record => [record]
  | .getting => []

def places (s : State) : List Nat :=
  held s.capturing ++ slot s ++ s.sendQueue ++ carried s.sending ++ s.freed ++ s.lost

def Kept (s : State) : Prop :=
  ∀ record, (places s).count record = if record < s.records.length then 1 else 0

theorem count_places (s : State) (record : Nat) : (places s).count record =
    (held s.capturing).count record + (slot s).count record + s.sendQueue.count record +
      (carried s.sending).count record + s.freed.count record + s.lost.count record := by
  simp only [places, List.count_append]

theorem kept_same (kept : Kept s) (records : s'.records = s.records)
    (same : ∀ record, (places s').count record = (places s).count record) : Kept s' := by
  intro record
  rw [same, records]
  exact kept record

theorem slot_open (open' : s.gathering ≠ .clearing) : slot s = s.curTask.toList := if_neg open'

theorem storing_outside (alone : Alone s) {record : Nat} (here : s.capturing = .storing record) :
    s.gathering = .locking ∨ s.gathering = .waiting := by
  by_contra within
  have both : Thread.capture = Thread.getArgs := by
    apply alone.alone
    · simp [Inside, here]
    · exact not_or.mp within
  cases both

theorem kept_moves (move : Moves s s') (alone : Alone s) (kept : Kept s) : Kept s' := by
  cases move with
  | stay => exact kept
  | make record here =>
      intro other
      have before := kept other
      rw [count_places] at before ⊢
      simp only [here, held, slot, List.length_append, List.length_singleton, List.count_nil,
        List.count_singleton]
        at before ⊢
      split_ifs at before ⊢ <;> simp_all <;> omega
  | store record here =>
      have open' : s.gathering ≠ .clearing := by
        rcases storing_outside alone here with outside | outside <;> rw [outside] <;> decide
      apply kept_same kept
      · rfl
      · intro other
        rw [count_places, count_places]
        simp [here, held, slot, store, open', List.count_append, List.count_singleton]
        omega
  | lockCapture record here | drop record here | signal here | unlockCapture here | wake =>
      apply kept_same kept
      · rfl
      · intro other
        rw [count_places, count_places]
        simp [*, held, slot, List.count_append]
        try omega
  | take record rest here queued =>
      apply kept_same kept
      · rfl
      · intro other
        rw [count_places, count_places]
        simp [here, queued, slot, carried, List.count_cons]
        omega
  | send record here | free record here =>
      apply kept_same kept
      · rfl
      · intro other
        rw [count_places, count_places]
        simp [here, slot, carried, List.count_append, List.count_cons]
        try omega
  | inform informed here =>
      apply kept_same kept
      · rfl
      · intro other
        rw [count_places, count_places]
        cases informed <;> simp [here, slot]
  | lock here | find here | resume here | unlock here | sleep here | put here | discard here
  | clear here =>
      apply kept_same kept
      · rfl
      · intro other
        rw [count_places, count_places]
        simp [here, slot, List.count_append]
        try omega

theorem kept_perm (kept : Kept s) : (places s).Perm (List.range s.records.length) := by
  apply List.perm_iff_count.mpr
  intro record
  rw [kept record, List.count_range]

/-! The order of records. -/

def unsent : Sending → List Nat
  | .sending record => [record]
  | _ => []

/-- The records on their way to the server, those that are there first. -/
def line (s : State) : List Nat :=
  s.sent ++ unsent s.sending ++ s.sendQueue ++ slot s ++ held s.capturing

structure Ordered (s : State) : Prop where
  rising : (line s).Pairwise (· < ·)
  known : ∀ record ∈ line s, record < s.records.length

theorem ordered_sublist (ordered : Ordered s) (records : s'.records = s.records)
    (fewer : (line s').Sublist (line s)) :
    Ordered s' where
  rising := ordered.rising.sublist fewer
  known := fun record member => records ▸ ordered.known record (fewer.subset member)

theorem ordered_moves (move : Moves s s') (alone : Alone s) (ordered : Ordered s) : Ordered s' := by
  cases move with
  | stay => exact ordered
  | make record here =>
      have whole : line { s with
          records := s.records ++ [record], capturing := .holding s.records.length } =
          line s ++ [s.records.length] := by simp [line, here, held, slot]
      constructor
      · rw [whole, List.pairwise_append]
        refine ⟨ordered.rising, List.pairwise_singleton .., ?_⟩
        intro older member newest same
        rw [List.mem_singleton.mp same]
        exact ordered.known older member
      · intro other member
        rw [List.length_append]
        rw [whole] at member
        rcases List.mem_append.mp member with older | newest
        · exact Nat.lt_succ_of_lt (ordered.known other older)
        · rw [List.mem_singleton.mp newest]
          exact Nat.lt_succ_self _
  | store record here =>
      have open' : s.gathering ≠ .clearing := by
        rcases storing_outside alone here with outside | outside <;> rw [outside] <;> decide
      apply ordered_sublist ordered
      · rfl
      · simp [line, here, held, slot, store, open']
  | drop record here =>
      apply ordered_sublist ordered
      · rfl
      · simp [line, here, held, slot]
  | lockCapture record here | signal here | unlockCapture here | wake =>
      apply ordered_sublist ordered
      · rfl
      · simp [line, *, held, slot]
  | take record rest here queued =>
      apply ordered_sublist ordered
      · rfl
      · simp [line, here, queued, unsent, slot]
  | send record here | free record here =>
      apply ordered_sublist ordered
      · rfl
      · simp [line, here, unsent, slot]
  | inform informed here =>
      apply ordered_sublist ordered
      · rfl
      · cases informed <;> simp [line, here, slot]
  | lock here | find here | resume here | unlock here | sleep here | put here | discard here
  | clear here =>
      apply ordered_sublist ordered
      · rfl
      · simp [line, here, slot]

/-! What `getArgs` finds, and when it sleeps. -/

/-- The queue is within its bounds, and `cur_task` is not null while it is used. -/
structure Filled (s : State) : Prop where
  room : s.sendQueue.length ≤ MAXSIZE
  tasked : s.gathering = .informing ∨ s.gathering = .putting ∨ s.gathering = .freeing →
    s.curTask ≠ none

theorem filled_moves (move : Moves s s') (filled : Filled s) : Filled s' := by
  obtain ⟨room, tasked⟩ := filled
  cases move with
  | stay | make | lockCapture | drop | signal | unlockCapture | wake | send | free =>
      exact ⟨room, tasked⟩
  | store record here =>
      refine ⟨room, ?_⟩
      simp [store]
  | lock | sleep | resume | clear | unlock | discard =>
      refine ⟨room, ?_⟩
      simp
  | find here some' => exact ⟨room, fun _ => some'⟩
  | inform informed here => exact ⟨room, fun _ => tasked (Or.inl here)⟩
  | put here free =>
      constructor
      · rw [List.length_append]
        have one : s.curTask.toList.length ≤ 1 := by cases s.curTask <;> simp
        omega
      · simp
  | take record rest here queued =>
      refine ⟨?_, tasked⟩
      rw [queued] at room
      exact Nat.le_of_succ_le room

/-- `getArgs` is the only one to wait, and it sleeps while there is nothing to do or a signal is
about to come. -/
def Sleeps (s : State) : Prop :=
  s.mtx.blocked .cond = [] ∨
    (s.mtx.blocked .cond = [.getArgs] ∧ s.gathering = .waiting ∧
      (s.curTask = none ∨ s.capturing = .signalling))

theorem sleeps_awake (sleeps : Sleeps s) (awake : s.gathering ≠ .waiting) :
    s.mtx.blocked .cond = [] := by
  rcases sleeps with none' | ⟨-, waiting, -⟩
  · exact none'
  · exact absurd waiting awake

theorem sleeps_moves (move : Moves s s') (sleeps : Sleeps s) : Sleeps s' := by
  cases move with
  | stay | take | send | free => exact sleeps
  | wake =>
      left
      rcases sleeps with none' | ⟨one, -, -⟩
      · simp [none']
      · simp [one]
  | make record here | lockCapture record here | drop record here | unlockCapture here =>
      rcases sleeps with none' | ⟨one, waiting, reason⟩
      · exact Or.inl none'
      · rw [here] at reason
        rcases reason with nothing | signalling
        · exact Or.inr ⟨one, waiting, Or.inl nothing⟩
        · cases signalling
  | store record here =>
      rcases sleeps with none' | ⟨one, waiting, -⟩
      · exact Or.inl none'
      · exact Or.inr ⟨one, waiting, Or.inr rfl⟩
  | signal here =>
      left
      rcases sleeps with none' | ⟨one, -, -⟩
      · simp [none']
      · simp [one]
  | lock here | find here | put here | discard here | clear here | unlock here
  | inform informed here =>
      left
      have nobody := sleeps_awake sleeps (by rw [here]; decide)
      exact nobody
  | sleep here none' =>
      right
      have nobody := sleeps_awake sleeps (by rw [here]; decide)
      exact ⟨by simp [nobody], rfl, Or.inl none'⟩
  | resume here free woken =>
      left
      rcases sleeps with none' | ⟨one, -, -⟩
      · exact none'
      · exact absurd (by simp [one]) woken

/-! Runs. -/

structure Sound (s : State) : Prop where
  alone : Alone s
  kept : Kept s
  ordered : Ordered s
  filled : Filled s
  sleeps : Sleeps s

theorem sound_initial : Sound initial where
  alone := fun u => by cases u <;> simp [initial, unused, Inside]
  kept := fun record => by simp [initial, places, held, slot, carried]
  ordered := ⟨List.Pairwise.nil, fun _ member => absurd member List.not_mem_nil⟩
  filled := ⟨Nat.zero_le _, by simp [initial]⟩
  sleeps := Or.inl rfl

theorem sound_run (events : List Event) : Sound (run step initial events) := by
  apply run_invariant Sound sound_initial
  intro s event sound
  have move := step_moves s event
  constructor
  · exact alone_moves move sound.alone
  · exact kept_moves move sound.alone sound.kept
  · exact ordered_moves move sound.alone sound.ordered
  · exact filled_moves move sound.filled
  · exact sleeps_moves move sound.sleeps

def Live (s : State) (record : Nat) : Prop := record < s.records.length ∧ record ∉ s.freed

/-- What the step reads, passes on or frees is live. -/
def Safe (s : State) : Event → Prop
  | .packet .. | .wake => True
  | .capture => ∀ record ∈ held s.capturing, Live s record
  | .gather _ => s.gathering = .informing ∨ s.gathering = .putting ∨ s.gathering = .freeing →
      ∃ task, s.curTask = some task ∧ Live s task
  | .send => ∀ record ∈ carried s.sending, Live s record

theorem live_placed (kept : Kept s) {record : Nat}
    (here : 0 < (places s).count record - s.freed.count record) :
    Live s record := by
  have one := kept record
  constructor
  · by_contra outside
    rw [if_neg outside] at one
    omega
  · intro member
    have some' := List.count_pos_iff.mpr member
    split at one <;> omega

/-- However the three threads take turns, every record is at all times in one place: in the hands of
a thread, in `cur_task`, in the queue, freed or overwritten. No thread uses a record after it was
freed or frees it again. -/
theorem records_safe (events : List Event) :
    Kept (run step initial events) ∧ ∀ event, Safe (run step initial events) event := by
  have sound := sound_run events
  generalize run step initial events = s at sound
  refine ⟨sound.kept, ?_⟩
  intro event
  cases event with
  | packet | wake => trivial
  | capture =>
      intro record member
      apply live_placed sound.kept
      have some' := List.count_pos_iff.mpr member
      rw [count_places]
      omega
  | gather informed =>
      intro using'
      obtain ⟨task, holds⟩ := Option.ne_none_iff_exists'.mp (sound.filled.tasked using')
      refine ⟨task, holds, live_placed sound.kept ?_⟩
      have open' : s.gathering ≠ .clearing := by
        rcases using' with here | here | here <;> rw [here] <;> decide
      have some' : 0 < (slot s).count task := by simp [slot_open open', holds]
      rw [count_places]
      omega
  | send =>
      intro record member
      apply live_placed sound.kept
      have some' := List.count_pos_iff.mpr member
      rw [count_places]
      omega

/-- Records are sent in the order in which their handshakes were captured, none of them twice, and
the memory in use grows only by the records that are overwritten. -/
theorem sent_in_order (events : List Event) :
    (run step initial events).sent.Pairwise (· < ·) ∧
      (run step initial events).records.length ≤ (run step initial events).freed.length +
        (run step initial events).lost.length + (MAXSIZE + 3) := by
  have sound := sound_run events
  generalize run step initial events = s at sound
  constructor
  · have front : s.sent.Sublist (line s) := by simp [line, List.append_assoc]
    exact sound.ordered.rising.sublist front
  · have total := (kept_perm sound.kept).length_eq
    have one : (held s.capturing).length ≤ 1 := by cases s.capturing <;> simp [held]
    have two : (slot s).length ≤ 1 := by
      unfold slot
      split
      · exact Nat.zero_le 1
      · cases s.curTask <;> simp
    have three : (carried s.sending).length ≤ 1 := by cases s.sending <;> simp [carried]
    have room := sound.filled.room
    simp only [places, List.length_append, List.length_range] at total
    omega

/-! When nothing happens any more. -/

/-- No thread can go on before the next packet comes. -/
def Quiet (s : State) : Prop := capture s = s ∧ (∀ informed, gather informed s = s) ∧ send s = s

theorem capture_quiet (quiet : capture s = s) : s.capturing = .watching := by
  have place := congrArg State.capturing quiet
  cases stage : s.capturing <;> simp only [capture, stage, store] at place
  case watching => rfl
  case holding record =>
    split at place
    · cases place
    · cases place
  all_goals cases place

theorem send_quiet (quiet : send s = s) : s.sending = .getting ∧ s.sendQueue = [] := by
  have place := congrArg State.sending quiet
  cases stage : s.sending <;> simp only [send, stage] at place
  case getting =>
    cases queued : s.sendQueue <;> simp only [queued] at place
    case nil => exact ⟨rfl, rfl⟩
    case cons => cases place
  all_goals cases place

/-- A quiet `getArgs` waits for the mutex, for room in the queue or for a signal. -/
theorem gather_quiet (quiet : ∀ informed, gather informed s = s) :
    (s.gathering = .locking ∧ ¬ s.mtx.Free) ∨
      (s.gathering = .putting ∧ ¬ s.sendQueue.length < MAXSIZE) ∨
      (s.gathering = .waiting ∧ ¬ (s.mtx.Free ∧ .getArgs ∉ s.mtx.blocked .cond)) := by
  have place := congrArg State.gathering (quiet true)
  cases stage : s.gathering <;> simp only [gather, stage] at place
  case locking =>
    split at place
    · cases place
    · exact Or.inl ⟨rfl, ‹_›⟩
  case testing =>
    split at place
    · cases place
    · cases place
  case waiting =>
    split at place
    · cases place
    · exact Or.inr (Or.inr ⟨rfl, ‹_›⟩)
  case putting =>
    split at place
    · cases place
    · exact Or.inr (Or.inl ⟨rfl, ‹_›⟩)
  all_goals cases place

theorem settled_of_quiet (sound : Sound s) (quiet : Quiet s) :
    s.curTask = none ∧ s.sendQueue = [] ∧
      ∀ record < s.records.length, (s.freed ++ s.lost).count record = 1 := by
  obtain ⟨captures, gathers, sends⟩ := quiet
  have watching := capture_quiet captures
  obtain ⟨getting, empty⟩ := send_quiet sends
  have free (outside : s.gathering = .locking ∨ s.gathering = .waiting) : s.mtx.Free := by
    cases owner : s.mtx.holder with
    | none => exact owner
    | some thread =>
        have inside := (sound.alone thread).mp owner
        cases thread with
        | capture => exact absurd watching inside.1
        | getArgs =>
            rcases outside with here | here
            · exact absurd here inside.1
            · exact absurd here inside.2
  have none' : s.curTask = none := by
    rcases gather_quiet gathers with ⟨locking, busy⟩ | ⟨-, full⟩ | ⟨waiting, kept⟩
    · exact absurd (free (Or.inl locking)) busy
    · rw [empty] at full
      exact absurd (by decide : 0 < MAXSIZE) full
    · rcases sound.sleeps with nobody | ⟨-, -, reason⟩
      · exact absurd ⟨free (Or.inr waiting), by rw [nobody]; exact List.not_mem_nil⟩ kept
      · rw [watching] at reason
        exact reason.resolve_right (by decide)
  refine ⟨none', empty, ?_⟩
  intro record below
  have one := sound.kept record
  rw [if_pos below, count_places] at one
  have gone : slot s = [] := by
    unfold slot
    split
    · rfl
    · rw [none']
      rfl
  rw [List.count_append]
  simp only [watching, held, gone, empty, getting, carried, List.count_nil] at one
  omega

/-- No wake-up is lost and no thread keeps another one waiting for good: where none can go on before
the next packet, every record there ever was has been freed, if it was not overwritten, and nothing
is on its way. -/
theorem quiet_settled (events : List Event) (quiet : Quiet (run step initial events)) :
    (run step initial events).curTask = none ∧ (run step initial events).sendQueue = [] ∧
      ∀ record < (run step initial events).records.length,
        ((run step initial events).freed ++ (run step initial events).lost).count record = 1 :=
  settled_of_quiet (sound_run events) quiet

def oneRecord : List Event :=
  .packet { straightPacket with syn := false } (some (0, 0)) :: List.replicate 4 .capture ++
    List.replicate 8 (.gather true) ++ List.replicate 3 .send ++ List.replicate 2 (.gather true)

theorem quiet_settled_one : (run step initial oneRecord).curTask = none ∧
    (run step initial oneRecord).sendQueue = [] ∧
    ((run step initial oneRecord).freed ++ (run step initial oneRecord).lost).count 0 = 1 := by
  have settled := quiet_settled oneRecord ⟨rfl, fun informed => by cases informed <;> rfl, rfl⟩
  exact ⟨settled.1, settled.2.1, settled.2.2 0 (by decide +kernel)⟩

end LazyAS.CollectorPipeline

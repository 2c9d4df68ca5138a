import LazyAS.DataReceiver
import LazyAS.RecordStream
import Mathlib.Data.List.ReduceOption

/-! What one receive thread of the server reads and adds while the other threads run. The log of
its calls shows that it adds what it reads, once and in order, and that its loop in `RecordStream`
tells what it does in any run. -/
namespace LazyAS.ReceiverRecords
open DataReceiver Runs

section
variable {Record : Type}

/-- What a thread's calls of `read`, `IsFull` and `Add` gave or got so far. -/
structure Log (Record : Type) where
  reads : List (Option Record)
  tests : List Bool
  adds : List Record

def note (n : Nat) (s : State Record) (log : Log Record) : Event Record → Log Record
  | .receive m read =>
      if m = n then
        match s.receivers n with
        | .reading =>
            match read with
            | some record => { log with reads := log.reads ++ [some record] }
            | none => if s.sockets s.client = none then log
                else { log with reads := log.reads ++ [none] }
        | .testing _ => { log with tests := log.tests ++ [IsFull s.buffer] }
        | .adding record => { log with adds := log.adds ++ [record] }
        | _ => log
      else log
  | _ => log

def observe (n : Nat) (both : State Record × Log Record) (event : Event Record) :
    State Record × Log Record :=
  (step both.1 event, note n both.1 both.2 event)

def observed (n : Nat) (junk : Int) (events : List (Event Record)) : State Record × Log Record :=
  run (observe n) (start junk, ⟨[], [], []⟩) events

theorem observed_state (n : Nat) (junk : Int) (events : List (Event Record)) :
    (observed n junk events).1 = run step (start junk) events := by
  have same (both : State Record × Log Record) (events : List (Event Record)) :
      (run (observe n) both events).1 = run step both.1 events := by
    induction events generalizing both with
    | nil => rfl
    | cons event events ih => exact ih (observe n both event)
  exact same _ events

def Ledger : Receiving Record → Log Record → Prop
  | .absent, log => log = ⟨[], [], []⟩
  | .reading, log | .signalling, log | .unlocking, log =>
      log.reads = log.adds.map some ∧ log.tests = List.replicate log.adds.length false
  | .locking record, log | .testing record, log =>
      log.reads = log.adds.map some ++ [some record] ∧
        log.tests = List.replicate log.adds.length false
  | .adding record, log =>
      log.reads = log.adds.map some ++ [some record] ∧
        log.tests = List.replicate log.adds.length false ++ [false]
  | .waiting record, log =>
      log.reads = log.adds.map some ++ [some record] ∧
        log.tests = List.replicate log.adds.length false ++ [true]
  | .closing, log | .ended, log =>
      log.reads = log.adds.map some ++ [none] ∧ log.tests = List.replicate log.adds.length false

theorem ledger_receive (s : State Record) (n : Nat) (read : Option Record) (log : Log Record)
    (guarded : Guarded s) (ledger : Ledger (s.receivers n) log) :
    Ledger ((receive s n read).receivers n) (note n s log (.receive n read)) := by
  cases stage : s.receivers n with
  | absent | ended =>
      rw [stage] at ledger
      simpa only [receive, note, stage, ↓reduceIte] using ledger
  | reading =>
      rw [stage] at ledger
      cases read with
      | some record => simpa [receive, note, stage, State.goto, State.call, Ledger] using ledger
      | none =>
          by_cases opened : s.sockets s.client = none
          · simpa [receive, note, stage, opened, Ledger] using ledger
          · simpa [receive, note, stage, opened, State.goto, State.call, Ledger] using ledger
  | locking record =>
      rw [stage] at ledger
      by_cases free : s.mutex.Free
      · simpa [receive, note, stage, free, State.goto, Ledger] using ledger
      · simpa [receive, note, stage, free, Ledger] using ledger
  | testing record =>
      rw [stage] at ledger
      cases full : IsFull s.buffer <;>
        simpa [receive, note, stage, full, State.goto, Ledger] using ledger
  | waiting record =>
      -- nobody wakes it
      have kept := waits_step s (.receive n read) guarded n record stage
      change (receive s n read).receivers n = _ at kept
      rw [stage] at ledger
      rw [kept]
      simpa [note, stage] using ledger
  | adding record =>
      rw [stage] at ledger
      simpa [receive, note, stage, State.goto, Ledger, List.replicate_succ'] using ledger
  | signalling | unlocking | closing =>
      rw [stage] at ledger
      simpa [receive, note, stage, State.goto, State.call, Ledger] using ledger

theorem ledger_step (s : State Record) (n : Nat) (event : Event Record) (log : Log Record)
    (guarded : Guarded s) (ledger : Ledger (s.receivers n) log) :
    Ledger ((step s event).receivers n) (note n s log event) := by
  cases event with
  | accept result =>
      obtain ⟨receivers, -⟩ := accepts_frame (accept_accepts s result)
      rw [step, receivers]
      exact ledger
  | create created =>
      change Ledger ((create s created).receivers n) log
      rcases receivers_creates (create_creates s created) guarded.numbered n with same |
          ⟨absent, reads⟩
      · rw [same]
        exact ledger
      · rw [absent] at ledger
        rw [reads, show log = ⟨[], [], []⟩ from ledger]
        simp [Ledger]
  | receive m read =>
      by_cases self : m = n
      · subst self
        exact ledger_receive s m read log guarded ledger
      · have same := others_receive (receive_receives s m read) n (Ne.symm self)
        change Ledger ((receive s m read).receivers n) _
        rw [same]
        simpa [note, self] using ledger
  | save =>
      obtain ⟨-, -, -, receivers, -⟩ := saves_frame (save_saves s)
      change Ledger ((save s).receivers n) log
      rw [receivers]
      exact ledger

theorem ledger_run (n : Nat) (junk : Int) (events : List (Event Record)) :
    Ledger ((run step (start junk) events).receivers n) (observed n junk events).2 := by
  have both : Guarded (observed n junk events).1 ∧
      Ledger ((observed n junk events).1.receivers n) (observed n junk events).2 := by
    apply run_invariant (fun both : State Record × Log Record => Guarded both.1 ∧
      Ledger (both.1.receivers n) both.2)
    · exact ⟨guarded_start junk, rfl⟩
    · intro both event ok
      exact ⟨guarded_step both.1 event ok.1, ledger_step both.1 n event both.2 ok.1 ok.2⟩
  rw [observed_state] at both
  exact both.2

def inHand : Receiving Record → List Record
  | .locking record | .testing record | .waiting record | .adding record => [record]
  | _ => []

theorem reduceOption_some (records : List Record) : (records.map some).reduceOption = records := by
  rw [List.reduceOption, List.filterMap_map]
  exact List.filterMap_some

theorem adds_reads (n : Nat) (junk : Int) (events : List (Event Record)) :
    (observed n junk events).2.reads.reduceOption =
      (observed n junk events).2.adds ++ inHand ((run step (start junk) events).receivers n) := by
  have ledger := ledger_run n junk events
  cases stage : (run step (start junk) events).receivers n with
  | absent =>
      rw [stage] at ledger
      rw [show (observed n junk events).2 = ⟨[], [], []⟩ from ledger]
      rfl
  | reading | signalling | unlocking =>
      rw [stage] at ledger
      simp [ledger.1, inHand, reduceOption_some]
  | locking | testing | adding | waiting =>
      rw [stage] at ledger
      simp [ledger.1, inHand, reduceOption_some, List.reduceOption_append]
  | closing | ended =>
      rw [stage] at ledger
      simp [ledger.1, inHand, reduceOption_some, List.reduceOption_append]

end

/-! The loop of one thread, as `RecordStream` has it, and the thread among the others. -/

section
open RecordStream (Read Stage)

variable {size : Nat}

def memories (fresh : Nat → RecordStream.Record size) :
    Nat → List (Read size) → List (Option (RecordStream.Record size))
  | _, [] => []
  | i, .bytes piece :: reads => some ((fresh i).overwrite piece) :: memories fresh (i + 1) reads
  | i, .error :: reads => some (fresh i) :: memories fresh (i + 1) reads
  | i, .eof :: reads => none :: memories fresh (i + 1) reads

theorem receive_memory (isFull : Nat → Bool) (fresh : Nat → RecordStream.Record size) (i : Nat)
    (reads : List (Read size)) (record : RecordStream.Record size)
    (rest : List (Option (RecordStream.Record size)))
    (read : memories fresh i reads = some record :: rest) :
    ∃ later, memories fresh (i + 1) later = rest ∧ RecordStream.receive isFull fresh i reads =
      if isFull i then ([], .waiting)
      else (record :: (RecordStream.receive isFull fresh (i + 1) later).1,
        (RecordStream.receive isFull fresh (i + 1) later).2) := by
  -- one pass of the loop, told by the memory after its read
  cases reads with
  | nil => simp [memories] at read
  | cons first later =>
      cases first with
      | eof => simp [memories] at read
      | bytes piece =>
          simp only [memories, List.cons.injEq, Option.some.injEq] at read
          exact ⟨later, read.2, by rw [← read.1]; rfl⟩
      | error =>
          simp only [memories, List.cons.injEq, Option.some.injEq] at read
          exact ⟨later, read.2, by rw [← read.1]; rfl⟩

theorem receive_memories (isFull : Nat → Bool) (fresh : Nat → RecordStream.Record size) (i : Nat)
    (reads : List (Read size)) (adds : List (RecordStream.Record size))
    (rest : List (Option (RecordStream.Record size)))
    (read : memories fresh i reads = adds.map some ++ rest)
    (room : ∀ j, j < adds.length → isFull (i + j) = false) :
    ∃ later, memories fresh (i + adds.length) later = rest ∧
      RecordStream.receive isFull fresh i reads =
      (adds ++ (RecordStream.receive isFull fresh (i + adds.length) later).1,
        (RecordStream.receive isFull fresh (i + adds.length) later).2) := by
  induction adds generalizing i reads with
  | nil => exact ⟨reads, read, rfl⟩
  | cons record adds ih =>
      obtain ⟨behind, onward, pass⟩ := receive_memory isFull fresh i reads record _ read
      have here := room 0 (Nat.succ_pos _)
      rw [Nat.add_zero] at here
      obtain ⟨later, ends, passes⟩ := ih (i + 1) behind onward fun j inside => by
        have next := room (j + 1) (Nat.succ_lt_succ inside)
        rwa [← Nat.add_assoc, Nat.add_right_comm] at next
      have count : i + 1 + adds.length = i + (record :: adds).length := by
        rw [List.length_cons]
        omega
      rw [count] at ends passes
      refine ⟨later, ends, ?_⟩
      rw [pass, here, if_neg Bool.false_ne_true, passes]
      rfl

/-- What the loop has done at a stage of the thread: the records added, with the one on the way to
the buffer, and where it stands. -/
def soFar (log : Log (RecordStream.Record size)) :
    Receiving (RecordStream.Record size) → List (RecordStream.Record size) × Stage
  | .locking record | .testing record | .adding record => (log.adds ++ [record], .reading)
  | .waiting _ => (log.adds, .waiting)
  | .closing | .ended => (log.adds, .closed)
  | _ => (log.adds, .reading)

def Log.isFull {Record : Type} (log : Log Record) (i : Nat) : Bool := log.tests.getD i false

theorem isFull_before {Record : Type} (log : Log Record) (more : List Bool)
    (tests : log.tests = List.replicate log.adds.length false ++ more) (i : Nat)
    (inside : i < log.adds.length) :
    log.isFull i = false := by
  have first : i < (List.replicate log.adds.length false).length := by simpa using inside
  rw [Log.isFull, tests, List.getD_eq_getElem?_getD, List.getElem?_append_left first]
  simp [inside]

theorem isFull_last {Record : Type} (log : Log Record) (more : List Bool)
    (tests : log.tests = List.replicate log.adds.length false ++ more) :
    log.isFull log.adds.length = more.headD false := by
  cases more <;> simp [Log.isFull, tests, List.getD_eq_getElem?_getD]

theorem memories_nil (fresh : Nat → RecordStream.Record size) (i : Nat) (reads : List (Read size))
    (none' : memories fresh i reads = []) : reads = [] := by
  cases reads with
  | nil => rfl
  | cons read => cases read <;> simp [memories] at none'

theorem receive_inHand (isFull : Nat → Bool) (fresh : Nat → RecordStream.Record size)
    (reads : List (Read size)) (adds : List (RecordStream.Record size))
    (record : RecordStream.Record size)
    (read : memories fresh 0 reads = adds.map some ++ [some record])
    (room : ∀ j, j < adds.length → isFull j = false) :
    RecordStream.receive isFull fresh 0 reads =
      if isFull adds.length then (adds, .waiting) else (adds ++ [record], .reading) := by
  obtain ⟨later, ends, passes⟩ :=
    receive_memories isFull fresh 0 reads adds _ read fun j inside => by
    rw [Nat.zero_add]
    exact room j inside
  rw [Nat.zero_add] at ends passes
  obtain ⟨last, stops, pass⟩ := receive_memory isFull fresh adds.length later record [] ends
  have ended := memories_nil fresh _ last stops
  subst ended
  rw [passes, pass]
  by_cases full : isFull adds.length = true
  · rw [if_pos full, if_pos full, List.append_nil]
  · rw [if_neg full, if_neg full]
    rfl

/-- What the loop of `RecordStream` says of the thread's reads is what the thread has done. -/
theorem ledger_receives (fresh : Nat → RecordStream.Record size) (reads : List (Read size))
    (log : Log (RecordStream.Record size)) (stage : Receiving (RecordStream.Record size))
    (ledger : Ledger stage log)
    (read : memories fresh 0 reads = log.reads) :
    RecordStream.receive log.isFull fresh 0 reads = soFar log stage := by
  cases stage with
  | absent =>
      have empty : log = ⟨[], [], []⟩ := ledger
      subst empty
      rw [memories_nil fresh 0 reads read]
      rfl
  | reading | signalling | unlocking =>
      obtain ⟨all, tests⟩ := ledger
      have room := isFull_before log [] (by rw [tests, List.append_nil])
      obtain ⟨later, ends, passes⟩ := receive_memories log.isFull fresh 0 reads log.adds []
        (by rw [read, all, List.append_nil]) fun j inside => by
          rw [Nat.zero_add]
          exact room j inside
      rw [passes, memories_nil fresh _ later ends]
      simp [RecordStream.receive, soFar]
  | locking record | testing record =>
      obtain ⟨all, tests⟩ := ledger
      have split : log.tests = List.replicate log.adds.length false ++
          [] := by rw [tests, List.append_nil]
      rw [receive_inHand log.isFull fresh reads log.adds record (read.trans all)
        (isFull_before log _ split), isFull_last log _ split]
      rfl
  | adding record | waiting record =>
      obtain ⟨all, tests⟩ := ledger
      rw [receive_inHand log.isFull fresh reads log.adds record (read.trans all)
        (isFull_before log _ tests), isFull_last log _ tests]
      rfl
  | closing | ended =>
      obtain ⟨all, tests⟩ := ledger
      have room := isFull_before log [] (by rw [tests, List.append_nil])
      obtain ⟨later, ends, passes⟩ := receive_memories log.isFull fresh 0 reads log.adds [none]
        (by rw [read, all]) fun j inside => by
          rw [Nat.zero_add]
          exact room j inside
      cases later with
      | nil => simp [memories] at ends
      | cons first later =>
          cases first with
          | eof =>
              rw [passes]
              simp [RecordStream.receive, soFar]
          | bytes => simp [memories] at ends
          | error => simp [memories] at ends

/-- In any run of the server, a thread has done what the loop of `RecordStream` does with the
thread's own reads, given what `IsFull` said to it. -/
theorem run_receives (n : Nat) (junk : Int) (events : List (Event (RecordStream.Record size)))
    (fresh : Nat → RecordStream.Record size) (reads : List (Read size))
    (read : memories fresh 0 reads = (observed n junk events).2.reads) :
    RecordStream.receive (observed n junk events).2.isFull fresh 0 reads =
      soFar (observed n junk events).2 ((run step (start junk) events).receivers n) :=
  ledger_receives fresh reads _ _ (ledger_run n junk events) read

end

end LazyAS.ReceiverRecords

import LazyAS.Monitor
import LazyAS.Runs

/-! The server of the data collector, DataReceiver.cpp and ReceiveBuffer.cpp: the accept
loop, the receive threads it creates and the save thread, over one buffer behind a mutex
with the conditions `full` and `empty`. A step is one call of one thread; a step that its
thread cannot take changes nothing. An open descriptor is mapped to the accept call that
returned it. `mutex2` and the heart beat only delay the save thread and are left out, and
a failed accept call is followed by `exit`, which ends the list of steps. -/
namespace LazyAS.DataReceiver
open Monitor Runs

def MAX : Nat := 100

variable {Record : Type}

/-! The buffer of ReceiveBuffer.cpp. -/

def IsFull (buffer : List Record) : Bool := buffer.length == MAX

def IsEmpty (buffer : List Record) : Bool := buffer.isEmpty

def Add (buffer : List Record) (record : Record) : List Record := buffer ++ [record]

/-- What `Get` leaves; the record itself goes to the database. -/
def Get (buffer : List Record) : List Record := buffer.tail

/-! The threads. -/

inductive Thread where
  | receiver (n : Nat)
  | saver
  deriving DecidableEq, Repr

inductive Cond where
  | full | empty
  deriving DecidableEq, Repr

/-- Where `receive` is; the record is the one in its hands. -/
inductive Receiving (Record : Type) where
  | absent
  | reading
  | locking (record : Record)
  | testing (record : Record)
  | waiting (record : Record)
  | adding (record : Record)
  | signalling
  | unlocking
  | closing
  | ended

inductive Saving where
  | locking | testing | waiting | taking | signalling | unlocking
  deriving DecidableEq, Repr

inductive Accepting where
  | accepting | creating | failed
  deriving DecidableEq, Repr

/-- A `read` or `close` of a receive thread and the connection it went to, if any. -/
structure Call where
  receiver : Nat
  socket : Option Nat
  deriving DecidableEq, Repr

/-- `client` is the storage of the loop's variable; `receivers n` is the thread created
after the accept call number `n`; `calls` records what the receive threads did. -/
structure State (Record : Type) where
  client : Int
  sockets : Int → Option Nat
  accepted : Nat
  loop : Accepting
  receivers : Nat → Receiving Record
  saving : Saving
  mutex : Mutex Thread Cond
  buffer : List Record
  calls : List Call

/-- Nobody is connected; the variable still holds what its storage held before. -/
def start (junk : Int) : State Record where
  client := junk
  sockets := fun _ => none
  accepted := 0
  loop := .accepting
  receivers := fun _ => .absent
  saving := .locking
  mutex := unused
  buffer := []
  calls := []

def State.goto (s : State Record) (n : Nat) (stage : Receiving Record) : State Record :=
  { s with receivers := Function.update s.receivers n stage }

/-- `*(int*)client` is evaluated when the call is made. -/
def State.call (s : State Record) (n : Nat) : State Record :=
  { s with calls := s.calls ++ [⟨n, s.sockets s.client⟩] }

def State.Resumes (s : State Record) (c : Cond) (t : Thread) : Prop :=
  s.mutex.Free ∧ t ∉ s.mutex.blocked c

instance (s : State Record) (c : Cond) (t : Thread) : Decidable (s.Resumes c t) :=
  inferInstanceAs (Decidable (_ ∧ _))

/-- A step of the receive thread `n`. `read` is what its next read call does: `none` is the
return value 0, otherwise it is the memory of the record afterwards, the bytes received
written over it or, after an error, nothing. Only a connection comes to an end. -/
def receive (s : State Record) (n : Nat) (read : Option Record) : State Record :=
  match s.receivers n with
  | .absent => s
  | .reading =>
      match read with
      | some record => (s.call n).goto n (.locking record)
      | none => if s.sockets s.client = none then s else (s.call n).goto n .closing
  | .locking record =>
      if s.mutex.Free then
        { s with mutex := s.mutex.acquire (.receiver n) }.goto n (.testing record) else s
  | .testing record =>
      if IsFull s.buffer then
        { s with mutex := s.mutex.wait .full (.receiver n) }.goto n (.waiting record)
      else s.goto n (.adding record)
  | .waiting record =>
      if s.Resumes .full (.receiver n) then
        { s with mutex := s.mutex.acquire (.receiver n) }.goto n (.adding record)
      else s
  | .adding record => { s with buffer := Add s.buffer record }.goto n .signalling
  | .signalling => { s with mutex := s.mutex.signal .empty }.goto n .unlocking
  | .unlocking => { s with mutex := s.mutex.release }.goto n .reading
  | .closing => { s.call n with sockets := Function.update s.sockets s.client none }.goto n .ended
  | .ended => s

def save (s : State Record) : State Record :=
  match s.saving with
  | .locking => if s.mutex.Free then { s with mutex := s.mutex.acquire .saver, saving := .testing }
      else s
  | .testing =>
      if IsEmpty s.buffer then { s with mutex := s.mutex.wait .empty .saver, saving := .waiting }
      else { s with saving := .taking }
  | .waiting =>
      if s.Resumes .empty .saver then { s with mutex := s.mutex.acquire .saver, saving := .taking }
        else s
  | .taking => { s with buffer := Get s.buffer, saving := .signalling }
  | .signalling => { s with mutex := s.mutex.signal .empty, saving := .unlocking }
  | .unlocking => { s with mutex := s.mutex.release, saving := .locking }

/-- The accept call of `run` returns; a new descriptor is one that is not open. -/
def accept (s : State Record) (result : Int) : State Record :=
  if s.loop = .accepting then
    if result = -1 then { s with client := -1, loop := .failed }
    else if 0 ≤ result ∧ s.sockets result = none then
      { s with
        client := result
        sockets := Function.update s.sockets result (some s.accepted)
        accepted := s.accepted + 1
        loop := .creating }
    else s
  else s

/-- `pthread_create(&thread2, 0, receive, &client)`, whose result is not looked at. -/
def create (s : State Record) (created : Bool) : State Record :=
  if s.loop = .creating then
    let s := if created then s.goto (s.accepted - 1) .reading else s
    { s with loop := .accepting }
  else s

inductive Event (Record : Type) where
  | accept (result : Int)
  | create (created : Bool)
  | receive (n : Nat) (read : Option Record)
  | save

def step (s : State Record) : Event Record → State Record
  | .accept result => accept s result
  | .create created => create s created
  | .receive n read => receive s n read
  | .save => save s

/-! What a step can do. -/

/-- What a step of the receive thread `n` can do. -/
inductive Receives (s : State Record) (n : Nat) : State Record → Prop where
  | stay : Receives s n s
  | read (record : Record) (here : s.receivers n = .reading) :
      Receives s n ((s.call n).goto n (.locking record))
  | finish (here : s.receivers n = .reading) (connected : s.sockets s.client ≠ none) :
      Receives s n ((s.call n).goto n .closing)
  | lock (record : Record) (here : s.receivers n = .locking record) (free : s.mutex.Free) :
      Receives s n ({ s with mutex := s.mutex.acquire (.receiver n) }.goto n (.testing record))
  | wait (record : Record) (here : s.receivers n = .testing record)
      (isFull : s.buffer.length = MAX) :
      Receives s n ({ s with mutex := s.mutex.wait .full (.receiver n) }.goto n (.waiting record))
  | pass (record : Record) (here : s.receivers n = .testing record) (room : s.buffer.length ≠ MAX) :
      Receives s n (s.goto n (.adding record))
  | resume (record : Record) (here : s.receivers n = .waiting record)
      (resumes : s.Resumes .full (.receiver n)) :
      Receives s n ({ s with mutex := s.mutex.acquire (.receiver n) }.goto n (.adding record))
  | add (record : Record) (here : s.receivers n = .adding record) :
      Receives s n ({ s with buffer := Add s.buffer record }.goto n .signalling)
  | signal (here : s.receivers n = .signalling) :
      Receives s n ({ s with mutex := s.mutex.signal .empty }.goto n .unlocking)
  | unlock (here : s.receivers n = .unlocking) :
      Receives s n ({ s with mutex := s.mutex.release }.goto n .reading)
  | close (here : s.receivers n = .closing) :
      Receives s n ({ s.call n with sockets := Function.update s.sockets s.client none }.goto n
        .ended)

theorem receive_receives (s : State Record) (n : Nat) (read : Option Record) :
    Receives s n (receive s n read) := by
  cases stage : s.receivers n with
  | absent | ended =>
      simp only [receive, stage]
      exact .stay
  | reading =>
      cases read with
      | some record =>
          simp only [receive, stage]
          exact .read record stage
      | none =>
          simp only [receive, stage]
          split
          case isTrue => exact .stay
          case isFalse connected => exact .finish stage connected
  | locking record =>
      simp only [receive, stage]
      split
      case isTrue free => exact .lock record stage free
      case isFalse => exact .stay
  | testing record =>
      simp only [receive, stage]
      split
      case isTrue isFull => exact .wait record stage (by simpa [IsFull] using isFull)
      case isFalse room => exact .pass record stage (by simpa [IsFull] using room)
  | waiting record =>
      simp only [receive, stage]
      split
      case isTrue resumes => exact .resume record stage resumes
      case isFalse => exact .stay
  | adding record =>
      simp only [receive, stage]
      exact .add record stage
  | signalling =>
      simp only [receive, stage]
      exact .signal stage
  | unlocking =>
      simp only [receive, stage]
      exact .unlock stage
  | closing =>
      simp only [receive, stage]
      exact .close stage

inductive Saves (s : State Record) : State Record → Prop where
  | stay : Saves s s
  | lock (here : s.saving = .locking) (free : s.mutex.Free) :
      Saves s { s with mutex := s.mutex.acquire .saver, saving := .testing }
  | wait (here : s.saving = .testing) (isEmpty : s.buffer = []) :
      Saves s { s with mutex := s.mutex.wait .empty .saver, saving := .waiting }
  | pass (here : s.saving = .testing) (stocked : s.buffer ≠ []) :
      Saves s { s with saving := .taking }
  | resume (here : s.saving = .waiting) (resumes : s.Resumes .empty .saver) :
      Saves s { s with mutex := s.mutex.acquire .saver, saving := .taking }
  | take (here : s.saving = .taking) :
      Saves s { s with buffer := Get s.buffer, saving := .signalling }
  | signal (here : s.saving = .signalling) :
      Saves s { s with mutex := s.mutex.signal .empty, saving := .unlocking }
  | unlock (here : s.saving = .unlocking) :
      Saves s { s with mutex := s.mutex.release, saving := .locking }

theorem save_saves (s : State Record) : Saves s (save s) := by
  cases stage : s.saving with
  | locking =>
      simp only [save, stage]
      split
      case isTrue free => exact .lock stage free
      case isFalse => exact .stay
  | testing =>
      simp only [save, stage]
      split
      case isTrue isEmpty => exact .wait stage (by simpa [IsEmpty] using isEmpty)
      case isFalse stocked => exact .pass stage (by simpa [IsEmpty] using stocked)
  | waiting =>
      simp only [save, stage]
      split
      case isTrue resumes => exact .resume stage resumes
      case isFalse => exact .stay
  | taking =>
      simp only [save, stage]
      exact .take stage
  | signalling =>
      simp only [save, stage]
      exact .signal stage
  | unlocking =>
      simp only [save, stage]
      exact .unlock stage

inductive Accepts (s : State Record) : State Record → Prop where
  | stay : Accepts s s
  | fail (here : s.loop = .accepting) : Accepts s { s with client := -1, loop := .failed }
  | connect (result : Int) (here : s.loop = .accepting) (descriptor : 0 ≤ result)
      (unopened : s.sockets result = none) :
      Accepts s
        { s with
          client := result
          sockets := Function.update s.sockets result (some s.accepted)
          accepted := s.accepted + 1
          loop := .creating }

theorem accept_accepts (s : State Record) (result : Int) : Accepts s (accept s result) := by
  simp only [accept]
  split
  case isTrue here =>
      split
      case isTrue => exact .fail here
      case isFalse =>
          split
          case isTrue opens => exact .connect result here opens.1 opens.2
          case isFalse => exact .stay
  case isFalse => exact .stay

inductive Creates (s : State Record) : State Record → Prop where
  | stay : Creates s s
  | fail (here : s.loop = .creating) : Creates s { s with loop := .accepting }
  | create (here : s.loop = .creating) : Creates s { s.goto (s.accepted - 1) .reading with
      loop := .accepting }

theorem create_creates (s : State Record) (created : Bool) : Creates s (create s created) := by
  simp only [create]
  split
  case isTrue here =>
      cases created with
      | false => exact .fail here
      | true => exact .create here
  case isFalse => exact .stay

/-! Which receivers exist. -/

theorem others_receive {s s' : State Record} {n : Nat} (move : Receives s n s') (m : Nat)
    (other : m ≠ n) :
    s'.receivers m = s.receivers m := by
  cases move <;> simp [State.goto, State.call, other]

theorem absent_receives {s s' : State Record} {n : Nat} (move : Receives s n s') (m : Nat) :
    s'.receivers m = .absent ↔ s.receivers m = .absent := by
  by_cases self : m = n
  · subst self
    cases move <;> simp_all [State.goto]
  · rw [others_receive move m self]

theorem receives_frame {s s' : State Record} {n : Nat} (move : Receives s n s') :
    s'.client = s.client ∧ s'.accepted = s.accepted ∧ s'.loop = s.loop ∧ s'.saving = s.saving := by
  cases move <;> simp [State.goto, State.call]

theorem saves_frame {s s' : State Record} (move : Saves s s') :
    s'.client = s.client ∧ s'.accepted = s.accepted ∧ s'.loop = s.loop ∧
      s'.receivers = s.receivers ∧
      s'.sockets = s.sockets ∧ s'.calls = s.calls := by
  cases move <;> simp

theorem accepts_frame {s s' : State Record} (move : Accepts s s') :
    s'.receivers = s.receivers ∧ s'.saving = s.saving ∧ s'.mutex = s.mutex ∧ s'.buffer = s.buffer ∧
      s'.calls = s.calls := by
  cases move <;> simp

theorem creates_frame {s s' : State Record} (move : Creates s s') :
    s'.client = s.client ∧ s'.sockets = s.sockets ∧ s'.accepted = s.accepted ∧
      s'.saving = s.saving ∧
      s'.mutex = s.mutex ∧ s'.buffer = s.buffer ∧ s'.calls = s.calls := by
  cases move <;> simp [State.goto]

/-- Receivers are numbered by accept calls, and the newest one is not created before its step. -/
structure Numbered (s : State Record) : Prop where
  created : ∀ n, s.receivers n ≠ .absent → n < s.accepted
  fresh : s.loop = .creating → 0 < s.accepted ∧ s.receivers (s.accepted - 1) = .absent

theorem receivers_creates {s s' : State Record} (move : Creates s s') (numbered : Numbered s)
    (n : Nat) :
    s'.receivers n = s.receivers n ∨ (s.receivers n = .absent ∧ s'.receivers n = .reading) := by
  cases move with
  | stay | fail => exact Or.inl rfl
  | create creating =>
      by_cases newest : n = s.accepted - 1
      · right
        constructor
        · rw [newest]
          exact (numbered.fresh creating).2
        · simp [State.goto, newest]
      · left
        simp [State.goto, newest]

theorem numbered_accepts {s s' : State Record} (move : Accepts s s') (ok : Numbered s) :
    Numbered s' := by
  cases move with
  | stay => exact ok
  | fail =>
      constructor
      · exact ok.created
      · intro creating
        cases creating
  | connect =>
      constructor
      · intro n present
        exact Nat.lt_succ_of_lt (ok.created n present)
      · intro _
        constructor
        · exact Nat.succ_pos _
        · by_contra present
          exact Nat.lt_irrefl _ (ok.created _ present)

theorem numbered_creates {s s' : State Record} (move : Creates s s') (ok : Numbered s) :
    Numbered s' := by
  cases move with
  | stay => exact ok
  | fail =>
      constructor
      · exact ok.created
      · intro creating
        cases creating
  | create creating =>
      have newest := ok.fresh creating
      constructor
      · intro n present
        by_cases self : n = s.accepted - 1
        · change n < s.accepted
          omega
        · apply ok.created n
          simpa [State.goto, self] using present
      · intro creating
        cases creating

theorem numbered_receives {s s' : State Record} {n : Nat} (move : Receives s n s')
    (ok : Numbered s) :
    Numbered s' := by
  obtain ⟨-, accepted, loop, -⟩ := receives_frame move
  constructor
  · intro m present
    rw [accepted]
    apply ok.created m
    rw [ne_eq, ← absent_receives move m]
    exact present
  · intro creating
    rw [absent_receives move, accepted]
    exact ok.fresh (loop.symm.trans creating)

theorem numbered_saves {s s' : State Record} (move : Saves s s') (ok : Numbered s) :
    Numbered s' := by
  obtain ⟨-, accepted, loop, receivers, -⟩ := saves_frame move
  constructor
  · rw [receivers, accepted]
    exact ok.created
  · rw [receivers, accepted, loop]
    exact ok.fresh

theorem numbered_step (s : State Record) (event : Event Record) (ok : Numbered s) :
    Numbered (step s event) := by
  cases event with
  | accept result => exact numbered_accepts (accept_accepts s result) ok
  | create created => exact numbered_creates (create_creates s created) ok
  | receive n read => exact numbered_receives (receive_receives s n read) ok
  | save => exact numbered_saves (save_saves s) ok

/-! Who holds the mutex. -/

def Receiving.Inside : Receiving Record → Prop
  | .testing _ | .adding _ | .signalling | .unlocking => True
  | _ => False

def Saving.Inside : Saving → Prop
  | .testing | .taking | .signalling | .unlocking => True
  | _ => False

def State.Inside (s : State Record) : Thread → Prop
  | .receiver n => (s.receivers n).Inside
  | .saver => s.saving.Inside

theorem inside_goto (s : State Record) (n : Nat) (stage : Receiving Record) :
    (s.goto n stage).Inside (.receiver n) ↔ stage.Inside := by
  simp [State.Inside, State.goto]

theorem inside_others (s : State Record) (n : Nat) (stage : Receiving Record) (t : Thread)
    (other : t ≠ .receiver n) : (s.goto n stage).Inside t ↔ s.Inside t := by
  cases t with
  | saver => exact Iff.rfl
  | receiver m =>
      have different : m ≠ n := fun same => other (by rw [same])
      simp [State.Inside, State.goto, different]

theorem owned_goto (s s' : State Record) (n : Nat) (stage : Receiving Record)
    (owned : Owned s.Inside s.mutex) (inside : ∀ t, s'.Inside t ↔ s.Inside t)
    (held : s'.mutex.holder = s.mutex.holder) (same : stage.Inside ↔ (s.receivers n).Inside) :
    Owned (s'.goto n stage).Inside s'.mutex := by
  apply owned.keep held
  intro t
  by_cases self : t = .receiver n
  · subst self
    rw [inside_goto]
    exact same
  · rw [inside_others s' n stage t self, inside]

theorem owned_receives {s s' : State Record} {n : Nat} (move : Receives s n s')
    (owned : Owned s.Inside s.mutex) :
    Owned s'.Inside s'.mutex := by
  have unchanged : ∀ t, s.Inside t ↔ s.Inside t := fun _ => Iff.rfl
  cases move with
  | stay => exact owned
  | read _ here =>
      exact owned_goto s (s.call n) n _ owned unchanged rfl (by simp [here, Receiving.Inside])
  | finish here =>
      exact owned_goto s (s.call n) n _ owned unchanged rfl (by simp [here, Receiving.Inside])
  | lock _ _ free =>
      apply owned.enter free
      · exact (inside_goto _ n _).mpr trivial
      · exact inside_others _ n _
  | resume _ _ resumes =>
      apply owned.enter resumes.1
      · exact (inside_goto _ n _).mpr trivial
      · exact inside_others _ n _
  | pass _ here => exact owned_goto s s n _ owned unchanged rfl (by simp [here, Receiving.Inside])
  | add record here =>
      exact owned_goto s { s with buffer := Add s.buffer record } n _ owned unchanged rfl
        (by simp [here, Receiving.Inside])
  | signal here =>
      exact owned_goto s { s with mutex := s.mutex.signal .empty } n _ owned unchanged rfl
        (by simp [here, Receiving.Inside])
  | wait _ here | unlock here =>
      apply owned.leave (t := .receiver n)
      · simp [State.Inside, here, Receiving.Inside]
      · rfl
      · simp [State.Inside, State.goto, Receiving.Inside]
      · exact inside_others _ n _
  | close here =>
      exact owned_goto s { s.call n with sockets := Function.update s.sockets s.client none } n
        _ owned unchanged rfl
        (by simp [here, Receiving.Inside])

theorem inside_saving {s s' : State Record} (same : s'.receivers = s.receivers) (t : Thread)
    (other : t ≠ .saver) :
    s'.Inside t ↔ s.Inside t := by
  cases t with
  | saver => exact absurd rfl other
  | receiver n => simp [State.Inside, same]

theorem owned_saving {s s' : State Record} (owned : Owned s.Inside s.mutex)
    (receivers : s'.receivers = s.receivers) (held : s'.mutex.holder = s.mutex.holder)
    (same : s'.saving.Inside ↔ s.saving.Inside) :
    Owned s'.Inside s'.mutex := by
  apply owned.keep held
  intro t
  by_cases self : t = .saver
  · subst self
    exact same
  · exact inside_saving receivers t self

theorem owned_saves {s s' : State Record} (move : Saves s s') (owned : Owned s.Inside s.mutex) :
    Owned s'.Inside s'.mutex := by
  cases move with
  | stay => exact owned
  | lock _ free => exact owned.enter free trivial (inside_saving rfl)
  | resume _ resumes => exact owned.enter resumes.1 trivial (inside_saving rfl)
  | pass here => exact owned_saving owned rfl rfl (by simp [here, Saving.Inside])
  | take here => exact owned_saving owned rfl rfl (by simp [here, Saving.Inside])
  | signal here => exact owned_saving owned rfl rfl (by simp [here, Saving.Inside])
  | wait here | unlock here =>
      apply owned.leave (t := .saver)
      · simp [State.Inside, here, Saving.Inside]
      · rfl
      · simp [State.Inside, Saving.Inside]
      · exact inside_saving rfl

theorem owned_accepts {s s' : State Record} (move : Accepts s s') (owned : Owned s.Inside s.mutex) :
    Owned s'.Inside s'.mutex := by
  cases move with
  | stay | fail | connect => exact owned

theorem owned_creates {s s' : State Record} (move : Creates s s') (numbered : Numbered s)
    (owned : Owned s.Inside s.mutex) : Owned s'.Inside s'.mutex := by
  cases move with
  | stay | fail => exact owned
  | create creating =>
      have absent := (numbered.fresh creating).2
      exact owned_goto s s (s.accepted - 1) .reading owned (fun _ => Iff.rfl) rfl
        (by simp [absent, Receiving.Inside])

theorem owned_step (s : State Record) (event : Event Record) (numbered : Numbered s)
    (owned : Owned s.Inside s.mutex) : Owned (step s event).Inside (step s event).mutex := by
  cases event with
  | accept result => exact owned_accepts (accept_accepts s result) owned
  | create created => exact owned_creates (create_creates s created) numbered owned
  | receive n read => exact owned_receives (receive_receives s n read) owned
  | save => exact owned_saves (save_saves s) owned

/-! Waiting for room. -/

def Receiving.Waits : Receiving Record → Prop
  | .waiting _ => True
  | _ => False

/-- Waiting on `full` are exactly the receivers that went there: nobody signals it. -/
def Waiters (s : State Record) : Prop :=
  ∀ t, t ∈ s.mutex.blocked .full ↔ ∃ n, t = .receiver n ∧ (s.receivers n).Waits

theorem waiters_goto (s s' : State Record) (n : Nat) (stage : Receiving Record)
    (waiters : Waiters s) (receivers : s'.receivers = s.receivers)
    (blocked : s'.mutex.blocked .full = s.mutex.blocked .full) (before : ¬ (s.receivers n).Waits)
    (after : ¬ stage.Waits) : Waiters (s'.goto n stage) := by
  intro t
  change t ∈ s'.mutex.blocked .full ↔ ∃ m, t = .receiver m ∧
    (Function.update s'.receivers n stage m).Waits
  rw [blocked, receivers, waiters t]
  apply exists_congr
  intro m
  by_cases self : m = n
  · subst self
    simp [before, after]
  · simp [self]

theorem waiters_receives {s s' : State Record} {n : Nat} (move : Receives s n s')
    (waiters : Waiters s) :
    Waiters s' := by
  cases move with
  | stay => exact waiters
  | read _ here | finish here | lock _ here | pass _ here | add _ here | unlock here | close here =>
      apply waiters_goto s _ n _ waiters <;> simp [here, Receiving.Waits, State.call]
  | signal here =>
      apply waiters_goto s _ n _ waiters <;> simp [here, Receiving.Waits]
  | wait record here =>
      intro t
      change t ∈ (s.mutex.wait .full (.receiver n)).blocked .full ↔
        ∃ m, t = .receiver m ∧ (Function.update s.receivers n (.waiting record) m).Waits
      -- the thread joins the list as it goes to wait
      rw [wait_here, List.mem_append, List.mem_singleton, waiters t]
      constructor
      · rintro (⟨m, rfl, waits⟩ | rfl)
        · have other : m ≠ n := by
            rintro rfl
            rw [here] at waits
            exact waits
          exact ⟨m, rfl, by simpa [other] using waits⟩
        · exact ⟨n, rfl, by simp [Receiving.Waits]⟩
      · rintro ⟨m, rfl, waits⟩
        by_cases self : m = n
        · exact Or.inr (by rw [self])
        · exact Or.inl ⟨m, rfl, by simpa [self] using waits⟩
  | resume _ here resumes =>
      -- nobody takes a receiver off the list, so it never resumes
      have listed := (waiters (.receiver n)).mpr ⟨n, rfl, by simp [here, Receiving.Waits]⟩
      exact absurd listed resumes.2

theorem waiters_saves {s s' : State Record} (move : Saves s s') (waiters : Waiters s) :
    Waiters s' := by
  have blocked : s'.mutex.blocked .full = s.mutex.blocked .full := by
    cases move <;> simp
  obtain ⟨-, -, -, receivers, -⟩ := saves_frame move
  intro t
  rw [blocked, receivers]
  exact waiters t

theorem waiters_accepts {s s' : State Record} (move : Accepts s s') (waiters : Waiters s) :
    Waiters s' := by
  cases move with
  | stay | fail | connect => exact waiters

theorem waiters_creates {s s' : State Record} (move : Creates s s') (numbered : Numbered s)
    (waiters : Waiters s) :
    Waiters s' := by
  cases move with
  | stay | fail => exact waiters
  | create creating =>
      have absent := (numbered.fresh creating).2
      exact waiters_goto s s (s.accepted - 1) .reading waiters rfl rfl
        (by simp [absent, Receiving.Waits])
        (by simp [Receiving.Waits])

theorem waiters_step (s : State Record) (event : Event Record) (numbered : Numbered s)
    (waiters : Waiters s) :
    Waiters (step s event) := by
  cases event with
  | accept result => exact waiters_accepts (accept_accepts s result) waiters
  | create created => exact waiters_creates (create_creates s created) numbered waiters
  | receive n read => exact waiters_receives (receive_receives s n read) waiters
  | save => exact waiters_saves (save_saves s) waiters

/-! The buffer. -/

/-- The buffer is within its bound, and whoever adds next finds room. -/
structure Bounded (s : State Record) : Prop where
  bounded : s.buffer.length ≤ MAX
  room : ∀ n record, s.receivers n = .adding record → s.buffer.length < MAX

theorem bounded_goto (s s' : State Record) (n : Nat) (stage : Receiving Record) (ok : Bounded s)
    (receivers : s'.receivers = s.receivers) (buffer : s'.buffer = s.buffer)
    (adding : ∀ record, stage = .adding record → s.buffer.length < MAX) :
    Bounded (s'.goto n stage) := by
  constructor
  · change s'.buffer.length ≤ MAX
    rw [buffer]
    exact ok.bounded
  · intro m record adds
    change s'.buffer.length < MAX
    rw [buffer]
    by_cases self : m = n
    · exact adding record (by simpa [State.goto, self] using adds)
    · exact ok.room m record (by simpa [State.goto, self, receivers] using adds)

theorem bounded_receives {s s' : State Record} {n : Nat} (move : Receives s n s')
    (owned : Owned s.Inside s.mutex) (waiters : Waiters s) (ok : Bounded s) : Bounded s' := by
  cases move with
  | stay => exact ok
  | read | finish | lock | wait | signal | unlock | close =>
      apply bounded_goto s _ n _ ok <;> simp [State.call]
  | pass _ _ room =>
      have below := ok.bounded
      exact bounded_goto s s n _ ok rfl rfl fun _ _ => by omega
  | resume _ here resumes =>
      have listed := (waiters (.receiver n)).mpr ⟨n, rfl, by simp [here, Receiving.Waits]⟩
      exact absurd listed resumes.2
  | add record here =>
      have below := ok.room n record here
      constructor
      · change (s.buffer ++ [record]).length ≤ MAX
        rw [List.length_append, List.length_singleton]
        omega
      · intro m other adds
        -- The one that adds holds the mutex, so nobody else is about to add.
        have different : m ≠ n := by
          rintro rfl
          simp [State.goto] at adds
        have alone : Thread.receiver m = .receiver n := by
          apply owned.alone
          · simp only [State.Inside]
            simp only [State.goto, Function.update_of_ne different] at adds
            simp [adds, Receiving.Inside]
          · simp [State.Inside, here, Receiving.Inside]
        exact absurd (Thread.receiver.inj alone) different

theorem bounded_saves {s s' : State Record} (move : Saves s s') (ok : Bounded s) : Bounded s' := by
  obtain ⟨-, -, -, receivers, -⟩ := saves_frame move
  have shrinks : s'.buffer.length ≤ s.buffer.length := by
    cases move <;> simp [Get]
  constructor
  · exact Nat.le_trans shrinks ok.bounded
  · intro n record adds
    rw [receivers] at adds
    exact Nat.lt_of_le_of_lt shrinks (ok.room n record adds)

theorem bounded_accepts {s s' : State Record} (move : Accepts s s') (ok : Bounded s) :
    Bounded s' := by
  cases move with
  | stay | fail | connect =>
      constructor
      · exact ok.bounded
      · exact ok.room

theorem bounded_creates {s s' : State Record} (move : Creates s s') (ok : Bounded s) :
    Bounded s' := by
  cases move with
  | stay | fail =>
      constructor
      · exact ok.bounded
      · exact ok.room
  | create =>
      have moved := bounded_goto s s (s.accepted - 1) .reading ok rfl rfl (by simp)
      constructor
      · exact moved.bounded
      · exact moved.room

theorem bounded_step (s : State Record) (event : Event Record) (owned : Owned s.Inside s.mutex)
    (waiters : Waiters s) (ok : Bounded s) : Bounded (step s event) := by
  cases event with
  | accept result => exact bounded_accepts (accept_accepts s result) ok
  | create created => exact bounded_creates (create_creates s created) ok
  | receive n read => exact bounded_receives (receive_receives s n read) owned waiters ok
  | save => exact bounded_saves (save_saves s) ok

structure Guarded (s : State Record) : Prop where
  numbered : Numbered s
  owned : Owned s.Inside s.mutex
  waiters : Waiters s
  bounded : Bounded s

theorem guarded_step (s : State Record) (event : Event Record) (ok : Guarded s) :
    Guarded (step s event) where
  numbered := numbered_step s event ok.numbered
  owned := owned_step s event ok.numbered ok.owned
  waiters := waiters_step s event ok.numbered ok.waiters
  bounded := bounded_step s event ok.owned ok.waiters ok.bounded

theorem guarded_start (junk : Int) : Guarded (start junk : State Record) where
  numbered := ⟨fun n present => absurd rfl present, nofun⟩
  owned := by
    intro t
    cases t <;> simp [start, unused, State.Inside, Receiving.Inside, Saving.Inside]
  waiters := by
    intro t
    simp [start, unused, Receiving.Waits]
  bounded := ⟨Nat.zero_le _, fun _ _ adds => by simp [start] at adds⟩

theorem waits_receives {s s' : State Record} {m : Nat} (move : Receives s m s')
    (waiters : Waiters s) (n : Nat) (record : Record) (waits : s.receivers n = .waiting record) :
    s'.receivers n = .waiting record := by
  by_cases self : n = m
  · subst self
    cases move with
    | stay => exact waits
    | resume _ _ resumes =>
        have listed := (waiters (.receiver n)).mpr ⟨n, rfl, by simp [waits, Receiving.Waits]⟩
        exact absurd listed resumes.2
    | _ => simp_all
  · rw [others_receive move n self]
    exact waits

theorem waits_step (s : State Record) (event : Event Record) (ok : Guarded s) (n : Nat)
    (record : Record) (waits : s.receivers n = .waiting record) :
    (step s event).receivers n = .waiting record := by
  cases event with
  | accept result =>
      rw [step, (accepts_frame (accept_accepts s result)).1]
      exact waits
  | create created =>
      change (create s created).receivers n = _
      rcases receivers_creates (create_creates s created) ok.numbered n with same | ⟨absent, -⟩
      · rw [same]
        exact waits
      · rw [absent] at waits
        cases waits
  | receive m read => exact waits_receives (receive_receives s m read) ok.waiters n record waits
  | save =>
      obtain ⟨-, -, -, receivers, -⟩ := saves_frame (save_saves s)
      change (save s).receivers n = _
      rw [receivers]
      exact waits

theorem waits_forever (s : State Record) (ok : Guarded s) (n : Nat) (record : Record)
    (waits : s.receivers n = .waiting record) (events : List (Event Record)) :
    (run step s events).receivers n = .waiting record :=
  (run_invariant (fun s => Guarded s ∧ s.receivers n = .waiting record) ⟨ok, waits⟩
    (fun s event both => ⟨guarded_step s event both.1, waits_step s event both.1 n record both.2⟩)
      events).2

end LazyAS.DataReceiver

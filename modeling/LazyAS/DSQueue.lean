import LazyAS.CircularBuffer
import LazyAS.ClosableQueue
import LazyAS.Monitor
import LazyAS.Runs

/-! The queue of the data collector, `buffer.c`: any number of threads put items into one `DSQueue`,
take them out, count them and close it. A step is one call or some statements of one thread; a step
that its thread cannot take changes nothing, and `pthread_cond_wait` may also return by itself. A
failed assertion ends the program. The counters have the type `uint32_t`; an item is a pointer that
is not null. -/
namespace LazyAS.DSQueue
open CircularBuffer ClosableQueue Monitor Runs

variable {Item : Type}

/-- `struct DSQueue` without its mutex and its condition. -/
structure Queue (Item : Type) where
  buf : Nat → Option Item
  pos : Nat
  length : Nat
  capacity : Nat
  closed : Bool

def uint32 (n : Nat) : Nat := n % 2 ^ 32

/-- `ds_queue_create`; `none` is the failed assertion, and `junk` is what `malloc` finds in the
buffer. -/
def dsQueueCreate (junk : Nat → Option Item) (bufferCapacity : Nat) : Option (Queue Item) :=
  if 0 < bufferCapacity then some ⟨junk, 0, 0, bufferCapacity, false⟩ else none

def Queue.store (queue : Queue Item) (item : Item) : Queue Item :=
  { queue with
    buf := Function.update queue.buf (uint32 (queue.pos + queue.length) % queue.capacity)
      (some item)
    length := uint32 (queue.length + 1) }

def Queue.takeOut (queue : Queue Item) : Queue Item :=
  { queue with
    buf := Function.update queue.buf queue.pos none
    pos := uint32 (queue.pos + 1) % queue.capacity
    length := uint32 (queue.length + 2 ^ 32 - 1) }

/-! The threads. -/

inductive Cond where
  | condLength
  deriving DecidableEq

/-- A call of `ds_queue_put`, `ds_queue_get`, `ds_queue_close` or `ds_queue_length`. -/
inductive Request (Item : Type) where
  | put (item : Item)
  | get
  | close
  | length

inductive Assertion where
  | openOnEntry | openAfterWait | room | within | stocked
  deriving DecidableEq

/-- Where a thread is; `done` is what its call has done to the queue. -/
inductive Stage (Item : Type) where
  | idle
  | locking (request : Request Item)
  | entering (item : Item)
  | putTesting (item : Item)
  | putWaiting (item : Item)
  | storing (item : Item)
  | getTesting
  | getWaiting
  | taking
  | closing
  | measuring
  | broadcasting (done : Op Item)
  | unlocking (done : Op Item)

def entered : Request Item → Stage Item
  | .put item => .entering item
  | .get => .getTesting
  | .close => .closing
  | .length => .measuring

/-- `log` has what the calls did to the queue, in that order, and `returned` what the calls of a
thread have answered. -/
structure State (Item : Type) where
  queue : Queue Item
  mutex : Mutex Nat Cond
  stages : Nat → Stage Item
  failed : Option Assertion
  log : List (Nat × Op Item)
  returned : Nat → List (Op Item)

def start (queue : Queue Item) : State Item where
  queue := queue
  mutex := unused
  stages := fun _ => .idle
  failed := none
  log := []
  returned := fun _ => []

def State.goto (s : State Item) (n : Nat) (stage : Stage Item) : State Item :=
  { s with stages := Function.update s.stages n stage }

def State.enter (s : State Item) (n : Nat) (stage : Stage Item) : State Item :=
  { s with mutex := s.mutex.acquire n }.goto n stage

def State.sleep (s : State Item) (n : Nat) (stage : Stage Item) : State Item :=
  { s with mutex := s.mutex.wait .condLength n }.goto n stage

def State.did (s : State Item) (n : Nat) (queue : Queue Item) (done : Op Item)
    (stage : Op Item → Stage Item) :
    State Item :=
  { s with queue := queue, log := s.log ++ [(n, done)] }.goto n (stage done)

def State.fail (s : State Item) (assertion : Assertion) : State Item :=
  { s with failed := some assertion }

def State.Resumes (s : State Item) (n : Nat) : Prop :=
  s.mutex.Free ∧ n ∉ s.mutex.blocked .condLength

instance (s : State Item) (n : Nat) : Decidable (s.Resumes n) := inferInstanceAs (Decidable (_ ∧ _))

def call (s : State Item) (n : Nat) (request : Request Item) : State Item :=
  match s.stages n with
  | .idle => s.goto n (.locking request)
  | _ => s

def advance (s : State Item) (n : Nat) : State Item :=
  match s.stages n with
  | .idle => s
  | .locking request => if s.mutex.Free then s.enter n (entered request) else s
  | .entering item => if s.queue.closed then s.fail .openOnEntry else s.goto n (.putTesting item)
  | .putTesting item =>
      if s.queue.length = s.queue.capacity then s.sleep n (.putWaiting item)
        else s.goto n (.storing item)
  | .putWaiting item => if s.Resumes n then s.enter n (.putTesting item) else s
  | .storing item =>
      if s.queue.closed then s.fail .openAfterWait
      else if s.queue.length < s.queue.capacity then
        s.did n (s.queue.store item) (.put item) .broadcasting
      else s.fail .room
  | .getTesting =>
      if s.queue.length = 0 then
        if s.queue.closed then s.did n s.queue (.got none) .unlocking else s.sleep n .getWaiting
      else s.goto n .taking
  | .getWaiting => if s.Resumes n then s.enter n .getTesting else s
  | .taking =>
      if s.queue.length ≤ s.queue.capacity then
        if 0 < s.queue.length then
          s.did n s.queue.takeOut (.got (s.queue.buf s.queue.pos)) .broadcasting
        else s.fail .stocked
      else s.fail .within
  | .closing => s.did n { s.queue with closed := true } .closed .broadcasting
  | .measuring => s.did n s.queue (.counted s.queue.length) .unlocking
  | .broadcasting done => { s with mutex := s.mutex.broadcast .condLength }.goto n (.unlocking done)
  | .unlocking done =>
      { s with
        mutex := s.mutex.release
        returned := Function.update s.returned n (s.returned n ++ [done]) }.goto n .idle

inductive Event (Item : Type) where
  | call (n : Nat) (request : Request Item)
  | advance (n : Nat)
  | wake (n : Nat)

def step (s : State Item) (event : Event Item) : State Item :=
  if s.failed.isSome then s
  else match event with
    | .call n request => call s n request
    | .advance n => advance s n
    | .wake n => { s with mutex := s.mutex.wake .condLength n }

/-! What a step can do. -/

inductive Moves (s : State Item) : State Item → Prop where
  | stay : Moves s s
  | call (n : Nat) (request : Request Item) (here : s.stages n = .idle) :
      Moves s (s.goto n (.locking request))
  | lock (n : Nat) (request : Request Item) (here : s.stages n = .locking request)
      (free : s.mutex.Free) :
      Moves s (s.enter n (entered request))
  | refuse (n : Nat) (item : Item) (here : s.stages n = .entering item)
      (shut : s.queue.closed = true) :
      Moves s (s.fail .openOnEntry)
  | pass (n : Nat) (item : Item) (here : s.stages n = .entering item) :
      Moves s (s.goto n (.putTesting item))
  | sleepPut (n : Nat) (item : Item) (here : s.stages n = .putTesting item)
      (full : s.queue.length = s.queue.capacity) : Moves s (s.sleep n (.putWaiting item))
  | passPut (n : Nat) (item : Item) (here : s.stages n = .putTesting item)
      (room : s.queue.length ≠ s.queue.capacity) : Moves s (s.goto n (.storing item))
  | resumePut (n : Nat) (item : Item) (here : s.stages n = .putWaiting item)
      (resumes : s.Resumes n) :
      Moves s (s.enter n (.putTesting item))
  | refuseLate (n : Nat) (item : Item) (here : s.stages n = .storing item)
      (shut : s.queue.closed = true) :
      Moves s (s.fail .openAfterWait)
  | store (n : Nat) (item : Item) (here : s.stages n = .storing item)
      (shut : s.queue.closed = false)
      (room : s.queue.length < s.queue.capacity) :
      Moves s (s.did n (s.queue.store item) (.put item) .broadcasting)
  | overflow (n : Nat) (item : Item) (here : s.stages n = .storing item)
      (full : ¬ s.queue.length < s.queue.capacity) : Moves s (s.fail .room)
  | nothing (n : Nat) (here : s.stages n = .getTesting) (none' : s.queue.length = 0)
      (shut : s.queue.closed = true) :
      Moves s (s.did n s.queue (.got none) .unlocking)
  | sleepGet (n : Nat) (here : s.stages n = .getTesting) (none' : s.queue.length = 0)
      (shut : s.queue.closed = false) : Moves s (s.sleep n .getWaiting)
  | passGet (n : Nat) (here : s.stages n = .getTesting) (some' : s.queue.length ≠ 0) :
      Moves s (s.goto n .taking)
  | resumeGet (n : Nat) (here : s.stages n = .getWaiting) (resumes : s.Resumes n) :
      Moves s (s.enter n .getTesting)
  | take (n : Nat) (here : s.stages n = .taking) (some' : 0 < s.queue.length) :
      Moves s (s.did n s.queue.takeOut (.got (s.queue.buf s.queue.pos)) .broadcasting)
  | underflow (n : Nat) (here : s.stages n = .taking) (none' : ¬ 0 < s.queue.length) :
      Moves s (s.fail .stocked)
  | outside (n : Nat) (here : s.stages n = .taking) (long : ¬ s.queue.length ≤ s.queue.capacity) :
      Moves s (s.fail .within)
  | close (n : Nat) (here : s.stages n = .closing) :
      Moves s (s.did n { s.queue with closed := true } .closed .broadcasting)
  | count (n : Nat) (here : s.stages n = .measuring) :
      Moves s (s.did n s.queue (.counted s.queue.length) .unlocking)
  | announce (n : Nat) (done : Op Item) (here : s.stages n = .broadcasting done) :
      Moves s ({ s with mutex := s.mutex.broadcast .condLength }.goto n (.unlocking done))
  | unlock (n : Nat) (done : Op Item) (here : s.stages n = .unlocking done) :
      Moves s ({ s with
        mutex := s.mutex.release
        returned := Function.update s.returned n (s.returned n ++ [done]) }.goto n .idle)
  | wake (n : Nat) : Moves s { s with mutex := s.mutex.wake .condLength n }

theorem advance_moves (s : State Item) (n : Nat) : Moves s (advance s n) := by
  cases stage : s.stages n with
  | idle =>
      simp only [advance, stage]
      exact .stay
  | locking request =>
      simp only [advance, stage]
      split
      case isTrue free => exact .lock n request stage free
      case isFalse => exact .stay
  | entering item =>
      simp only [advance, stage]
      split
      case isTrue shut => exact .refuse n item stage shut
      case isFalse => exact .pass n item stage
  | putTesting item =>
      simp only [advance, stage]
      split
      case isTrue full => exact .sleepPut n item stage full
      case isFalse room => exact .passPut n item stage room
  | putWaiting item =>
      simp only [advance, stage]
      split
      case isTrue resumes => exact .resumePut n item stage resumes
      case isFalse => exact .stay
  | storing item =>
      simp only [advance, stage]
      split
      case isTrue shut => exact .refuseLate n item stage shut
      case isFalse shut =>
          split
          case isTrue room => exact .store n item stage (Bool.eq_false_of_not_eq_true shut) room
          case isFalse full => exact .overflow n item stage full
  | getTesting =>
      simp only [advance, stage]
      split
      case isTrue none' =>
          split
          case isTrue shut => exact .nothing n stage none' shut
          case isFalse shut => exact .sleepGet n stage none' (Bool.eq_false_of_not_eq_true shut)
      case isFalse some' => exact .passGet n stage some'
  | getWaiting =>
      simp only [advance, stage]
      split
      case isTrue resumes => exact .resumeGet n stage resumes
      case isFalse => exact .stay
  | taking =>
      simp only [advance, stage]
      split
      case isTrue =>
          split
          case isTrue some' => exact .take n stage some'
          case isFalse none' => exact .underflow n stage none'
      case isFalse long => exact .outside n stage long
  | closing =>
      simp only [advance, stage]
      exact .close n stage
  | measuring =>
      simp only [advance, stage]
      exact .count n stage
  | broadcasting done =>
      simp only [advance, stage]
      exact .announce n done stage
  | unlocking done =>
      simp only [advance, stage]
      exact .unlock n done stage

theorem step_moves (s : State Item) (event : Event Item) : Moves s (step s event) := by
  simp only [step]
  split
  case isTrue => exact .stay
  case isFalse =>
      cases event with
      | call n request =>
          cases stage : s.stages n with
          | idle =>
              simp only [call, stage]
              exact .call n request stage
          | _ =>
              simp only [call, stage]
              exact .stay
      | advance n => exact advance_moves s n
      | wake n => exact .wake n

end LazyAS.DSQueue

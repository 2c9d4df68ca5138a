import LazyAS.CollectorPipeline
import LazyAS.DSQueueRuns

/-! The threads of `infoCollect.c` over the queue of `buffer.c`: `getArgs` puts and `sendData` gets
in the steps of a `DSQueue` call, between which the other threads go on. Every run stands for one of
`CollectorPipeline`, where each call is one step. -/
namespace LazyAS.SharedQueue
open Runs CircularBuffer ClosableQueue CollectorPipeline DSQueueRuns

/-- In `threads` the list `sendQueue` stays empty, the records are in `queue`. -/
structure State where
  threads : CollectorPipeline.State
  queue : DSQueue.State Nat

def start (queue : DSQueue.Queue Nat) : State := ⟨initial, DSQueue.start queue⟩

/-- A step of the three threads. Where `getArgs` puts and where `sendData` gets, they begin a call,
the first of them as thread 0 and the other one as thread 1 of the queue. -/
def go (s : State) : CollectorPipeline.Event → State
  | .gather informed =>
      if s.threads.gathering = .putting then
        match s.threads.curTask with
        | some record => { s with queue := DSQueue.step s.queue (.call 0 (.put record)) }
        | none => s
      else { s with threads := gather informed s.threads }
  | .send =>
      if s.threads.sending = .getting then { s with queue := DSQueue.step s.queue (.call 1 .get) }
      else { s with threads := send s.threads }
  | event => { s with threads := CollectorPipeline.step s.threads event }

def resume (threads : CollectorPipeline.State) : Op Nat → CollectorPipeline.State
  | .put _ => { threads with gathering := .clearing }
  | .got (some record) => { threads with sending := .sending record }
  | _ => threads

/-- A step within the call of thread `n`; with the last one the call returns. -/
def advance (s : State) (n : Nat) : State where
  threads :=
    match s.queue.stages n with
    | .unlocking done => resume s.threads done
    | _ => s.threads
  queue := DSQueue.step s.queue (.advance n)

inductive Event where
  | go (event : CollectorPipeline.Event)
  | advance (n : Nat)
  | wake (n : Nat)

def step (s : State) (event : Event) : State :=
  if s.queue.failed.isSome then s
  else match event with
    | .go event => go s event
    | .advance n => advance s n
    | .wake n => { s with queue := DSQueue.step s.queue (.wake n) }

/-! What the state stands for: a call counts once it has done its work on the queue. -/

def asked : DSQueue.Stage Nat → Option (DSQueue.Request Nat)
  | .locking request => some request
  | .entering item | .putTesting item | .putWaiting item | .storing item => some (.put item)
  | .getTesting | .getWaiting | .taking => some .get
  | .closing => some .close
  | .measuring => some .length
  | .idle | .broadcasting _ | .unlocking _ => none

variable {a b : CollectorPipeline.State} {gathering : Gathering} {sending : Sending}
    {queue next : DSQueue.State Nat}

/-- Where `getArgs` is, in a state whose calls are single steps and in one with the stages of its
call. -/
inductive Puts (a : CollectorPipeline.State) : Gathering → DSQueue.Stage Nat → Prop where
  | outside : Puts a a.gathering .idle
  | before {stage : DSQueue.Stage Nat} (record : Nat) (here : a.gathering = .putting)
      (task : a.curTask = some record) (asks : asked stage = some (.put record)) :
      Puts a .putting stage
  | behind {stage : DSQueue.Stage Nat} (record : Nat) (here : a.gathering = .clearing)
      (did : pending stage = [.put record]) : Puts a .putting stage

inductive Gets (a : CollectorPipeline.State) : Sending → DSQueue.Stage Nat → Prop where
  | outside : Gets a a.sending .idle
  | before {stage : DSQueue.Stage Nat} (here : a.sending = .getting)
      (asks : asked stage = some .get) :
      Gets a .getting stage
  | behind {stage : DSQueue.Stage Nat} (record : Nat) (here : a.sending = .sending record)
      (did : pending stage = [.got (some record)]) : Gets a .getting stage

/-- The state with the threads where they are and no records in the list. -/
def within (a : CollectorPipeline.State) (gathering : Gathering) (sending : Sending) :
    CollectorPipeline.State :=
  { a with sendQueue := [], gathering := gathering, sending := sending }

/-- The threads and the queue stand for the state `a`. -/
structure Stands (a : CollectorPipeline.State) (gathering : Gathering) (sending : Sending)
    (queue : DSQueue.State Nat) : Prop where
  sound : DSQueueRuns.Sound MAXSIZE queue
  alive : queue.failed = none
  open' : queue.queue.closed = false
  holds : Holds (ring queue.queue) a.sendQueue
  puts : Puts a gathering (queue.stages 0)
  gets : Gets a sending (queue.stages 1)
  others : ∀ n, 2 ≤ n → queue.stages n = .idle

def Shows (s : State) (a : CollectorPipeline.State) : Prop :=
  ∃ gathering sending, s.threads = within a gathering sending ∧ Stands a gathering sending s.queue

/-! The steps that do not concern the queue. -/

/-- `captureOne` and the wake-ups do the same whatever is in the queue and wherever the others are.
-/
theorem step_within (a : CollectorPipeline.State) (gathering : Gathering) (sending : Sending)
    (event : CollectorPipeline.Event) (gathers : ∀ informed, event ≠ .gather informed)
    (sends : event ≠ .send) :
    CollectorPipeline.step (within a gathering sending) event =
        within (CollectorPipeline.step a event) gathering sending ∧
      (CollectorPipeline.step a event).sendQueue = a.sendQueue ∧
      (CollectorPipeline.step a event).gathering = a.gathering ∧
      (CollectorPipeline.step a event).sending = a.sending := by
  cases event with
  | gather informed => exact absurd rfl (gathers informed)
  | send => exact absurd rfl sends
  | wake => exact ⟨rfl, rfl, rfl, rfl⟩
  | packet packet start =>
      simp only [CollectorPipeline.step, CollectorPipeline.packet, within]
      split <;> exact ⟨rfl, rfl, rfl, rfl⟩
  | capture =>
      cases here : a.capturing with
      | holding record =>
          by_cases free : a.mtx.Free
          · simp only [CollectorPipeline.step, capture, within, here, if_pos free, and_self]
          · simp only [CollectorPipeline.step, capture, within, here, if_neg free, and_self]
      | storing record =>
          simp only [CollectorPipeline.step, capture, within, here, store, and_self]
      | _ => simp only [CollectorPipeline.step, capture, within, here, and_self]

/-- The record of a put stays the one in `cur_task`, since `getArgs` has the mutex. -/
theorem task_kept (sound : CollectorPipeline.Sound a) (here : a.gathering = .putting)
    (event : CollectorPipeline.Event) (gathers : ∀ informed, event ≠ .gather informed) :
    (CollectorPipeline.step a event).curTask = a.curTask := by
  cases event with
  | gather informed => exact absurd rfl (gathers informed)
  | wake => rfl
  | packet packet start =>
      simp only [CollectorPipeline.step, CollectorPipeline.packet]
      split <;> rfl
  | capture =>
      cases stage : a.capturing with
      | holding record =>
          simp only [CollectorPipeline.step, capture, stage]
          split <;> rfl
      | storing record =>
          rcases storing_outside sound.alone stage with outside | outside <;>
              cases here.symm.trans outside
      | _ => simp only [CollectorPipeline.step, capture, stage]
  | send =>
      cases stage : a.sending with
      | getting =>
          simp only [CollectorPipeline.step, send, stage]
          split <;> rfl
      | _ => simp only [CollectorPipeline.step, send, stage]

theorem gather_within (informed : Bool) (sending : Sending) (here : a.gathering ≠ .putting) :
    gather informed (within a a.gathering sending) =
        within (gather informed a) (gather informed a).gathering sending ∧
      (gather informed a).sendQueue = a.sendQueue ∧ (gather informed a).sending = a.sending := by
  cases stage : a.gathering with
  | putting => exact absurd stage here
  | locking =>
      by_cases free : a.mtx.Free
      · simp only [gather, within, stage, free, if_true, and_self]
      · simp only [gather, within, stage, free, if_false, and_self]
  | testing =>
      by_cases none' : a.curTask = none
      · simp only [gather, within, stage, none', if_true, and_self]
      · simp only [gather, within, stage, none', if_false, and_self]
  | waiting =>
      by_cases resumes : a.mtx.Free ∧ .getArgs ∉ a.mtx.blocked .cond
      · simp only [gather, within, stage, resumes, not_false_eq_true, and_self, if_true, and_self]
      · simp only [gather, within, stage, resumes, if_false, and_self]
  | informing | freeing | clearing | unlocking =>
      simp only [gather, within, stage, and_self]

theorem send_within (gathering : Gathering) (here : a.sending ≠ .getting) :
    send (within a gathering a.sending) = within (send a) gathering (send a).sending ∧
      (send a).sendQueue = a.sendQueue ∧ (send a).gathering = a.gathering ∧
        (send a).curTask = a.curTask := by
  cases stage : a.sending with
  | getting => exact absurd stage here
  | sending record | freeing record => simp only [send, within, stage, and_self]

/-! Steps of the queue. -/

theorem Puts.congr {stage : DSQueue.Stage Nat} (puts : Puts a gathering stage)
    (same : b.gathering = a.gathering) (task : a.gathering = .putting → b.curTask = a.curTask) :
    Puts b gathering stage := by
  cases puts with
  | outside => exact same ▸ .outside
  | before record here task' asks =>
      exact .before record (same.trans here) ((task here).trans task') asks
  | behind record here did => exact .behind record (same.trans here) did

theorem Gets.congr {stage : DSQueue.Stage Nat} (gets : Gets a sending stage)
    (same : b.sending = a.sending) :
    Gets b sending stage := by
  cases gets with
  | outside => exact same ▸ .outside
  | before here asks => exact .before (same.trans here) asks
  | behind record here did => exact .behind record (same.trans here) did

theorem Stands.putGoes (stands : Stands a gathering sending queue) {stage : DSQueue.Stage Nat}
    {gathering' : Gathering} (sound : DSQueueRuns.Sound MAXSIZE next) (alive : next.failed = none)
    (same : next.queue = queue.queue) (stages : next.stages = Function.update queue.stages 0 stage)
    (puts : Puts a gathering' stage) :
    Stands a gathering' sending next where
  sound := sound
  alive := alive
  open' := same ▸ stands.open'
  holds := same ▸ stands.holds
  puts := by rwa [stages, Function.update_self]
  gets := by rw [stages, Function.update_of_ne (by decide)]; exact stands.gets
  others := fun n above => by rw [stages,
    Function.update_of_ne (by omega)]; exact stands.others n above

theorem Stands.getGoes (stands : Stands a gathering sending queue) {stage : DSQueue.Stage Nat}
    {sending' : Sending} (sound : DSQueueRuns.Sound MAXSIZE next) (alive : next.failed = none)
    (same : next.queue = queue.queue) (stages : next.stages = Function.update queue.stages 1 stage)
    (gets : Gets a sending' stage) :
    Stands a gathering sending' next where
  sound := sound
  alive := alive
  open' := same ▸ stands.open'
  holds := same ▸ stands.holds
  puts := by rw [stages, Function.update_of_ne (by decide)]; exact stands.puts
  gets := by rwa [stages, Function.update_self]
  others := fun n above => by rw [stages,
    Function.update_of_ne (by omega)]; exact stands.others n above

/-- What a step leads to: some steps with single calls, and threads and a queue that stand for the
end. -/
def Leads (a : CollectorPipeline.State) (threads : CollectorPipeline.State)
    (queue : DSQueue.State Nat) : Prop :=
  ∃ calls, Shows ⟨threads, queue⟩ (run CollectorPipeline.step a calls)

theorem Stands.leads (stands : Stands a gathering sending queue) :
    Leads a (within a gathering sending) queue :=
  ⟨[], gathering, sending, rfl, stands⟩

theorem advance_live (alive : queue.failed = none) (n : Nat) :
    DSQueue.step queue (.advance n) = DSQueue.advance queue n := by
  simp [DSQueue.step, alive]

theorem sound_advance (stands : Stands a gathering sending queue) (n : Nat) :
    DSQueueRuns.Sound MAXSIZE (DSQueue.advance queue n) := by
  rw [← advance_live stands.alive]
  exact sound_moves (by decide) (DSQueue.step_moves queue (.advance n)) stands.sound

theorem put_before (stands : Stands a .putting sending queue) {record : Nat}
    (here : a.gathering = .putting) (task : a.curTask = some record)
    (asks : asked (queue.stages 0) = some (.put record)) :
    Leads a (within a .putting sending) (DSQueue.advance queue 0) := by
  -- a step of a put that is in front of its work
  have after := sound_advance stands 0
  have stays {stage : DSQueue.Stage Nat} (asks : asked stage = some (.put record)) :
      Puts a .putting stage :=
    .before record here task asks
  cases stage : queue.stages 0 with
  | idle | getTesting | getWaiting | taking | closing | measuring | broadcasting | unlocking =>
      rw [stage] at asks
      cases asks
  | locking request =>
      rw [stage] at asks
      cases asks
      simp only [DSQueue.advance, stage] at after ⊢
      split at after
      · rename_i free
        rw [if_pos free]
        exact (stands.putGoes after stands.alive rfl rfl (stays rfl)).leads
      · rename_i busy
        rw [if_neg busy]
        exact stands.leads
  | entering item =>
      rw [stage] at asks
      cases asks
      simp only [DSQueue.advance, stage, stands.open', Bool.false_eq_true, if_false] at after ⊢
      exact (stands.putGoes after stands.alive rfl rfl (stays rfl)).leads
  | putTesting item =>
      rw [stage] at asks
      cases asks
      simp only [DSQueue.advance, stage] at after ⊢
      split at after
      · rename_i full
        rw [if_pos full]
        exact (stands.putGoes after stands.alive rfl rfl (stays rfl)).leads
      · rename_i room
        rw [if_neg room]
        exact (stands.putGoes after stands.alive rfl rfl (stays rfl)).leads
  | putWaiting item =>
      rw [stage] at asks
      cases asks
      simp only [DSQueue.advance, stage] at after ⊢
      split at after
      · rename_i resumes
        rw [if_pos resumes]
        exact (stands.putGoes after stands.alive rfl rfl (stays rfl)).leads
      · rename_i sleeps
        rw [if_neg sleeps]
        exact stands.leads
  | storing item =>
      rw [stage] at asks
      cases asks
      -- the put happens here
      have capacity : queue.queue.capacity = MAXSIZE := stands.sound.sequential.1
      have size : queue.queue.length = a.sendQueue.length := stands.holds.size
      have fits : a.sendQueue.length ≤ queue.queue.capacity := stands.holds.fits
      have tested : queue.queue.length ≠ queue.queue.capacity := by
        have fact := stands.sound.tested 0
        rwa [stage] at fact
      have room : queue.queue.length < queue.queue.capacity := by omega
      simp only [DSQueue.advance, stage, stands.open', Bool.false_eq_true, if_false, if_pos room]
        at after ⊢
      have free : a.sendQueue.length < MAXSIZE := by omega
      refine ⟨[.gather true], .putting, sending, ?_, ?_⟩
      · simp only [run, List.foldl_cons, List.foldl_nil, CollectorPipeline.step, gather, here,
          if_pos free]
        rfl
      · simp only [run, List.foldl_cons, List.foldl_nil, CollectorPipeline.step, gather, here,
          if_pos free, task]
        refine ⟨after, stands.alive, stands.open', ?_, .behind record rfl rfl, ?_, ?_⟩
        · change Holds (ring (queue.queue.store record)) _
          rw [store_ring queue.queue a.sendQueue record stands.holds room
            (by rw [capacity]; decide)]
          exact stands.holds.push (size ▸ room)
        · change Gets _ sending (Function.update queue.stages 0 (.broadcasting (.put record)) 1)
          rw [Function.update_of_ne (by decide)]
          exact stands.gets.congr rfl
        · intro n above
          exact (Function.update_of_ne (by omega) _ _).trans (stands.others n above)

theorem put_behind (stands : Stands a .putting sending queue) {record : Nat}
    (here : a.gathering = .clearing) (did : pending (queue.stages 0) = [.put record]) :
    Leads a (advance ⟨within a .putting sending, queue⟩ 0).threads (DSQueue.advance queue 0) := by
  have after := sound_advance stands 0
  cases stage : queue.stages 0 with
  | broadcasting done =>
      rw [stage] at did
      cases did
      simp only [advance, DSQueue.advance, stage] at after ⊢
      exact (stands.putGoes after stands.alive rfl rfl (.behind record here rfl)).leads
  | unlocking done =>
      rw [stage] at did
      cases did
      simp only [advance, resume, DSQueue.advance, stage] at after ⊢
      exact (stands.putGoes after stands.alive rfl rfl (here ▸ .outside)).leads
  | _ =>
      rw [stage] at did
      cases did

theorem get_before (stands : Stands a gathering .getting queue) (here : a.sending = .getting)
    (asks : asked (queue.stages 1) = some .get) :
    Leads a (within a gathering .getting) (DSQueue.advance queue 1) := by
  -- a step of a get that is in front of its work
  have after := sound_advance stands 1
  have stays {stage : DSQueue.Stage Nat} (asks : asked stage = some .get) : Gets a .getting stage :=
    .before here asks
  have size : queue.queue.length = a.sendQueue.length := stands.holds.size
  cases stage : queue.stages 1 with
  | idle | entering | putTesting | putWaiting | storing | closing | measuring | broadcasting
  | unlocking =>
      rw [stage] at asks
      cases asks
  | locking request =>
      rw [stage] at asks
      cases asks
      simp only [DSQueue.advance, stage] at after ⊢
      split at after
      · rename_i free
        rw [if_pos free]
        exact (stands.getGoes after stands.alive rfl rfl (stays rfl)).leads
      · rename_i busy
        rw [if_neg busy]
        exact stands.leads
  | getTesting =>
      simp only [DSQueue.advance, stage, stands.open', Bool.false_eq_true, if_false] at after ⊢
      split at after
      · rename_i empty
        rw [if_pos empty]
        exact (stands.getGoes after stands.alive rfl rfl (stays rfl)).leads
      · rename_i some'
        rw [if_neg some']
        exact (stands.getGoes after stands.alive rfl rfl (stays rfl)).leads
  | getWaiting =>
      simp only [DSQueue.advance, stage] at after ⊢
      split at after
      · rename_i resumes
        rw [if_pos resumes]
        exact (stands.getGoes after stands.alive rfl rfl (stays rfl)).leads
      · rename_i sleeps
        rw [if_neg sleeps]
        exact stands.leads
  | taking =>
      -- the get happens here
      have capacity : queue.queue.capacity = MAXSIZE := stands.sound.sequential.1
      have within' : queue.queue.length ≤ queue.queue.capacity := size ▸ stands.holds.fits
      have tested : queue.queue.length ≠ 0 := by
        have fact := stands.sound.tested 1
        rwa [stage] at fact
      have positive : 0 < queue.queue.length := Nat.pos_of_ne_zero tested
      simp only [DSQueue.advance, stage, if_pos within', if_pos positive] at after ⊢
      have holds := stands.holds
      cases queued : a.sendQueue with
      | nil =>
          rw [queued] at size
          exact absurd size tested
      | cons record rest =>
          rw [queued] at holds
          have first : queue.queue.buf queue.queue.pos = some record := holds.head
          rw [first] at after ⊢
          refine ⟨[.send], gathering, .getting, ?_, ?_⟩
          · simp only [run, List.foldl_cons, List.foldl_nil, CollectorPipeline.step, send, here,
              queued]
            rfl
          · simp only [run, List.foldl_cons, List.foldl_nil, CollectorPipeline.step, send, here,
              queued]
            refine ⟨after, stands.alive, stands.open', ?_, ?_, .behind record rfl rfl, ?_⟩
            · change Holds (ring queue.queue.takeOut) _
              rw [takeOut_ring queue.queue _ holds positive (by rw [capacity]; decide)]
              exact holds.pop
            · exact stands.puts.congr rfl fun _ => rfl
            · intro n above
              exact (Function.update_of_ne (by omega) _ _).trans (stands.others n above)

theorem get_behind (stands : Stands a gathering .getting queue) {record : Nat}
    (here : a.sending = .sending record) (did : pending (queue.stages 1) = [.got (some record)]) :
    Leads a (advance ⟨within a gathering .getting, queue⟩ 1).threads (DSQueue.advance queue 1) := by
  have after := sound_advance stands 1
  cases stage : queue.stages 1 with
  | broadcasting done =>
      rw [stage] at did
      cases did
      simp only [advance, DSQueue.advance, stage] at after ⊢
      exact (stands.getGoes after stands.alive rfl rfl (.behind record here rfl)).leads
  | unlocking done =>
      rw [stage] at did
      cases did
      simp only [advance, resume, DSQueue.advance, stage] at after ⊢
      exact (stands.getGoes after stands.alive rfl rfl (here ▸ .outside)).leads
  | _ =>
      rw [stage] at did
      cases did

theorem advance_inside {threads : CollectorPipeline.State} {n : Nat}
    (quiet : pending (queue.stages n) = []) :
    (advance ⟨threads, queue⟩ n).threads = threads := by
  cases stage : queue.stages n with
  | unlocking done =>
      rw [stage] at quiet
      cases quiet
  | _ => simp only [advance, stage]

theorem pending_asked {stage : DSQueue.Stage Nat} {request : DSQueue.Request Nat}
    (asks : asked stage = some request) :
    pending stage = [] := by
  cases stage with
  | broadcasting | unlocking => cases asks
  | _ => rfl

theorem advance_leads (stands : Stands a gathering sending queue) (n : Nat) :
    Leads a (advance ⟨within a gathering sending, queue⟩ n).threads (DSQueue.advance queue n) := by
  have idle (n : Nat) (here : queue.stages n = .idle) :
      Leads a (advance ⟨within a gathering sending, queue⟩ n).threads
          (DSQueue.advance queue n) := by
    rw [advance_inside (by rw [here]; rfl)]
    simp only [DSQueue.advance, here]
    exact stands.leads
  rcases n with _ | _ | n
  · have puts := stands.puts
    generalize here : queue.stages 0 = stage at puts
    cases puts with
    | outside => exact idle 0 here
    | before record at' task asks =>
        rw [advance_inside (by rw [here, pending_asked asks])]
        exact put_before stands at' task (here ▸ asks)
    | behind record at' did => exact put_behind stands at' (here ▸ did)
  · have gets := stands.gets
    generalize here : queue.stages 1 = stage at gets
    cases gets with
    | outside => exact idle 1 here
    | before at' asks =>
        rw [advance_inside (by rw [here, pending_asked asks])]
        exact get_before stands at' (here ▸ asks)
    | behind record at' did => exact get_behind stands at' (here ▸ did)
  · exact idle (n + 2) (stands.others (n + 2) (by omega))

/-! Steps of the threads. -/

theorem call_busy {stage : DSQueue.Stage Nat} {n : Nat} (here : queue.stages n = stage)
    (busy : stage ≠ .idle) (request : DSQueue.Request Nat) :
    DSQueue.step queue (.call n request) = queue := by
  cases stage with
  | idle => exact absurd rfl busy
  | _ => simp only [DSQueue.step, DSQueue.call, here, ite_self]

theorem call_idle {n : Nat} (alive : queue.failed = none) (here : queue.stages n = .idle)
    (request : DSQueue.Request Nat) :
    DSQueue.step queue (.call n request) = queue.goto n (.locking request) := by
  simp [DSQueue.step, DSQueue.call, alive, here]

theorem sound_call (stands : Stands a gathering sending queue) (n : Nat)
    (request : DSQueue.Request Nat) :
    DSQueueRuns.Sound MAXSIZE (DSQueue.step queue (.call n request)) :=
  sound_moves (by decide) (DSQueue.step_moves queue (.call n request)) stands.sound

theorem gather_leads (sound : CollectorPipeline.Sound a) (stands : Stands a gathering sending queue)
    (informed : Bool) : Leads a (go ⟨within a gathering sending, queue⟩ (.gather informed)).threads
      (go ⟨within a gathering sending, queue⟩ (.gather informed)).queue := by
  have puts := stands.puts
  generalize here : queue.stages 0 = stage at puts
  -- while `getArgs` is in its call, it makes no other one
  have inside (busy : stage ≠ .idle) (at' : gathering = .putting) :
      go ⟨within a gathering sending, queue⟩ (.gather informed) =
          ⟨within a gathering sending, queue⟩ := by
    simp only [go, within, at', if_pos]
    split
    · rw [call_busy here busy]
    · rfl
  cases puts with
  | outside =>
      by_cases at' : a.gathering = .putting
      · obtain ⟨record, task⟩ := Option.ne_none_iff_exists'.mp
            (sound.filled.tasked (.inr (.inl at')))
        have after := sound_call stands 0 (.put record)
        rw [call_idle stands.alive here] at after
        simp only [go, within, at', if_pos, task, call_idle stands.alive here]
        refine ⟨[], .putting, sending, by simp only [run, List.foldl_nil, within, task], ?_⟩
        exact stands.putGoes after stands.alive rfl rfl (.before record at' task rfl)
      · obtain ⟨same, queued, sends⟩ := gather_within informed sending at'
        have apart : (within a a.gathering sending).gathering ≠ .putting := at'
        simp only [go, if_neg apart, same]
        refine ⟨[.gather informed], (gather informed a).gathering, sending, rfl, ?_⟩
        refine ⟨stands.sound, stands.alive, stands.open', ?_, ?_, stands.gets.congr sends,
          stands.others⟩
        · exact queued ▸ stands.holds
        · rw [here]
          exact .outside
  | before record at' task asks =>
      rw [inside (by rintro rfl; cases asks) rfl]
      exact stands.leads
  | behind record at' did =>
      rw [inside (by rintro rfl; cases did) rfl]
      exact stands.leads

theorem send_leads (stands : Stands a gathering sending queue) :
    Leads a (go ⟨within a gathering sending, queue⟩ .send).threads
      (go ⟨within a gathering sending, queue⟩ .send).queue := by
  have gets := stands.gets
  generalize here : queue.stages 1 = stage at gets
  have inside (busy : stage ≠ .idle) (at' : sending = .getting) :
      go ⟨within a gathering sending, queue⟩ .send = ⟨within a gathering sending, queue⟩ := by
    simp only [go, within, at', if_pos, call_busy here busy]
  cases gets with
  | outside =>
      by_cases at' : a.sending = .getting
      · have after := sound_call stands 1 .get
        rw [call_idle stands.alive here] at after
        simp only [go, within, at', if_pos, call_idle stands.alive here]
        refine ⟨[], gathering, .getting, by simp only [run, List.foldl_nil, within], ?_⟩
        exact stands.getGoes after stands.alive rfl rfl (.before at' rfl)
      · obtain ⟨same, queued, gathers, task⟩ := send_within gathering at'
        have apart : (within a gathering a.sending).sending ≠ .getting := at'
        simp only [go, if_neg apart, same]
        refine ⟨[.send], gathering, (send a).sending, rfl, ?_⟩
        refine ⟨stands.sound, stands.alive, stands.open', ?_,
          stands.puts.congr gathers fun _ => task, ?_, stands.others⟩
        · exact queued ▸ stands.holds
        · rw [here]
          exact .outside
  | before at' asks =>
      rw [inside (by rintro rfl; cases asks) rfl]
      exact stands.leads
  | behind record at' did =>
      rw [inside (by rintro rfl; cases did) rfl]
      exact stands.leads

theorem go_leads (sound : CollectorPipeline.Sound a) (stands : Stands a gathering sending queue)
    (event : CollectorPipeline.Event) :
    Leads a (go ⟨within a gathering sending, queue⟩ event).threads
      (go ⟨within a gathering sending, queue⟩ event).queue := by
  have other (gathers : ∀ informed, event ≠ .gather informed) (sends : event ≠ .send) :
      Leads a (CollectorPipeline.step (within a gathering sending) event) queue := by
    obtain ⟨same, queued, gathering', sending'⟩ :=
      step_within a gathering sending event gathers sends
    refine ⟨[event], gathering, sending, same, stands.sound, stands.alive, stands.open',
      queued ▸ stands.holds, ?_,
      stands.gets.congr sending', stands.others⟩
    exact stands.puts.congr gathering' fun here => task_kept sound here event gathers
  cases event with
  | gather informed => exact gather_leads sound stands informed
  | send => exact send_leads stands
  | packet | capture | wake => exact other (by simp) (by simp)

theorem step_shows {s : State} (sound : CollectorPipeline.Sound a) (shows' : Shows s a)
    (event : Event) :
    ∃ calls, Shows (step s event) (run CollectorPipeline.step a calls) := by
  obtain ⟨threads, queue⟩ := s
  obtain ⟨gathering, sending, rfl, stands⟩ := shows'
  have alive : queue.failed.isSome = false := by
    rw [stands.alive]
    rfl
  simp only [step, alive, Bool.false_eq_true, if_false]
  cases event with
  | go event => exact go_leads sound stands event
  | advance n =>
      have leads := advance_leads stands n
      rw [← advance_live stands.alive] at leads
      exact leads
  | wake n =>
      have after := sound_moves (by decide) (DSQueue.step_moves queue (.wake n)) stands.sound
      simp only [DSQueue.step, alive, Bool.false_eq_true, if_false] at after ⊢
      exact ⟨[], gathering, sending, rfl, after, stands.alive, stands.open', stands.holds,
        stands.puts, stands.gets,
        stands.others⟩

/-! When no thread can go on. -/

def Quiet (s : State) : Prop :=
  step s (.go .capture) = s ∧ (∀ informed, step s (.go (.gather informed)) = s) ∧
    step s (.go .send) = s ∧
    ∀ n, step s (.advance n) = s

theorem within_inj (same : within a gathering sending = within b gathering sending)
    (queued : a.sendQueue = b.sendQueue) (gathers : a.gathering = b.gathering)
    (sends : a.sending = b.sending) :
    a = b := by
  cases a
  cases b
  simp only [within, CollectorPipeline.State.mk.injEq] at same queued gathers sends
  simp only [CollectorPipeline.State.mk.injEq]
  tauto

/-- A call that cannot go on sleeps on the condition of the queue, a put at a full queue or a get at
an empty one. -/
theorem sleeps_asked (stands : Stands a gathering sending queue)
    (stuck : ∀ n, DSQueue.advance queue n = queue) {n : Nat} (inside : queue.stages n ≠ .idle) :
    (∃ item, queue.stages n = .putWaiting item ∧ ¬ a.sendQueue.length < MAXSIZE) ∨
      (queue.stages n = .getWaiting ∧ a.sendQueue = []) := by
  have size : queue.queue.length = a.sendQueue.length := stands.holds.size
  have capacity : queue.queue.capacity = MAXSIZE := stands.sound.sequential.1
  obtain ⟨rests, reasons⟩ := sleepers_alike stands.sound stands.alive stuck
  have blocked := (rests n).resolve_left inside
  rcases reasons with full | empty
  · obtain ⟨item, waits, whole⟩ := full n blocked
    exact .inl ⟨item, waits, by omega⟩
  · obtain ⟨waits, none', -⟩ := empty n blocked
    exact .inr ⟨waits, List.eq_nil_of_length_eq_zero (size.symm.trans none')⟩

theorem gather_quiet (sound : CollectorPipeline.Sound a) (stands : Stands a gathering sending queue)
    (stuck : ∀ n, DSQueue.advance queue n = queue) (informed : Bool)
    (quiet : go ⟨within a gathering sending, queue⟩ (.gather informed) =
      ⟨within a gathering sending, queue⟩) :
    gather informed a = a := by
  have puts := stands.puts
  generalize here : queue.stages 0 = stage at puts
  cases puts with
  | outside =>
      by_cases at' : a.gathering = .putting
      · -- it would begin its call
        obtain ⟨record, task⟩ := Option.ne_none_iff_exists'.mp
            (sound.filled.tasked (.inr (.inl at')))
        have moved := congrArg (fun s => s.queue.stages 0) quiet
        simp only [go, within, at', if_pos, task, call_idle stands.alive here, goto_self, here]
          at moved
        cases moved
      · obtain ⟨same, queued, sends⟩ := gather_within informed sending at'
        have apart : (within a a.gathering sending).gathering ≠ .putting := at'
        simp only [go, if_neg apart, same, State.mk.injEq, and_true] at quiet
        have gathers := congrArg CollectorPipeline.State.gathering quiet
        change (gather informed a).gathering = a.gathering at gathers
        rw [gathers] at quiet
        exact within_inj quiet queued gathers sends
  | before record at' task asks =>
      rcases sleeps_asked stands stuck (n := 0) (by rw [here]; rintro rfl; cases asks) with
        ⟨item, -, full⟩ | ⟨waits, -⟩
      · simp only [gather, at', if_neg full]
      · rw [← here, waits] at asks
        cases asks
  | behind record at' did =>
      rcases sleeps_asked stands stuck (n := 0) (by rw [here]; rintro rfl; cases did) with
        ⟨item, waits, -⟩ | ⟨waits, -⟩ <;> rw [← here, waits] at did <;> cases did

theorem send_quiet (stands : Stands a gathering sending queue)
    (stuck : ∀ n, DSQueue.advance queue n = queue)
    (quiet : go ⟨within a gathering sending, queue⟩ .send = ⟨within a gathering sending, queue⟩) :
    send a = a := by
  have gets := stands.gets
  generalize here : queue.stages 1 = stage at gets
  cases gets with
  | outside =>
      by_cases at' : a.sending = .getting
      · have moved := congrArg (fun s => s.queue.stages 1) quiet
        simp only [go, within, at', if_pos, call_idle stands.alive here, goto_self, here] at moved
        cases moved
      · obtain ⟨same, queued, gathers, -⟩ := send_within gathering at'
        have apart : (within a gathering a.sending).sending ≠ .getting := at'
        simp only [go, if_neg apart, same, State.mk.injEq, and_true] at quiet
        have sends := congrArg CollectorPipeline.State.sending quiet
        change (send a).sending = a.sending at sends
        rw [sends] at quiet
        exact within_inj quiet queued gathers sends
  | before at' asks =>
      rcases sleeps_asked stands stuck (n := 1) (by rw [here]; rintro rfl; cases asks) with
        ⟨item, waits, -⟩ | ⟨-, empty⟩
      · rw [← here, waits] at asks
        cases asks
      · simp only [send, at', empty]
  | behind record at' did =>
      rcases sleeps_asked stands stuck (n := 1) (by rw [here]; rintro rfl; cases did) with
        ⟨item, waits, -⟩ | ⟨waits, -⟩ <;> rw [← here, waits] at did <;> cases did

theorem quiet_stands (sound : CollectorPipeline.Sound a) (stands : Stands a gathering sending queue)
    (quiet : Quiet ⟨within a gathering sending, queue⟩) : CollectorPipeline.Quiet a := by
  have alive : queue.failed.isSome = false := by
    rw [stands.alive]
    rfl
  simp only [Quiet, step, alive, Bool.false_eq_true, if_false] at quiet
  obtain ⟨captures, gathers, sends, calls⟩ := quiet
  have stuck (n : Nat) : DSQueue.advance queue n = queue := by
    have still := congrArg State.queue (calls n)
    rwa [advance, advance_live stands.alive] at still
  refine ⟨?_, fun informed => gather_quiet sound stands stuck informed (gathers informed),
    send_quiet stands stuck sends⟩
  obtain ⟨same, queued, gathers, sends⟩ :=
    step_within a gathering sending .capture (by simp) (by simp)
  have still : CollectorPipeline.step (within a gathering sending) .capture =
      within a gathering sending :=
    congrArg State.threads captures
  exact within_inj (same.symm.trans still) queued gathers sends

/-! Runs. -/

section
variable (junk : Nat → Option Nat) {made : DSQueue.Queue Nat}
  (created : DSQueue.dsQueueCreate junk MAXSIZE = some made) (events : List Event)
include created

theorem start_shows : Shows (start made) initial := by
  have sound := sound_start junk created
  simp only [DSQueue.dsQueueCreate, Option.ite_none_right_eq_some, Option.some.injEq] at created
  obtain ⟨positive, rfl⟩ := created
  exact ⟨.locking, .getting, rfl, sound, rfl, rfl, holds_empty junk MAXSIZE positive, .outside,
    .outside,
    fun _ _ => rfl⟩

/-- However the steps of the calls mix with those of the threads, no assertion of the queue fails,
and the threads and the queue stand for a state that is reached with calls of one step. -/
theorem run_shows : ∃ calls,
    Shows (run step (start made) events) (run CollectorPipeline.step initial calls) := by
  refine run_invariant (fun s => ∃ calls, Shows s (run CollectorPipeline.step initial calls))
    ⟨[], start_shows junk created⟩ ?_ events
  rintro s event ⟨calls, shows'⟩
  obtain ⟨more, after⟩ := step_shows (sound_run calls) shows' event
  exact ⟨calls ++ more, by rwa [run_append]⟩

/-- With the calls of `buffer.c`, too, records are sent in the order of their handshakes. -/
theorem shared_sent : (run step (start made) events).threads.sent.Pairwise (· < ·) := by
  obtain ⟨calls, gathering, sending, same, -⟩ := run_shows junk created events
  rw [same]
  have front : (run CollectorPipeline.step initial calls).sent.Sublist
      (line (run CollectorPipeline.step initial calls)) := by simp [line, List.append_assoc]
  exact (sound_run calls).ordered.rising.sublist front

/-- With the calls of `buffer.c`, too, nothing is left on its way where no thread can go on. -/
theorem shared_settled (quiet : Quiet (run step (start made) events)) :
    (run step (start made) events).threads.curTask = none ∧
      Holds (ring (run step (start made) events).queue.queue) [] ∧
      ∀ record < (run step (start made) events).threads.records.length,
        ((run step (start made) events).threads.freed ++
          (run step (start made) events).threads.lost).count record = 1 := by
  obtain ⟨calls, gathering, sending, same, stands⟩ := run_shows junk created events
  generalize run step (start made) events = s at quiet same stands
  obtain ⟨threads, queue⟩ := s
  dsimp only at same stands
  subst same
  have sound := sound_run calls
  obtain ⟨none', empty, settled⟩ := settled_of_quiet sound (quiet_stands sound stands quiet)
  exact ⟨none', empty ▸ stands.holds, settled⟩

end

end LazyAS.SharedQueue

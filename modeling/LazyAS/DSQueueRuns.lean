import LazyAS.DSQueue

/-! What holds of a `DSQueue` in every run: its calls take effect as if one user made them one after
the other, only the assertion that it is open can fail, nobody sleeps while it could go on, and
after it is closed it is emptied and nothing more. -/
namespace LazyAS.DSQueueRuns
open CircularBuffer ClosableQueue Monitor Runs DSQueue

variable {Item : Type}

/-! One thread is inside at a time. -/

def Inside : Stage Item → Prop
  | .idle | .locking _ | .putWaiting _ | .getWaiting => False
  | _ => True

def Alone (s : State Item) : Prop := Owned (fun n => Inside (s.stages n)) s.mutex

section
variable {stages : Nat → Stage Item} {m m' : Mutex Nat Cond} {n : Nat} {stage : Stage Item}

theorem moved_others (stages : Nat → Stage Item) (stage : Stage Item) (u : Nat) (other : u ≠ n) :
    Inside (Function.update stages n stage u) ↔ Inside (stages u) := by
  rw [Function.update_of_ne other]

theorem moved_self (stages : Nat → Stage Item) (stage : Stage Item) (n : Nat) :
    Inside (Function.update stages n stage n) ↔ Inside stage := by
  rw [Function.update_self]

theorem stays (owned : Owned (fun u => Inside (stages u)) m) (held : m'.holder = m.holder)
    (same : Inside stage ↔ Inside (stages n)) :
    Owned (fun u => Inside (Function.update stages n stage u)) m' := by
  apply owned.keep held
  intro u
  by_cases self : u = n
  · subst self
    exact (moved_self stages stage u).trans same
  · exact moved_others stages stage u self

theorem enters (owned : Owned (fun u => Inside (stages u)) m) (free : m.Free)
    (there : Inside stage) :
    Owned (fun u => Inside (Function.update stages n stage u)) (m.acquire n) := by
  apply owned.enter free
  · exact (moved_self stages stage n).mpr there
  · exact fun u other => moved_others stages stage u other

theorem leaves (owned : Owned (fun u => Inside (stages u)) m) (here : Inside (stages n))
    (given : m'.holder = none) (there : ¬ Inside stage) :
    Owned (fun u => Inside (Function.update stages n stage u)) m' := by
  apply owned.leave here given
  · exact fun within => there ((moved_self stages stage n).mp within)
  · exact fun u other => moved_others stages stage u other

end

variable {s s' : State Item}

theorem entered_inside (request : Request Item) : Inside (entered request) := by
  cases request <;> trivial

theorem alone_moves (move : Moves s s') (alone : Alone s) : Alone s' := by
  cases move with
  | stay | refuse | refuseLate | overflow | underflow | outside => exact alone
  | wake => exact alone.keep rfl fun _ => Iff.rfl
  | call n request here =>
      apply stays alone rfl
      rw [here]
      exact Iff.rfl
  | lock n request here free => exact enters alone free (entered_inside request)
  | resumePut n item here resumes => exact enters alone resumes.1 trivial
  | resumeGet n here resumes => exact enters alone resumes.1 trivial
  | sleepPut n item here =>
      apply leaves alone (here ▸ trivial) rfl
      exact id
  | sleepGet n here =>
      apply leaves alone (here ▸ trivial) rfl
      exact id
  | unlock n done here =>
      apply leaves alone (here ▸ trivial) rfl
      exact id
  | pass n item here | passPut n item here | store n item here | nothing n here | passGet n here
  | take n here
  | close n here | count n here | announce n done here =>
      apply stays alone rfl
      rw [here]
      exact Iff.rfl

/-! The calls take effect one after the other. -/

def ring (queue : Queue Item) : Circle Item := ⟨queue.buf, queue.pos, queue.length, queue.capacity⟩

theorem store_ring (queue : Queue Item) (items : List Item) (item : Item)
    (holds : Holds (ring queue) items) (room : queue.length < queue.capacity)
    (small : queue.capacity < 2 ^ 31) :
    ring (queue.store item) = (ring queue).push item := by
  have inside : queue.pos < queue.capacity := holds.inside
  have slot : uint32 (queue.pos + queue.length) = queue.pos + queue.length :=
    Nat.mod_eq_of_lt (by omega)
  have length : uint32 (queue.length + 1) = queue.length + 1 := Nat.mod_eq_of_lt (by omega)
  simp only [ring, Queue.store, Circle.push, Circle.slot, slot, length]

theorem takeOut_ring (queue : Queue Item) (items : List Item) (holds : Holds (ring queue) items)
    (some' : 0 < queue.length) (small : queue.capacity < 2 ^ 31) :
    ring queue.takeOut = (ring queue).pop := by
  have inside : queue.pos < queue.capacity := holds.inside
  have size : queue.length = items.length := holds.size
  have fits : items.length ≤ queue.capacity := holds.fits
  have next : uint32 (queue.pos + 1) = queue.pos + 1 := Nat.mod_eq_of_lt (by omega)
  have whole : queue.length + 2 ^ 32 - 1 = queue.length - 1 + 2 ^ 32 := by omega
  have length : uint32 (queue.length + 2 ^ 32 - 1) = queue.length - 1 := by
    rw [whole, uint32, Nat.add_mod_right]
    exact Nat.mod_eq_of_lt (by omega)
  simp only [ring, Queue.takeOut, Circle.pop, next, length]

/-- The ring holds what the operations of the log leave of the queue. -/
def Sequential (capacity : Nat) (s : State Item) : Prop :=
  s.queue.capacity = capacity ∧
    ∃ items, Holds (ring s.queue) items ∧ Legal capacity (s.log.map Prod.snd) items s.queue.closed

theorem sequential_did {capacity : Nat} {queue : Queue Item} {n : Nat} {done : Op Item}
    {stage : Op Item → Stage Item} (same : queue.capacity = capacity) {items : List Item}
    (holds : Holds (ring queue) items)
    (legal : Legal capacity (s.log.map Prod.snd ++ [done]) items queue.closed) :
    Sequential capacity (s.did n queue done stage) := by
  refine ⟨same, items, holds, ?_⟩
  simpa [State.did, State.goto] using legal

theorem sequential_moves {capacity : Nat} (small : capacity < 2 ^ 31) (move : Moves s s')
    (sequential : Sequential capacity s) : Sequential capacity s' := by
  obtain ⟨same, items, holds, legal⟩ := sequential
  have size : s.queue.length = items.length := holds.size
  cases move with
  | stay | refuse | refuseLate | overflow | underflow | outside | call | lock | resumePut
  | resumeGet | sleepPut
  | sleepGet | unlock | pass | passPut | passGet | announce | wake =>
      exact ⟨same, items, holds, legal⟩
  | store n item here shut room =>
      have free : items.length < (ring s.queue).room := size ▸ room
      apply sequential_did (show (s.queue.store item).capacity = capacity from same)
      · rw [store_ring s.queue items item holds room (same ▸ small)]
        exact holds.push free
      · change Legal capacity _ _ s.queue.closed
        rw [shut] at legal ⊢
        exact .put item legal (same ▸ free)
  | take n here some' =>
      cases items with
      | nil =>
          rw [size] at some'
          exact absurd some' (Nat.lt_irrefl 0)
      | cons item items =>
          have first : s.queue.buf s.queue.pos = some item := holds.head
          apply sequential_did (show s.queue.takeOut.capacity = capacity from same)
          · rw [takeOut_ring s.queue _ holds some' (same ▸ small)]
            exact holds.pop
          · rw [first]
            exact .take legal
  | nothing n here none' shut =>
      have empty : items = [] := List.length_eq_zero_iff.mp (size.symm.trans none')
      subst empty
      apply sequential_did same holds
      rw [shut] at legal ⊢
      exact .nothing legal
  | close n here =>
      have kept : { s.queue with closed := true }.capacity = capacity := same
      exact sequential_did kept holds (.close legal)
  | count n here =>
      apply sequential_did same holds
      rw [size]
      exact .count legal

/-! What a call answers is what it has done. -/

/-- The operations of a thread, in the order in which they took effect. -/
def performed (log : List (Nat × Op Item)) (n : Nat) : List (Op Item) :=
  log.filterMap fun entry => if entry.1 = n then some entry.2 else none

/-- What a call has done that has not returned yet. -/
def pending : Stage Item → List (Op Item)
  | .broadcasting done | .unlocking done => [done]
  | _ => []

def Answering (log : List (Nat × Op Item)) (returned : Nat → List (Op Item))
    (stages : Nat → Stage Item) : Prop :=
  ∀ n, performed log n = returned n ++ pending (stages n)

def Answers (s : State Item) : Prop := Answering s.log s.returned s.stages

theorem pending_entered (request : Request Item) : pending (entered request) = [] := by
  cases request <;> rfl

theorem answers_goto {log : List (Nat × Op Item)} {returned : Nat → List (Op Item)}
    {stages : Nat → Stage Item} {n : Nat} {stage : Stage Item}
    (answers : Answering log returned stages) (same : pending stage = pending (stages n)) :
    Answering log returned (Function.update stages n stage) := by
  intro u
  rw [answers u]
  by_cases self : u = n
  · subst self
    rw [Function.update_self, same]
  · rw [Function.update_of_ne self]

theorem answers_did {n : Nat} {queue : Queue Item} {done : Op Item} {stage : Op Item → Stage Item}
    (answers : Answers s) (before : pending (s.stages n) = [])
    (after : pending (stage done) = [done]) :
    Answers (s.did n queue done stage) := by
  intro u
  have whole := answers u
  by_cases self : u = n
  · subst self
    rw [before, List.append_nil] at whole
    simp [performed, State.did, State.goto, after, ← whole]
  · have other : n ≠ u := Ne.symm self
    simpa [performed, State.did, State.goto, self, other] using whole

theorem answers_moves (move : Moves s s') (answers : Answers s) : Answers s' := by
  cases move with
  | stay | refuse | refuseLate | overflow | underflow | outside | wake => exact answers
  | call n request here =>
      apply answers_goto answers
      rw [here]
      rfl
  | lock n request here =>
      apply answers_goto answers
      rw [here, pending_entered]
      rfl
  | resumePut n item here | resumeGet n here | sleepPut n item here | sleepGet n here
  | pass n item here
  | passPut n item here | passGet n here | announce n done here =>
      apply answers_goto answers
      rw [here]
      rfl
  | store n item here | take n here | nothing n here | close n here | count n here =>
      apply answers_did answers
      · rw [here]
        rfl
      · rfl
  | unlock n done here =>
      intro u
      have whole := answers u
      by_cases self : u = n
      · subst self
        rw [here] at whole
        simpa [State.goto, pending] using whole
      · simpa [State.goto, self] using whole

/-! What a thread has tested stays true until it has done its work. -/

def Fits (queue : Queue Item) : Stage Item → Prop
  | .storing _ => queue.length ≠ queue.capacity
  | .taking => queue.length ≠ 0
  | _ => True

def Tested (s : State Item) : Prop := ∀ n, Fits s.queue (s.stages n)

theorem fits_outside (queue : Queue Item) (stage : Stage Item) (outside : ¬ Inside stage) :
    Fits queue stage := by
  cases stage with
  | storing | taking => exact absurd trivial outside
  | _ => trivial

theorem fits_entered (queue : Queue Item) (request : Request Item) :
    Fits queue (entered request) := by
  cases request <;> trivial

theorem fits_goto {queue : Queue Item} {stages : Nat → Stage Item} {n : Nat} {stage : Stage Item}
    (tested : ∀ u, Fits queue (stages u)) (here : Fits queue stage) :
    ∀ u, Fits queue (Function.update stages n stage u) := by
  intro u
  by_cases self : u = n
  · subst self
    rw [Function.update_self]
    exact here
  · rw [Function.update_of_ne self]
    exact tested u

theorem fits_did (alone : Alone s) {n : Nat} (here : Inside (s.stages n)) (queue : Queue Item)
    {stage : Stage Item} (there : Fits queue stage) :
    ∀ u, Fits queue (Function.update s.stages n stage u) := by
  intro u
  by_cases self : u = n
  · subst self
    rw [Function.update_self]
    exact there
  · rw [Function.update_of_ne self]
    apply fits_outside
    exact fun within => self (alone.alone within here)

theorem tested_moves (move : Moves s s') (alone : Alone s) (tested : Tested s) : Tested s' := by
  cases move with
  | stay | refuse | refuseLate | overflow | underflow | outside | wake => exact tested
  | lock n request here => exact fits_goto tested (fits_entered s.queue request)
  | passPut n item here room => exact fits_goto tested room
  | passGet n here some' => exact fits_goto tested some'
  | call | resumePut | resumeGet | sleepPut | sleepGet | pass | announce | unlock | nothing
  | count =>
      exact fits_goto tested trivial
  | store n item here => exact fits_did alone (here ▸ trivial) (s.queue.store item) trivial
  | take n here => exact fits_did alone (here ▸ trivial) s.queue.takeOut trivial
  | close n here => exact fits_did alone (here ▸ trivial) { s.queue with closed := true } trivial

/-! Assertions. -/

/-- Only the assertions that the queue is open have failed, and it is closed. -/
def Shut (s : State Item) : Prop :=
  ∀ assertion, s.failed = some assertion →
    (assertion = .openOnEntry ∨ assertion = .openAfterWait) ∧ s.queue.closed = true

theorem shut_moves {capacity : Nat} (move : Moves s s') (sequential : Sequential capacity s)
    (tested : Tested s) (shut : Shut s) : Shut s' := by
  obtain ⟨-, items, holds, -⟩ := sequential
  have size : s.queue.length = items.length := holds.size
  have fits : items.length ≤ s.queue.capacity := holds.fits
  cases move with
  | stay | call | lock | pass | sleepPut | passPut | resumePut | store | nothing | sleepGet
  | passGet | resumeGet
  | take | count | announce | unlock | wake => exact shut
  | close =>
      intro assertion failed
      exact ⟨(shut assertion failed).1, rfl⟩
  | refuse n item here closed =>
      intro assertion failed
      exact ⟨Or.inl (Option.some.inj failed).symm, closed⟩
  | refuseLate n item here closed =>
      intro assertion failed
      exact ⟨Or.inr (Option.some.inj failed).symm, closed⟩
  | overflow n item here full =>
      have room := tested n
      simp only [here, Fits] at room
      omega
  | underflow n here none' =>
      have some' := tested n
      simp only [here, Fits] at some'
      omega
  | outside n here long => omega

/-! Who sleeps. -/

def Waits : Stage Item → Prop
  | .putWaiting _ | .getWaiting => True
  | _ => False

def Rests (queue : Queue Item) : Stage Item → Prop
  | .putWaiting _ => queue.length = queue.capacity
  | .getWaiting => queue.length = 0 ∧ queue.closed = false
  | _ => False

def Sleeping (queue : Queue Item) (stages : Nat → Stage Item) (blocked : List Nat) : Prop :=
  (∀ u ∈ blocked, Waits (stages u)) ∧
    ((∀ u done, stages u ≠ .broadcasting done) → ∀ u ∈ blocked, Rests queue (stages u))

def Sleeps (s : State Item) : Prop := Sleeping s.queue s.stages (s.mutex.blocked .condLength)

section
variable {queue queue' : Queue Item} {stages : Nat → Stage Item} {blocked : List Nat} {n : Nat}
    {stage : Stage Item}

theorem awake (sleeps : Sleeping queue stages blocked) (busy : ¬ Waits (stages n)) : n ∉ blocked :=
  fun member => busy (sleeps.1 n member)

theorem sleeps_goto (sleeps : Sleeping queue stages blocked) (self : n ∉ blocked)
    (quiet : ∀ done, stages n ≠ .broadcasting done) :
    Sleeping queue (Function.update stages n stage) blocked := by
  have other (u : Nat) (member : u ∈ blocked) : Function.update stages n stage u = stages u :=
    Function.update_of_ne (ne_of_mem_of_not_mem member self) ..
  constructor
  · intro u member
    rw [other u member]
    exact sleeps.1 u member
  · intro silent u member
    rw [other u member]
    apply sleeps.2 _ u member
    intro v done
    by_cases same : v = n
    · exact same ▸ quiet done
    · have later := silent v done
      rwa [Function.update_of_ne same] at later

theorem sleeps_did (sleeps : Sleeping queue stages blocked) (self : n ∉ blocked) (done : Op Item) :
    Sleeping queue' (Function.update stages n (.broadcasting done)) blocked := by
  constructor
  · intro u member
    rw [Function.update_of_ne (ne_of_mem_of_not_mem member self)]
    exact sleeps.1 u member
  · intro silent
    exact absurd (Function.update_self ..) (silent n done)

theorem sleeps_wait (sleeps : Sleeping queue stages blocked) (self : n ∉ blocked)
    (quiet : ∀ done, stages n ≠ .broadcasting done) (waits : Waits stage)
    (rests : Rests queue stage) :
    Sleeping queue (Function.update stages n stage) (blocked ++ [n]) := by
  have others : Sleeping queue (Function.update stages n stage) blocked :=
    sleeps_goto sleeps self quiet
  constructor
  · intro u member
    rcases List.mem_append.mp member with older | newest
    · exact others.1 u older
    · rw [List.mem_singleton.mp newest, Function.update_self]
      exact waits
  · intro silent u member
    rcases List.mem_append.mp member with older | newest
    · exact others.2 silent u older
    · rw [List.mem_singleton.mp newest, Function.update_self]
      exact rests

end

theorem sleeps_moves (move : Moves s s') (sleeps : Sleeps s) : Sleeps s' := by
  cases move with
  | stay | refuse | refuseLate | overflow | underflow | outside => exact sleeps
  | wake n =>
      have fewer (u : Nat) (member : u ∈ (s.mutex.wake .condLength n).blocked .condLength) :
          u ∈ s.mutex.blocked .condLength := by
        rw [wake_here] at member
        exact (List.mem_filter.mp member).1
      exact ⟨fun u member => sleeps.1 u (fewer u member), fun silent u member => sleeps.2 silent u
        (fewer u member)⟩
  | announce n done here =>
      have nobody (u : Nat) : u ∉ (s.mutex.broadcast .condLength).blocked .condLength := by
        rw [broadcast_here]
        exact List.not_mem_nil
      exact ⟨fun u member => absurd member (nobody u), fun _ u member => absurd member (nobody u)⟩
  | resumePut n item here resumes =>
      apply sleeps_goto sleeps resumes.2
      simp [here]
  | resumeGet n here resumes =>
      apply sleeps_goto sleeps resumes.2
      simp [here]
  | call n request here | lock n request here | pass n item here | passPut n item here
  | nothing n here
  | passGet n here | count n here | unlock n done here =>
      apply sleeps_goto sleeps
      · apply awake sleeps
        simp [here, Waits]
      · simp [here]
  | store n item here | take n here | close n here =>
      apply sleeps_did sleeps
      apply awake sleeps
      simp [here, Waits]
  | sleepPut n item here full =>
      have self : n ∉ s.mutex.blocked .condLength := awake sleeps (by simp [here, Waits])
      have waits : Waits (Stage.putWaiting item) := trivial
      have slept := sleeps_wait sleeps self (by simp [here]) waits full
      rwa [← wait_here s.mutex .condLength n] at slept
  | sleepGet n here none' shut =>
      have self : n ∉ s.mutex.blocked .condLength := awake sleeps (by simp [here, Waits])
      have waits : Waits (Stage.getWaiting : Stage Item) := trivial
      have slept := sleeps_wait sleeps self (by simp [here]) waits ⟨none', shut⟩
      rwa [← wait_here s.mutex .condLength n] at slept

/-! Runs. -/

structure Sound (capacity : Nat) (s : State Item) : Prop where
  alone : Alone s
  sequential : Sequential capacity s
  answers : Answers s
  tested : Tested s
  shut : Shut s
  sleeps : Sleeps s

theorem sound_moves {capacity : Nat} (small : capacity < 2 ^ 31) (move : Moves s s')
    (sound : Sound capacity s) :
    Sound capacity s' where
  alone := alone_moves move sound.alone
  sequential := sequential_moves small move sound.sequential
  answers := answers_moves move sound.answers
  tested := tested_moves move sound.alone sound.tested
  shut := shut_moves move sound.sequential sound.tested sound.shut
  sleeps := sleeps_moves move sound.sleeps

theorem sound_start (junk : Nat → Option Item) {bufferCapacity : Nat} {queue : Queue Item}
    (created : dsQueueCreate junk bufferCapacity = some queue) :
    Sound bufferCapacity (start queue) := by
  simp only [dsQueueCreate, Option.ite_none_right_eq_some] at created
  obtain ⟨positive, made⟩ := created
  have made := Option.some.inj made
  subst made
  constructor
  · intro n
    apply iff_of_false
    · intro held
      cases held
    · exact id
  · exact ⟨rfl, [], holds_empty junk bufferCapacity positive, .start⟩
  · exact fun _ => rfl
  · exact fun _ => trivial
  · intro assertion failed
    cases failed
  · exact ⟨fun u member => absurd member List.not_mem_nil, fun _ u member => absurd member
      List.not_mem_nil⟩

/-! Nobody is kept waiting. -/

@[simp] theorem goto_self (s : State Item) (n : Nat) (stage : Stage Item) :
    (s.goto n stage).stages n = stage :=
  Function.update_self ..

@[simp] theorem enter_self (s : State Item) (n : Nat) (stage : Stage Item) :
    (s.enter n stage).stages n = stage :=
  Function.update_self ..

@[simp] theorem sleep_self (s : State Item) (n : Nat) (stage : Stage Item) :
    (s.sleep n stage).stages n = stage :=
  Function.update_self ..

@[simp] theorem did_self (s : State Item) (n : Nat) (queue : Queue Item) (done : Op Item)
    (stage : Op Item → Stage Item) : (s.did n queue done stage).stages n = stage done :=
  Function.update_self ..

theorem inside_goes (s : State Item) (n : Nat) (inside : Inside (s.stages n)) :
    (advance s n).stages n ≠ s.stages n ∨ (advance s n).failed.isSome := by
  -- a thread inside goes on, or the program ends
  cases stage : s.stages n with
  | idle | locking | putWaiting | getWaiting => exact absurd inside (by simp [stage, Inside])
  | entering item =>
      simp only [advance, stage]
      split
      case isTrue => exact Or.inr rfl
      case isFalse => exact Or.inl (by simp)
  | putTesting item =>
      simp only [advance, stage]
      split <;> exact Or.inl (by simp)
  | storing item =>
      simp only [advance, stage]
      split
      case isTrue => exact Or.inr rfl
      case isFalse =>
          split
          case isTrue => exact Or.inl (by simp)
          case isFalse => exact Or.inr rfl
  | getTesting =>
      simp only [advance, stage]
      split
      case isTrue => split <;> exact Or.inl (by simp)
      case isFalse => exact Or.inl (by simp)
  | taking =>
      simp only [advance, stage]
      split
      case isTrue =>
          split
          case isTrue => exact Or.inl (by simp)
          case isFalse => exact Or.inr rfl
      case isFalse => exact Or.inr rfl
  | closing | measuring | broadcasting done | unlocking done =>
      simp only [advance, stage]
      exact Or.inl (by simp)

theorem outside_rests (s : State Item) (n : Nat) (free : s.mutex.Free)
    (outside : ¬ Inside (s.stages n)) (stuck : advance s n = s) :
    s.stages n = .idle ∨ n ∈ s.mutex.blocked .condLength := by
  -- a thread that cannot go on while the mutex is free is in no call, or it sleeps
  cases stage : s.stages n with
  | idle => exact Or.inl rfl
  | locking request =>
      have place := congrArg (fun after => after.stages n) stuck
      simp only [advance, stage, if_pos free, enter_self] at place
      cases request <;> cases place
  | putWaiting item =>
      right
      by_contra awake
      have place := congrArg (fun after => after.stages n) stuck
      simp only [advance, stage, if_pos (show s.Resumes n from ⟨free, awake⟩), enter_self] at place
      cases place
  | getWaiting =>
      right
      by_contra awake
      have place := congrArg (fun after => after.stages n) stuck
      simp only [advance, stage, if_pos (show s.Resumes n from ⟨free, awake⟩), enter_self] at place
      cases place
  | _ =>
      rw [stage] at outside
      exact absurd trivial outside

theorem sleepers_alike {capacity : Nat} (sound : Sound capacity s) (alive : s.failed = none)
    (stuck : ∀ n, advance s n = s) :
    (∀ n, s.stages n = .idle ∨ n ∈ s.mutex.blocked .condLength) ∧
      ((∀ n ∈ s.mutex.blocked .condLength, ∃ item, s.stages n = .putWaiting item ∧
          s.queue.length = s.queue.capacity) ∨
        ∀ n ∈ s.mutex.blocked .condLength, s.stages n = .getWaiting ∧ s.queue.length = 0 ∧
          s.queue.closed = false) := by
  -- where no thread can go on, all who sleep have the same reason
  have outside (n : Nat) : ¬ Inside (s.stages n) := by
    intro inside
    rcases inside_goes s n inside with moved | failed
    · exact moved (by rw [stuck n])
    · rw [stuck n, alive] at failed
      cases failed
  have free : s.mutex.Free := by
    cases held : s.mutex.holder with
    | none => exact held
    | some n => exact absurd ((sound.alone n).mp held) (outside n)
  have silent (n : Nat) (done : Op Item) : s.stages n ≠ .broadcasting done := by
    intro here
    exact outside n (here ▸ trivial)
  have rests := sound.sleeps.2 silent
  obtain ⟨-, items, holds, -⟩ := sound.sequential
  have positive : 0 < s.queue.capacity := Nat.zero_lt_of_lt holds.inside
  constructor
  · exact fun n => outside_rests s n free (outside n) (stuck n)
  · by_cases full : s.queue.length = s.queue.capacity
    · left
      intro n member
      have reason := rests n member
      cases stage : s.stages n <;> simp only [stage, Rests] at reason
      case putWaiting item => exact ⟨item, rfl, full⟩
      case getWaiting => omega
    · right
      intro n member
      have reason := rests n member
      cases stage : s.stages n <;> simp only [stage, Rests] at reason
      case putWaiting => exact absurd reason full
      case getWaiting => exact ⟨rfl, reason⟩

section
variable (junk : Nat → Option Item) (bufferCapacity : Nat) (queue : Queue Item)
  (created : dsQueueCreate junk bufferCapacity = some queue) (small : bufferCapacity < 2 ^ 31)
  (events : List (Event Item))
include created small

theorem sound_run : Sound bufferCapacity (run step (start queue) events) := by
  apply run_invariant (Sound bufferCapacity) (sound_start junk created)
  intro s event sound
  exact sound_moves small (step_moves s event) sound

/-- The calls of all threads take effect as one user could have made them one after the other, and
each call answers what it has done there. So the items come out in the order in which they were put
in, every one once, and never more than the capacity are inside. -/
theorem calls_linearize :
    (∃ items, Holds (ring (run step (start queue) events).queue) items ∧
      Legal bufferCapacity ((run step (start queue) events).log.map Prod.snd) items
        (run step (start queue) events).queue.closed ∧
      ((run step (start queue) events).log.map Prod.snd).filterMap Op.puts =
        ((run step (start queue) events).log.map Prod.snd).filterMap Op.takes ++ items ∧
      items.length ≤ bufferCapacity) ∧
    ∀ n, performed (run step (start queue) events).log n =
      (run step (start queue) events).returned n ++
        pending ((run step (start queue) events).stages n) := by
  have sound := sound_run junk bufferCapacity queue created small events
  obtain ⟨-, items, holds, legal⟩ := sound.sequential
  exact ⟨⟨items, holds, legal, legal.fifo, legal.bounded⟩, sound.answers⟩

/-- Of the assertions only those that the queue is open can fail, and only when a call has closed
it. -/
theorem fails_closed (assertion : Assertion)
    (failed : (run step (start queue) events).failed = some assertion) :
    (assertion = .openOnEntry ∨ assertion = .openAfterWait) ∧
      ∃ n, (n, Op.closed) ∈ (run step (start queue) events).log := by
  have sound := sound_run junk bufferCapacity queue created small events
  obtain ⟨-, items, -, legal⟩ := sound.sequential
  obtain ⟨which, closed⟩ := sound.shut assertion failed
  obtain ⟨⟨n, done⟩, member, same⟩ := List.mem_map.mp (legal.closed_iff.mp closed)
  exact ⟨which, n, same ▸ member⟩

/-- After a call has closed the queue no other call puts an item in, and those that take items out
get what was inside, in order. -/
theorem closed_drains (before after : List (Nat × Op Item)) (n : Nat)
    (shape : (run step (start queue) events).log = before ++ (n, .closed) :: after) :
    ∃ left items, Legal bufferCapacity (before.map Prod.snd ++ [.closed]) left true ∧
      (after.map Prod.snd).filterMap Op.puts = [] ∧
      Holds (ring (run step (start queue) events).queue) items ∧
      (after.map Prod.snd).filterMap Op.takes ++ items = left := by
  have sound := sound_run junk bufferCapacity queue created small events
  obtain ⟨-, items, holds, legal⟩ := sound.sequential
  rw [shape, List.map_append, List.map_cons] at legal
  obtain ⟨left, earlier, none', drained⟩ := legal.drains
  exact ⟨left, items, earlier, none', holds, drained⟩

/-- No wake-up is lost and nothing is locked for good: where no thread can go on, every thread is in
no call or sleeps, and either all who sleep want to put an item into a full queue, or all of them
wait for an item of a queue that is empty and open. -/
theorem stuck_reason (alive : (run step (start queue) events).failed = none)
    (stuck : ∀ n, advance (run step (start queue) events) n = run step (start queue) events) :
    let s := run step (start queue) events
    (∀ n, s.stages n = .idle ∨ n ∈ s.mutex.blocked .condLength) ∧
      ((∀ n ∈ s.mutex.blocked .condLength, ∃ item, s.stages n = .putWaiting item ∧
        s.queue.length = s.queue.capacity) ∨
        ∀ n ∈ s.mutex.blocked .condLength, s.stages n = .getWaiting ∧ s.queue.length = 0 ∧
            s.queue.closed = false) := by
  intro s
  exact sleepers_alike (sound_run junk bufferCapacity queue created small events) alive stuck

end

/-- `sendQueue` as `main` creates it, with `MAXSIZE`. -/
def sendQueue : Queue Nat := ⟨fun _ => none, 0, 0, 65535, false⟩

def wholeCall (n : Nat) (request : Request Nat) : List (Event Nat) :=
  .call n request :: List.replicate 6 (.advance n)

theorem calls_linearize_handOver :
    ∃ items, Holds (ring (run step (start sendQueue)
      (wholeCall 0 (.put 7) ++ wholeCall 1 .get)).queue) items ∧
      Legal 65535 [.put 7, .got (some 7)] items false ∧ [7] = [7] ++ items ∧ items.length ≤ 65535 :=
  (calls_linearize (fun _ => none) 65535 sendQueue rfl
    (by decide) (wholeCall 0 (.put 7) ++ wholeCall 1 .get)).1

theorem fails_closed_put : ∃ n, (n, Op.closed) ∈
    (run step (start sendQueue) (wholeCall 0 .close ++ wholeCall 1 (.put 7))).log :=
  (fails_closed (fun _ => none) 65535 sendQueue rfl
    (by decide) (wholeCall 0 .close ++ wholeCall 1 (.put 7))
    .openOnEntry rfl).2

theorem closed_drains_one :
    ∃ left items, Legal 65535 [.put 7, .closed] left true ∧ ([] : List Nat) = [] ∧
      Holds (ring (run step (start sendQueue)
        (wholeCall 0 (.put 7) ++ wholeCall 1 .close ++ wholeCall 0 .get)).queue) items ∧
      [7] ++ items = left :=
  closed_drains (fun _ => none) 65535 sendQueue rfl (by decide)
    (wholeCall 0 (.put 7) ++ wholeCall 1 .close ++ wholeCall 0 .get) [(0, .put 7)]
      [(0, .got (some 7))] 1 rfl

theorem stuck_reason_get :
    (run step (start sendQueue) (wholeCall 0 .get)).stages 0 = .getWaiting ∧
      (run step (start sendQueue) (wholeCall 0 .get)).queue.length = 0 ∧
      (run step (start sendQueue) (wholeCall 0 .get)).queue.closed = false := by
  have stuck (n : Nat) : advance (run step (start sendQueue) (wholeCall 0 .get)) n =
      run step (start sendQueue) (wholeCall 0 .get) := by
    by_cases self : n = 0
    · subst self
      rfl
    · have idle : (run step (start sendQueue) (wholeCall 0 .get)).stages n = .idle := by
        have moved : (run step (start sendQueue) (wholeCall 0 .get)).stages = Function.update
            (Function.update (Function.update (fun _ => .idle) 0 (.locking .get)) 0 .getTesting) 0
              .getWaiting := rfl
        simp [moved, self]
      simp only [advance, idle]
  rcases (stuck_reason (fun _ => none) 65535 sendQueue rfl
      (by decide) (wholeCall 0 .get) rfl stuck).2 with full | empty
  · obtain ⟨item, stage, -⟩ := full 0 List.mem_cons_self
    cases stage
  · exact empty 0 List.mem_cons_self

end LazyAS.DSQueueRuns

import LazyAS.DataReceiver

/-! Who sleeps in the data collector's server: the receivers that wait for room in the
buffer, and the saver that waits for a record. -/
namespace LazyAS.ReceiverWaits
open DataReceiver Monitor Runs

variable {Record : Type}

/-- A signal on `full` has been issued for the receiver, which has yet to take the mutex. -/
def Woken (s : State Record) (n : Nat) : Prop :=
  (s.receivers n).Waits ∧ .receiver n ∉ s.mutex.blocked .full

/-- While a receiver waits on `full`, the buffer is full or a receiver is being woken. -/
def NoSleeper (s : State Record) : Prop :=
  ∀ n, .receiver n ∈ s.mutex.blocked .full → s.buffer.length = MAX ∨ ∃ m, Woken s m

/-- The saver takes no record while a receiver waits on `full`. -/
def TakesUnawaited (s : State Record) (event : Event Record) : Prop :=
  event = .save → s.saving = .taking → s.mutex.blocked .full = []

theorem nobody_woken (s : State Record) (ok : Guarded s) (n : Nat) : ¬ Woken s n := by
  rintro ⟨waits, unlisted⟩
  exact unlisted ((ok.waiters (.receiver n)).mpr ⟨n, rfl, waits⟩)

theorem noSleeper_of_guarded (s : State Record) (ok : Guarded s) :
    NoSleeper s ↔ (s.mutex.blocked .full ≠ [] → s.buffer.length = MAX) := by
  constructor
  · intro awake some'
    obtain ⟨t, member⟩ := List.exists_mem_of_ne_nil _ some'
    obtain ⟨n, rfl, -⟩ := (ok.waiters t).mp member
    rcases awake n member with full | ⟨m, woken⟩
    · exact full
    · exact absurd woken (nobody_woken s ok m)
  · intro full n member
    exact Or.inl (full (List.ne_nil_of_mem member))

theorem noSleeper_receives {s s' : State Record} {n : Nat} (move : Receives s n s') (ok : Guarded s)
    (awake : s.mutex.blocked .full ≠ [] → s.buffer.length = MAX) :
    s'.mutex.blocked .full ≠ [] → s'.buffer.length = MAX := by
  cases move with
  | stay | read | finish | lock | pass | resume | unlock | close => exact awake
  | signal => simpa [State.goto] using awake
  | wait _ _ isFull =>
      intro _
      exact isFull
  | add record here =>
      intro waited
      have full := awake waited
      have room := ok.bounded.room n record here
      omega

theorem noSleeper_saves {s s' : State Record} (move : Saves s s')
    (awake : s.mutex.blocked .full ≠ [] → s.buffer.length = MAX)
    (nobody : s.saving = .taking → s.mutex.blocked .full = []) :
    s'.mutex.blocked .full ≠ [] → s'.buffer.length = MAX := by
  cases move with
  | stay | lock | pass | resume | unlock => exact awake
  | wait | signal => simpa using awake
  | take here =>
      intro waited
      exact absurd (nobody here) waited

/-- A step keeps the receivers from sleeping beside a buffer with room exactly if it is not
the saver's taking while one of them waits. -/
theorem noSleeper_step (s : State Record) (event : Event Record) (ok : Guarded s)
    (awake : NoSleeper s) :
    NoSleeper (step s event) ↔ TakesUnawaited s event := by
  rw [noSleeper_of_guarded _ (guarded_step s event ok)]
  rw [noSleeper_of_guarded s ok] at awake
  cases event with
  | accept result =>
      apply iff_of_true
      · obtain ⟨-, -, mutex, buffer, -⟩ := accepts_frame (accept_accepts s result)
        rw [step, mutex, buffer]
        exact awake
      · intro saves
        cases saves
  | create created =>
      apply iff_of_true
      · obtain ⟨-, -, -, -, mutex, buffer, -⟩ := creates_frame (create_creates s created)
        rw [step, mutex, buffer]
        exact awake
      · intro saves
        cases saves
  | receive n read =>
      apply iff_of_true
      · exact noSleeper_receives (receive_receives s n read) ok awake
      · intro saves
        cases saves
  | save =>
      constructor
      · intro after _ taking
        -- a record taken from a full buffer leaves room beside the waiter
        by_contra waited
        have full := awake waited
        have left : (step s .save).mutex.blocked .full ≠ [] → (Get s.buffer).length = MAX := by
          simpa only [step, save, taking] using after
        have still : (step s .save).mutex.blocked .full ≠ [] := by
          simpa only [step, save, taking] using waited
        have shorter := left still
        rw [Get, List.length_tail, full] at shorter
        simp [MAX] at shorter
      · intro unawaited
        exact noSleeper_saves (save_saves s) awake (unawaited rfl)

/-- In a run no receiver ever sleeps beside a buffer with room exactly if the saver never
takes a record while a receiver waits: `full` is waited for, and never signalled. -/
theorem noSleeper_iff (junk : Int) (events : List (Event Record)) :
    Throughout step NoSleeper (start junk) events ↔
      Allowed step TakesUnawaited (start junk) events := by
  apply throughout_iff Guarded
  · exact guarded_start junk
  · intro n member
    simp [start, unused] at member
  · exact guarded_step
  · exact noSleeper_step

/-! A run that fills the buffer. -/

/-- Receiver 0 is about to read, nobody is in the critical section or waits for room, the
saver has not come to its lock call and the buffer holds `k` records. -/
structure Filled (s : State Unit) (k : Nat) : Prop where
  reads : s.receivers 0 = .reading
  free : s.mutex.holder = none
  nobody : s.mutex.blocked .full = []
  saver : s.saving = .locking
  holds : s.buffer.length = k

def received : Event Unit := .receive 0 (some ())

theorem filled_pass (s : State Unit) (k : Nat) (filled : Filled s k) (room : k < MAX) :
    Filled (run step s (List.replicate 6 received)) (k + 1) := by
  obtain ⟨reads, free, nobody, saver, holds⟩ := filled
  have notFull : IsFull s.buffer = false := by
    simp only [IsFull, holds, beq_eq_false_iff_ne]
    omega
  constructor <;>
    simp [run, List.replicate, received, step, receive, reads, State.goto, State.call, Mutex.Free,
      free, notFull, Mutex.acquire, Mutex.release, nobody, saver, DataReceiver.Add, holds]

theorem filled_run (s : State Unit) (start' : Filled s 0) (k : Nat) (room : k ≤ MAX) :
    Filled (run step s (List.replicate (6 * k) received)) k := by
  induction k with
  | zero => exact start'
  | succ k ih =>
      -- six calls of the receiver for each record
      rw [Nat.mul_succ, ← List.replicate_append_replicate, run_append]
      exact filled_pass _ k (ih (by omega)) room

theorem filled_sleeps (s : State Unit) (ok : Guarded s) (filled : Filled s MAX) :
    ¬ NoSleeper (run step s (List.replicate 3 received ++ List.replicate 3 .save)) := by
  obtain ⟨reads, free, nobody, saver, holds⟩ := filled
  have full : IsFull s.buffer = true := by simp [IsFull, holds]
  have stocked : IsEmpty s.buffer = false := by
    cases buffer : s.buffer with
    | nil => simp [buffer, MAX] at holds
    | cons => rfl
  rw [noSleeper_of_guarded _ (run_invariant Guarded ok guarded_step _)]
  simp [run, List.replicate, received, step, receive, save, reads, State.goto, State.call,
    Mutex.Free, free, full, stocked, Mutex.acquire, Mutex.wait, nobody, saver, Get, holds, MAX]

def overrun : List (Event Unit) :=
  [.accept 4, .create true] ++ List.replicate (6 * MAX) received ++
    (List.replicate 3 received ++ List.replicate 3 .save)

theorem overrun_sleeps : ¬ Throughout step NoSleeper (start 0) overrun := by
  intro awake
  have opened : Filled (run step (start 0) [.accept 4, .create true]) 0 := by
    constructor <;> simp [run, step, accept, create, start, unused, State.goto]
  have filled := filled_run _ opened MAX (Nat.le_refl MAX)
  have ended := awake overrun [] (List.append_nil _).symm
  have guarded := run_invariant Guarded (guarded_start 0) guarded_step
    ([.accept 4, .create true] ++ List.replicate (6 * MAX) received)
  rw [overrun, run_append] at ended
  rw [← run_append] at filled
  exact filled_sleeps _ guarded filled ended

/-! The saver. -/

/-- Where the saver is about to take a record there is one: it is alone in waiting on
`empty`, and whoever wakes it has added a record. -/
structure Stocked (s : State Record) : Prop where
  listed : s.mutex.blocked .empty = [] ∨ (s.mutex.blocked .empty = [.saver] ∧ s.saving = .waiting)
  taking : s.saving = .taking → s.buffer ≠ []
  woken : s.saving = .waiting → s.mutex.blocked .empty = [] → s.buffer ≠ []
  added : ∀ n, s.receivers n = .signalling → s.buffer ≠ []

theorem stocked_receives {s s' : State Record} {n : Nat} (move : Receives s n s') (ok : Stocked s) :
    Stocked s' := by
  obtain ⟨-, -, -, saving⟩ := receives_frame move
  have grows : s.buffer ≠ [] → s'.buffer ≠ [] := by
    cases move <;> simp [State.goto, State.call, DataReceiver.Add]
  have listed : s'.mutex.blocked .empty = s.mutex.blocked .empty ∨
      (s'.mutex.blocked .empty = (s.mutex.blocked .empty).tail ∧ s.buffer ≠ []) := by
    cases move with
    -- the signal wakes the saver, and the record was added before
    | signal here => exact Or.inr ⟨signal_here .., ok.added n here⟩
    | wait => exact Or.inl (wait_elsewhere _ _ _ _ (by decide))
    | _ => exact Or.inl rfl
  constructor
  · rw [saving]
    rcases listed with same | ⟨tail, -⟩
    · rw [same]
      exact ok.listed
    · rw [tail]
      rcases ok.listed with none' | ⟨alone, -⟩
      · simp [none']
      · simp [alone]
  · rw [saving]
    exact grows ∘ ok.taking
  · rw [saving]
    intro waits awake
    rcases listed with same | ⟨-, stocked⟩
    · exact grows (ok.woken waits (same.symm.trans awake))
    · exact grows stocked
  · intro m signals
    by_cases self : m = n
    · subst self
      cases move with
      | stay => exact ok.added m signals
      | add => simp [State.goto, DataReceiver.Add]
      | _ => simp [State.goto] at signals
    · apply grows
      apply ok.added m
      rw [← others_receive move m self]
      exact signals

theorem stocked_saves {s s' : State Record} (move : Saves s s') (owned : Owned s.Inside s.mutex)
    (ok : Stocked s) :
    Stocked s' := by
  have unlisted : s.saving ≠ .waiting → s.mutex.blocked .empty = [] := by
    intro elsewhere
    rcases ok.listed with none' | ⟨-, waits⟩
    · exact none'
    · exact absurd waits elsewhere
  cases move with
  | stay => exact ok
  | lock here | signal here | unlock here =>
      have none' := unlisted (by simp [here])
      constructor
      · left
        simp [none']
      · intro taking
        cases taking
      · intro waiting
        cases waiting
      · exact ok.added
  | wait here =>
      have none' := unlisted (by simp [here])
      constructor
      · right
        simp [none']
      · intro taking
        cases taking
      · intro _ awake
        simp at awake
      · exact ok.added
  | pass here stocked =>
      constructor
      · exact Or.inl (unlisted (by simp [here]))
      · intro _
        exact stocked
      · intro waiting
        cases waiting
      · exact ok.added
  | resume here resumes =>
      have none' : s.mutex.blocked .empty = [] := by
        rcases ok.listed with none' | ⟨alone, -⟩
        · exact none'
        · exact absurd (by simp [alone]) resumes.2
      constructor
      · exact Or.inl none'
      · intro _
        exact ok.woken here none'
      · intro waiting
        cases waiting
      · exact ok.added
  | take here =>
      -- The saver holds the mutex, so no receiver has just added a record.
      have nobody (n : Nat) : s.receivers n ≠ .signalling := by
        intro signals
        have alone : Thread.saver = .receiver n := by
          apply owned.alone
          · simp [State.Inside, here, Saving.Inside]
          · simp [State.Inside, signals, Receiving.Inside]
        cases alone
      constructor
      · exact Or.inl (unlisted (by simp [here]))
      · intro taking
        cases taking
      · intro waiting
        cases waiting
      · intro n signals
        exact absurd signals (nobody n)

theorem stocked_accepts {s s' : State Record} (move : Accepts s s') (ok : Stocked s) :
    Stocked s' := by
  obtain ⟨receivers, saving, mutex, buffer, -⟩ := accepts_frame move
  constructor
  · rw [mutex, saving]
    exact ok.listed
  · rw [saving, buffer]
    exact ok.taking
  · rw [saving, mutex, buffer]
    exact ok.woken
  · rw [receivers, buffer]
    exact ok.added

theorem stocked_creates {s s' : State Record} (move : Creates s s') (numbered : Numbered s)
    (ok : Stocked s) :
    Stocked s' := by
  obtain ⟨-, -, -, saving, mutex, buffer, -⟩ := creates_frame move
  constructor
  · rw [mutex, saving]
    exact ok.listed
  · rw [saving, buffer]
    exact ok.taking
  · rw [saving, mutex, buffer]
    exact ok.woken
  · intro n signals
    rw [buffer]
    rcases receivers_creates move numbered n with same | ⟨-, reads⟩
    · exact ok.added n (same.symm.trans signals)
    · rw [reads] at signals
      cases signals

theorem stocked_step (s : State Record) (event : Event Record) (guarded : Guarded s)
    (ok : Stocked s) :
    Stocked (step s event) := by
  cases event with
  | accept result => exact stocked_accepts (accept_accepts s result) ok
  | create created => exact stocked_creates (create_creates s created) guarded.numbered ok
  | receive n read => exact stocked_receives (receive_receives s n read) ok
  | save => exact stocked_saves (save_saves s) guarded.owned ok

/-- However the threads are scheduled, `Get` is never called on an empty buffer. -/
theorem get_finds_record (junk : Int) (events : List (Event Record))
    (taking : (run step (start junk) events).saving = .taking) :
    (run step (start junk) events).buffer ≠ [] := by
  have both : Guarded (run step (start junk) events) ∧ Stocked (run step (start junk) events) := by
    apply run_invariant (fun s => Guarded s ∧ Stocked s)
    · constructor
      · exact guarded_start junk
      · constructor
        · exact Or.inl rfl
        · intro taking
          cases taking
        · intro waiting
          cases waiting
        · intro n signals
          cases signals
    · intro s event ok
      exact ⟨guarded_step s event ok.1, stocked_step s event ok.1 ok.2⟩
  exact both.2.taking taking

end LazyAS.ReceiverWaits

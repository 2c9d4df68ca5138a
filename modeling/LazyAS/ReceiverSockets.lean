import LazyAS.DataReceiver

/-! Which client a receive thread of the data collector's server serves. All of them are
handed the address of one variable, which they read again for every call. -/
namespace LazyAS.ReceiverSockets
open DataReceiver Runs

variable {Record : Type}

/-- Every read and close went to the socket of the accept call the thread was created for. -/
def OwnSocket (s : State Record) : Prop := ∀ call ∈ s.calls, call.socket = some call.receiver

/-- The step is a read or a close by the receiver `n`. -/
def Calls (s : State Record) : Event Record → Nat → Prop
  | .receive m read, n => m = n ∧ match s.receivers n with
      | .reading => read ≠ none ∨ s.sockets s.client ≠ none
      | .closing => True
      | _ => False
  | _, _ => False

/-- Only the newest receiver reads and closes: no later accept call has returned. -/
def NewestOnly (s : State Record) (event : Event Record) : Prop :=
  ∀ n, Calls s event n → n + 1 = s.accepted ∧ s.loop ≠ .failed

theorem ownSocket_snoc (s s' : State Record) (n : Nat)
    (calls : s'.calls = s.calls ++ [⟨n, s.sockets s.client⟩]) :
    OwnSocket s' ↔ OwnSocket s ∧ s.sockets s.client = some n := by
  rw [OwnSocket, calls]
  simp only [List.mem_append, List.mem_singleton, or_imp, forall_and, forall_eq]
  exact Iff.rfl

/-- What the variable leads to: the newest connection or none, and as long as every thread
kept to its own socket, the newest connection until its own receiver has closed it. -/
structure Pointed (s : State Record) : Prop where
  newest : ∀ n, s.sockets s.client = some n → n + 1 = s.accepted ∧ s.loop ≠ .failed
  closed : s.sockets (-1) = none
  kept : OwnSocket s → s.loop ≠ .failed → ∀ n, n + 1 = s.accepted → s.receivers n ≠ .ended →
    s.sockets s.client = some n

theorem pointed_accepts {s s' : State Record} (move : Accepts s s') (ok : Pointed s) :
    Pointed s' := by
  cases move with
  | stay => exact ok
  | fail =>
      constructor
      · intro n opened
        rw [ok.closed] at opened
        cases opened
      · exact ok.closed
      · intro _ running
        exact absurd rfl running
  | connect result _ descriptor =>
      -- the variable now leads to the connection just accepted
      constructor
      · intro n opened
        simp only [Function.update_self, Option.some.injEq] at opened
        simp [opened]
      · have other : (-1 : Int) ≠ result := by omega
        simp only [Function.update_of_ne other]
        exact ok.closed
      · intro _ _ n last _
        simp only [Function.update_self, Nat.succ.inj last]

theorem pointed_creates {s s' : State Record} (move : Creates s s') (numbered : Numbered s)
    (ok : Pointed s) :
    Pointed s' := by
  obtain ⟨client, sockets, accepted, -, -, -, calls⟩ := creates_frame move
  have running : s'.loop ≠ .failed → s.loop ≠ .failed := by
    cases move with
    | stay => exact id
    | fail creating | create creating => simp [creating]
  have creating : s.loop ≠ .failed → s'.loop ≠ .failed := by
    cases move with
    | stay => exact id
    | fail | create => simp
  constructor
  · intro n opened
    rw [client, sockets] at opened
    rw [accepted]
    obtain ⟨last, goes⟩ := ok.newest n opened
    exact ⟨last, creating goes⟩
  · rw [sockets]
    exact ok.closed
  · rw [OwnSocket, calls, client, sockets, accepted]
    intro own goes n last live
    apply ok.kept own (running goes) n last
    -- The thread that is created now had no stage before, so it had not ended.
    rcases receivers_creates move numbered n with same | ⟨absent, -⟩
    · rw [← same]
      exact live
    · simp [absent]

theorem receive_calls (s : State Record) (n : Nat) (read : Option Record) :
    (Calls s (.receive n read) n ∧
      (receive s n read).calls = s.calls ++ [⟨n, s.sockets s.client⟩]) ∨
      (¬ Calls s (.receive n read) n ∧ (receive s n read).calls = s.calls ∧
        (receive s n read).sockets = s.sockets) := by
  -- a step of a receiver makes one call, whose target is where the variable points now, or none
  cases stage : s.receivers n with
  | reading =>
      cases read with
      | some record =>
          left
          simp [Calls, receive, stage, State.goto, State.call]
      | none =>
          by_cases opened : s.sockets s.client = none
          · right
            simp [Calls, receive, stage, opened]
          · left
            simp [Calls, receive, stage, opened, State.goto, State.call]
  | closing =>
      left
      simp [Calls, receive, stage, State.goto, State.call]
  | _ =>
      right
      simp only [Calls, receive, stage, and_false, not_false_eq_true, true_and]
      repeat' split
      all_goals exact ⟨rfl, rfl⟩

theorem calls_live (s : State Record) (n : Nat) (read : Option Record)
    (calls : Calls s (.receive n read) n) :
    s.receivers n ≠ .ended := by
  intro ended
  simp [Calls, ended] at calls

theorem own_iff_newest (s : State Record) (n : Nat) (read : Option Record) (ok : Pointed s)
    (own : OwnSocket s) (calls : Calls s (.receive n read) n) :
    s.sockets s.client = some n ↔ n + 1 = s.accepted ∧ s.loop ≠ .failed := by
  constructor
  · exact ok.newest n
  · rintro ⟨last, running⟩
    exact ok.kept own running n last (calls_live s n read calls)

theorem ended_receives {s s' : State Record} {n : Nat} (move : Receives s n s') (m : Nat)
    (ended : s.receivers m = .ended) : s'.receivers m = .ended := by
  by_cases self : m = n
  · subst self
    cases move with
    | stay => exact ended
    | close => simp [State.goto]
    | _ => simp_all
  · rw [others_receive move m self]
    exact ended

theorem pointed_receives {s s' : State Record} {n : Nat} (move : Receives s n s')
    (own : OwnSocket s' → OwnSocket s)
    (calls : s.receivers n = .closing → OwnSocket s' → s.sockets s.client = some n)
    (ok : Pointed s) :
    Pointed s' := by
  obtain ⟨client, accepted, loop, -⟩ := receives_frame move
  have ended := ended_receives move
  cases move with
  | close here =>
      constructor
      · intro m opened
        simp [State.goto, State.call] at opened
      · by_cases self : -1 = s.client
        · simp [State.goto, State.call, self]
        · simpa [State.goto, State.call, self] using ok.closed
      · intro own' _ m last live
        -- The socket that was closed was the newest one, and its own receiver closed it.
        have pointed := (ok.newest n (calls here own')).1
        have same : m = n := by
          rw [accepted] at last
          omega
        exact absurd (by simp [same, State.goto]) live
  | _ =>
      constructor
      · exact ok.newest
      · exact ok.closed
      · intro own' running m last live
        apply ok.kept (own own') running m last
        exact fun before => live (ended m before)

theorem pointed_step (s : State Record) (event : Event Record) (guarded : Guarded s)
    (ok : Pointed s) :
    Pointed (step s event) := by
  cases event with
  | accept result => exact pointed_accepts (accept_accepts s result) ok
  | create created => exact pointed_creates (create_creates s created) guarded.numbered ok
  | receive n read =>
      apply pointed_receives (receive_receives s n read) _ _ ok
      · rcases receive_calls s n read with ⟨-, calls⟩ | ⟨-, calls, -⟩
        · exact fun own => ((ownSocket_snoc s _ n calls).mp own).1
        · rw [OwnSocket, calls]
          exact id
      · intro here own
        rcases receive_calls s n read with ⟨-, calls⟩ | ⟨none', -⟩
        · exact ((ownSocket_snoc s _ n calls).mp own).2
        · exact absurd ⟨rfl, by simp [here]⟩ none'
  | save =>
      obtain ⟨client, accepted, loop, receivers, sockets, calls⟩ := saves_frame (save_saves s)
      constructor
      · simp only [step, client, accepted, loop, sockets]
        exact ok.newest
      · simp only [step, sockets]
        exact ok.closed
      · simp only [step, OwnSocket, client, accepted, loop, receivers, sockets, calls]
        exact ok.kept

theorem ownSocket_step (s : State Record) (event : Event Record) (ok : Pointed s)
    (own : OwnSocket s) :
    OwnSocket (step s event) ↔ NewestOnly s event := by
  cases event with
  | accept result =>
      apply iff_of_true
      · obtain ⟨-, -, -, -, calls⟩ := accepts_frame (accept_accepts s result)
        rw [OwnSocket, step, calls]
        exact own
      · intro n calls
        exact absurd calls id
  | create created =>
      apply iff_of_true
      · obtain ⟨-, -, -, -, -, -, calls⟩ := creates_frame (create_creates s created)
        rw [OwnSocket, step, calls]
        exact own
      · intro n calls
        exact absurd calls id
  | receive n read =>
      rcases receive_calls s n read with ⟨calls, grown⟩ | ⟨quiet, same, -⟩
      · change OwnSocket (receive s n read) ↔ _
        rw [ownSocket_snoc s _ n grown, own_iff_newest s n read ok own calls]
        constructor
        · rintro ⟨-, newest⟩ m other
          rw [← other.1]
          exact newest
        · intro newest
          exact ⟨own, newest n calls⟩
      · apply iff_of_true
        · change OwnSocket (receive s n read)
          rw [OwnSocket, same]
          exact own
        · intro m other
          obtain ⟨rfl, -⟩ := id other
          exact absurd other quiet
  | save =>
      apply iff_of_true
      · obtain ⟨-, -, -, -, -, calls⟩ := saves_frame (save_saves s)
        rw [OwnSocket, step, calls]
        exact own
      · intro n calls
        exact absurd calls id

/-- In a run every receive thread reads from and closes only its own client's socket exactly
if none of its calls comes after the next accept call has returned. -/
theorem ownSocket_iff (junk : Int) (events : List (Event Record)) :
    Throughout step OwnSocket (start junk) events ↔
      Allowed step NewestOnly (start junk) events := by
  apply throughout_iff (fun s => Guarded s ∧ Pointed s)
  · constructor
    · exact guarded_start junk
    · constructor
      · intro n opened
        cases opened
      · rfl
      · intro _ _ n last
        cases last
  · intro call member
    simp [start] at member
  · intro s event ok
    exact ⟨guarded_step s event ok.1, pointed_step s event ok.1 ok.2⟩
  · intro s event ok own
    exact ownSocket_step s event ok.2 own

def lateRead : List (Event Unit) :=
  [.accept 5, .create true, .accept 6, .create true, .receive 0 (some ())]

theorem lateRead_steals :
    (run step (start 0) lateRead).calls = [⟨0, some 1⟩] ∧
      ¬ Throughout step OwnSocket (start 0) lateRead := by
  have made : (run step (start 0) lateRead).calls = [⟨0, some 1⟩] := by decide
  constructor
  · exact made
  · intro own
    have ended := own lateRead [] rfl
    rw [OwnSocket, made] at ended
    have first := ended ⟨0, some 1⟩ (List.mem_singleton_self _)
    simp at first

end LazyAS.ReceiverSockets

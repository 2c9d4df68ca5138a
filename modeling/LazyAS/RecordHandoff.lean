import LazyAS.Runs
import LazyAS.SessionKey

/-! The one-slot hand-off of `infoCollect.c`: `captureOne` stores a record in `cur_task` under a
try-lock and `getArgs` takes it out. Each critical section is one step. A record is known by the
place of its `malloc` among all of them, and `sendQueue` and `freed` list what was ever put or freed
there. -/
namespace LazyAS.RecordHandoff
open WireText SessionKey Runs

/-- The fields of a `Record` that `captureOne` fills in. -/
structure Record where
  staMac : Text
  delay : Int
  deriving DecidableEq

structure State where
  records : List Record
  curTask : Option Nat
  sendQueue : List Nat
  freed : List Nat
  deriving DecidableEq

def initial : State := ⟨[], none, [], []⟩

def mac2String (mac : Vector UInt8 6) : Text :=
  ":".toList.intercalate (mac.toList.map fun byte => paddedHex 2 byte.toNat)

/-- The record of a handshake whose first packet came at the given time. -/
def measured (packet : Packet) (start : Int × Int) : Record where
  staMac := mac2String packet.shost
  delay := ((packet.seconds - start.1) * 1000000 + (packet.microseconds - start.2)).bmod (2 ^ 32)

/-- What `captureOne` makes a record of: a packet that acknowledges and does not open, when `ht_get`
knows the time of its handshake. -/
def recordOf (packet : Packet) (start : Option (Int × Int)) : Option Record :=
  if packet.syn ∧ packet.ack then none
  else if packet.ack then start.map (measured packet)
  else none

/-- The end of `captureOne`; `locked` says whether `pthread_mutex_trylock` returned 0. -/
def captureOne (packet : Packet) (start : Option (Int × Int)) (locked : Bool) (state : State) :
    State :=
  match recordOf packet start with
  | none => state
  | some record =>
      let allocated := state.records.length
      if locked then { state with records := state.records ++ [record], curTask := some allocated }
      else { state with records := state.records ++ [record], freed := state.freed ++ [allocated] }

/-- One pass of `getArgs`; `informed` is what `getInfo` returned. It waits while `cur_task` is
`NULL`. -/
def getArgs (informed : Bool) (state : State) : State :=
  match state.curTask with
  | none => state
  | some task =>
      if informed then { state with sendQueue := state.sendQueue ++ [task], curTask := none }
      else { state with freed := state.freed ++ [task], curTask := none }

inductive Event where
  | captured (packet : Packet) (start : Option (Int × Int)) (locked : Bool)
  | woken (informed : Bool)

def step (state : State) : Event → State
  | .captured packet start locked => captureOne packet start locked state
  | .woken informed => getArgs informed state

/-- Where records are: in `cur_task`, on `sendQueue`, or freed. -/
def places (state : State) : List Nat := state.curTask.toList ++ (state.sendQueue ++ state.freed)

/-- Every record there ever was is in exactly one place, and there once. -/
def Kept (state : State) : Prop := ∀ record < state.records.length, (places state).count record = 1

def Overwrites (state : State) (event : Event) : Prop :=
  ∃ old new, state.curTask = some old ∧ (step state event).curTask = some new ∧ old ≠ new

/-- A record is stored only when `cur_task` is free. -/
def Fits (state : State) : Event → Prop
  | .captured packet start locked =>
    recordOf packet start ≠ none → locked = true → state.curTask = none
  | .woken _ => True

/-- What holds whether records are lost or not: nothing is in two places, and everything somewhere
was allocated. -/
structure Sound (state : State) : Prop where
  once : (places state).Nodup
  allocated : ∀ record ∈ places state, record < state.records.length

theorem sound_initial : Sound initial := ⟨List.nodup_nil, fun _ member => nomatch member⟩

theorem captureOne_cases (packet : Packet) (start : Option (Int × Int)) (locked : Bool)
    (state : State) :
    (recordOf packet start = none ∧ captureOne packet start locked state = state) ∨
      ∃ record, recordOf packet start = some record ∧
        (locked = true ∧ captureOne packet start locked state =
            { state with
              records := state.records ++ [record], curTask := some state.records.length } ∨
          locked = false ∧ captureOne packet start locked state =
            { state with records := state.records ++ [record],
                         freed := state.freed ++ [state.records.length] }) := by
  unfold captureOne
  cases recordOf packet start with
  | none => exact Or.inl ⟨rfl, rfl⟩
  | some record =>
      refine Or.inr ⟨record, rfl, ?_⟩
      cases locked with
      | true => exact Or.inl ⟨rfl, rfl⟩
      | false => exact Or.inr ⟨rfl, rfl⟩

theorem getArgs_places (informed : Bool) (state : State) :
    (places (getArgs informed state)).Perm (places state) := by
  unfold getArgs
  cases holds : state.curTask with
  | none => exact .refl _
  | some task =>
      cases informed with
      | true => simp [places, holds]
      | false => simp [places, holds, ← List.append_assoc]

theorem getArgs_records (informed : Bool) (state : State) :
    (getArgs informed state).records = state.records := by
  unfold getArgs
  split
  · rfl
  · split <;> rfl

theorem freed_places (state : State) (record : Record) :
    (places { state with
      records := state.records ++ [record], freed := state.freed ++ [state.records.length] }).Perm
      (state.records.length :: places state) := by
  simp [places, ← List.append_assoc]

theorem moved (state after : State) (same : (places after).Perm (places state))
    (records : after.records.length = state.records.length) (sound : Sound state) :
    Sound after ∧ (Kept state → Kept after) := by
  constructor
  · refine ⟨same.nodup_iff.mpr sound.once, fun record member => ?_⟩
    rw [records]
    exact sound.allocated record (same.mem_iff.mp member)
  · intro kept record small
    rw [same.count_eq]
    exact kept record (records ▸ small)

theorem grown (state after : State)
    (more : (places after).Perm (state.records.length :: places state))
    (records : after.records.length = state.records.length + 1) (sound : Sound state) :
    Sound after ∧ (Kept state → Kept after) := by
  have fresh : state.records.length ∉ places state := fun member =>
      Nat.lt_irrefl _ (sound.allocated _ member)
  constructor
  · refine ⟨more.nodup_iff.mpr (List.nodup_cons.mpr ⟨fresh, sound.once⟩), fun record member => ?_⟩
    rw [records]
    rcases List.mem_cons.mp (more.mem_iff.mp member) with rfl | member
    · exact Nat.lt_succ_self _
    · exact Nat.lt_succ_of_lt (sound.allocated record member)
  · intro kept record small
    rw [more.count_eq]
    rcases Nat.lt_succ_iff_lt_or_eq.mp (records ▸ small) with older | rfl
    · rw [List.count_cons_of_ne (Nat.ne_of_gt older)]
      exact kept record older
    · rw [List.count_cons_self, List.count_eq_zero_of_not_mem fresh]

theorem overwritten (state : State) (old : Nat) (record : Record) (sound : Sound state)
    (holds : state.curTask = some old) :
    let after := { state with
      records := state.records ++ [record], curTask := some state.records.length }
    Sound after ∧ ¬ Kept after ∧ old < state.records.length := by
  -- a record stored over another one: the other one is nowhere afterwards
  intro after
  have was : places state = old :: (state.sendQueue ++ state.freed) := by simp [places, holds]
  have now : places after = state.records.length :: (state.sendQueue ++ state.freed) := rfl
  have size : after.records.length = state.records.length + 1 := List.length_append
  have once := was ▸ sound.once
  have allocated := was ▸ sound.allocated
  have older := allocated old List.mem_cons_self
  have fresh : state.records.length ∉ state.sendQueue ++ state.freed := fun member =>
    Nat.lt_irrefl _ (allocated _ (List.mem_cons_of_mem _ member))
  refine ⟨⟨?_, ?_⟩, ?_, older⟩
  · rw [now]
    exact List.nodup_cons.mpr ⟨fresh, (List.nodup_cons.mp once).2⟩
  · intro task member
    rw [size]
    rw [now] at member
    rcases List.mem_cons.mp member with rfl | member
    · exact Nat.lt_succ_self _
    · exact Nat.lt_succ_of_lt (allocated task (List.mem_cons_of_mem _ member))
  · intro kept
    have lost := kept old (by rw [size]; exact Nat.lt_succ_of_lt older)
    rw [now, List.count_cons_of_ne (Nat.ne_of_gt older),
      List.count_eq_zero_of_not_mem (List.nodup_cons.mp once).1] at lost
    nomatch lost

theorem step_exact (state : State) (event : Event) (sound : Sound state) :
    Sound (step state event) ∧ (Overwrites state event ↔ ¬ Fits state event) ∧
      (Kept state → (Kept (step state event) ↔ Fits state event)) := by
  cases event with
  | woken informed =>
      have same := moved state (getArgs informed state) (getArgs_places informed state)
        (congrArg List.length (getArgs_records informed state)) sound
      refine ⟨same.1, ?_, fun kept => iff_of_true (same.2 kept) trivial⟩
      refine iff_of_false ?_ (fun wrong => wrong trivial)
      rintro ⟨old, new, holds, taken, -⟩
      have cleared : (getArgs informed state).curTask = none := by
        simp only [getArgs, holds]
        split <;> rfl
      exact nomatch taken.symm.trans cleared
  | captured packet start locked =>
      rcases captureOne_cases packet start locked state with ⟨absent, run⟩ |
          ⟨record, made, ⟨rfl, run⟩ | ⟨rfl, run⟩⟩
      · have fits : Fits state (.captured packet start locked) := fun made => absurd absent made
        simp only [Overwrites, step, run]
        refine ⟨sound, iff_of_false ?_ (fun wrong => wrong fits), fun kept => iff_of_true kept fits⟩
        rintro ⟨old, new, holds, after, different⟩
        exact different (Option.some.inj (holds.symm.trans after))
      · have fits_iff : Fits state (.captured packet start true) ↔ state.curTask = none :=
          ⟨fun fits => fits (by rw [made]; exact Option.some_ne_none record) rfl, fun free _ _ =>
            free⟩
        simp only [Overwrites, step, run, fits_iff]
        cases holds : state.curTask with
        | none =>
            have more := grown state { state with
                records := state.records ++ [record], curTask := some state.records.length }
              (by simp [places, holds]) List.length_append sound
            refine ⟨more.1, iff_of_false ?_ (fun wrong => wrong rfl), fun kept => iff_of_true
              (more.2 kept) rfl⟩
            rintro ⟨old, _, wrong, _⟩
            nomatch wrong
        | some old =>
            obtain ⟨soundAfter, lost, older⟩ := overwritten state old record sound holds
            refine ⟨soundAfter, iff_of_true ⟨old, _, rfl, rfl, Nat.ne_of_lt older⟩
              (fun wrong => nomatch wrong),
              fun _ => iff_of_false lost (fun wrong => nomatch wrong)⟩
      · have fits : Fits state (.captured packet start false) := fun _ wrong => nomatch wrong
        have more := grown state _ (freed_places state record) List.length_append sound
        simp only [Overwrites, step, run]
        refine ⟨more.1, iff_of_false ?_ (fun wrong => wrong fits), fun kept => iff_of_true
          (more.2 kept) fits⟩
        rintro ⟨old, new, holds, after, different⟩
        exact different (Option.some.inj (holds.symm.trans after))

/-- In every run, every record stays in exactly one place and none is overwritten in `cur_task`
exactly if every capture that stores a record finds `cur_task` free. -/
theorem records_kept (events : List Event) :
    (Throughout step Kept initial events ∧
      Allowed step (fun state event => ¬ Overwrites state event) initial events) ↔
      Allowed step Fits initial events := by
  have places_iff := throughout_iff Sound Kept sound_initial
      (fun _ small => absurd small (Nat.not_lt_zero _))
    (fun state event sound => (step_exact state event sound).1)
    (fun state event sound => (step_exact state event sound).2.2) events
  have overwrites_iff : Allowed step (fun state event => ¬ Overwrites state event) initial events ↔
      Allowed step Fits initial events :=
    allowed_congr Sound sound_initial
      (fun state event sound => by rw [(step_exact state event sound).2.1, not_not])
      (fun state event sound _ => (step_exact state event sound).1) events
  rw [places_iff, overwrites_iff, and_self]

/-- Two handshakes end before `getArgs` gets the lock. -/
def twoHandshakes : List Event :=
  [.captured { straightPacket with syn := false } (some (0, 0)) true,
    .captured { straightPacket with syn := false, source := 3 } (some (0, 0)) true]

theorem second_overwrites : ¬ ∀ events, Throughout step Kept initial events := by
  intro kept
  have lost := kept twoHandshakes twoHandshakes [] (List.append_nil _).symm 0
  exact absurd (lost (by decide +kernel)) (by decide +kernel)

end LazyAS.RecordHandoff

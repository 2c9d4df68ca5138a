import LazyAS.QueuedCommands

/-! The queue entry of one station and SSID while calls of `addVapContainer` and `CmdTask.run`
interleave, operation by operation. The calls lock their own copy of the address and the task locks
nothing. The task executes the command it has read and then removes whatever the entry holds. -/
namespace LazyAS.QueueRaces
open WireText ControllerView Master QueuedCommands Runs

structure Entry where
  call : Nat
  appCmd : AppCmd

/-- Where a call stands: before `containsKey`, before the put of a new entry, before each `get`,
before the put that takes over the time of the old entry, and after its end, also by an exception.
-/
inductive Producer where
  | starts | fresh | checks | compares | inherits
  | puts (firstHeart : Int)
  | done

/-- Where the task stands: between two steps of its iterator, with an entry it has read, before and
after the execution, and after an exception. -/
inductive Drain where
  | idle
  | reads (entry : Entry)
  | hands (entry : Entry)
  | removes (entry : Entry) (executed : Bool)
  | dead

/-- The entry, the threads, and what became of the commands so far. -/
structure Race where
  cell : Option Entry := none
  producers : Nat → Producer := fun _ => .starts
  drain : Drain := .idle
  puts : List Entry := []
  replaced : List Entry := []
  handed : List Entry := []

inductive Act where
  | produce (call : Nat) (now : Int)
  | read
  | look (now : Int) (tracked : Bool)
  | hand (fine : Bool)
  | remove

section Machine

variable (mac : Mac) (ssid : Text) (calls : Nat → Ref × Band)

def message (call : Nat) : StationCtrlMessage :=
  { msgType := .addVap, staMacAddr := mac, ssid := ssid, mode := some (calls call).2.text,
    agent := (calls call).1 }

namespace Race

variable (race : Race)

def goes (call : Nat) (producer : Producer) : Race :=
  { race with producers := Function.update race.producers call producer }

/-- `cmdQueue.put`, the last operation of a call. -/
def put (entry : Entry) : Race :=
  { race.goes entry.call .done with
    cell := some entry
    puts := race.puts ++ [entry]
    replaced := race.replaced ++ race.cell.toList }

/-- `cmdQueue.get` and what follows; without an entry the call ends with an exception. -/
def get (call : Nat) (found : AppCmd → Producer) : Race :=
  match race.cell with
  | none => race.goes call .done
  | some entry => race.goes call (found entry.appCmd)

end Race

def produce (race : Race) (call : Nat) (now : Int) : Race :=
  match race.producers call with
  | .starts => race.goes call (if race.cell.isSome then .checks else .fresh)
  | .fresh => race.put ⟨call, message mac ssid calls call, now⟩
  | .checks => race.get call fun queued =>
      if queued.message.staMacAddr = mac then .compares else .done
  | .compares => race.get call fun queued =>
      if queued.message.mode = some "011".toList ∧ (calls call).2.text = "010".toList then .done
        else .inherits
  | .inherits => race.get call fun queued => .puts queued.firstHeart
  | .puts firstHeart => race.put ⟨call, message mac ssid calls call, firstHeart⟩
  | .done => race

namespace Race

variable (race : Race)

def read : Race :=
  match race.drain, race.cell with
  | .idle, some entry => { race with drain := .reads entry }
  | _, _ => race

/-- The time and the station of the command are looked up. -/
def look (now : Int) (tracked : Bool) : Race :=
  match race.drain with
  | .reads entry =>
      if due now entry.appCmd then
        { race with drain := if tracked then .hands entry else .removes entry false }
      else { race with drain := .idle }
  | _ => race

def hand (fine : Bool) : Race :=
  match race.drain with
  | .hands entry =>
      { race with
        handed := race.handed ++ [entry], drain := if fine then .removes entry true else .dead }
  | _ => race

def remove : Race :=
  match race.drain with
  | .removes _ _ => { race with cell := none, drain := .idle }
  | _ => race

end Race

/-- The next operation of a call or of the task. One that is not its turn changes nothing. -/
def next (race : Race) : Act → Race
  | .produce call now => produce mac ssid calls race call now
  | .read => race.read
  | .look now tracked => race.look now tracked
  | .hand fine => race.hand fine
  | .remove => race.remove

/-- Every command that was put was handed over, was replaced in the queue, or is in it. -/
def Kept (race : Race) : Prop :=
  ∀ entry ∈ race.puts, entry ∈ race.handed ∨ entry ∈ race.replaced ∨ race.cell = some entry

def Puts (race : Race) (act : Act) : Prop :=
  ∃ call now, act = .produce call now ∧
    (race.producers call = .fresh ∨ ∃ firstHeart, race.producers call = .puts firstHeart)

def Misses (race : Race) (act : Act) : Prop :=
  (∃ entry, race.drain = .reads entry) ∧ ∃ now, act = .look now false

def Quiet (race : Race) (act : Act) : Prop := ¬ Puts race act ∧ ¬ Misses race act

/-- From an iterator step of the task to the removal it leads to nothing is put into the queue, and
at the look in between the station is tracked. -/
def Undisturbed (acts : List Act) : Prop :=
  ∀ before middle after, acts = before ++ .read :: (middle ++ .remove :: after) →
    (run (next mac ssid calls) {} before).drain = .idle →
    Throughout (next mac ssid calls) (fun race => race.drain ≠ .idle)
      (run (next mac ssid calls) {} before).read middle →
    (∃ entry executed, (run (next mac ssid calls) {} (before ++ .read :: middle)).drain =
      .removes entry executed) →
    Allowed (next mac ssid calls) Quiet (run (next mac ssid calls) {} before).read middle

/-! What every interleaving keeps. -/

/-- The entry was handed over and is not removed yet, or never will be. -/
def Executed (drain : Drain) (entry : Entry) : Prop := drain = .removes entry true ∨ drain = .dead

structure Steady (race : Race) : Prop where
  cell : ∀ entry, race.cell = some entry → entry ∈ race.puts ∧ entry ∉ race.replaced ∧
    (entry ∈ race.handed → Executed race.drain entry)
  ended : ∀ entry ∈ race.puts, race.producers entry.call = .done
  replaced : ∀ entry ∈ race.replaced, entry ∈ race.puts
  handed : ∀ entry ∈ race.handed, entry ∈ race.puts
  reading : race.drain = .idle ∨ race.drain = .dead ∨ race.cell.isSome = true
  taken : ∀ entry, race.drain = .reads entry ∨ race.drain = .hands entry → entry ∈ race.puts
  executed : ∀ entry, race.drain = .removes entry true → entry ∈ race.handed

variable {mac ssid calls}

theorem Steady.held {race : Race} (steady : Steady race) (active : race.drain ≠ .idle)
    (alive : race.drain ≠ .dead) :
    race.cell.isSome = true :=
  (steady.reading.resolve_left active).resolve_left alive

theorem steady_goes {race : Race} (steady : Steady race) (call : Nat) (producer : Producer)
    (open' : race.producers call = .done → producer = .done) :
    Steady (race.goes call producer) := by
  refine { steady with ended := fun entry member => ?_ }
  have before := steady.ended entry member
  by_cases own : entry.call = call
  · rw [own] at before
    rw [own, open' before]
    exact Function.update_self _ _ _
  · exact (Function.update_of_ne own _ _).trans before

theorem steady_put {race : Race} (steady : Steady race) (entry : Entry)
    (open' : race.producers entry.call ≠ .done) :
    Steady (race.put entry) := by
  -- the call has put nothing before
  have new : entry ∉ race.puts := fun member => open' (steady.ended entry member)
  refine ⟨?_, ?_, ?_, ?_, .inr (.inr rfl), ?_, steady.executed⟩
  · rintro _ ⟨rfl⟩
    refine ⟨by simp [Race.put], ?_, fun handed => absurd (steady.handed entry handed) new⟩
    rintro member
    rcases List.mem_append.mp member with before | old
    · exact new (steady.replaced entry before)
    · exact new (steady.cell entry (Option.mem_toList.mp old)).1
  · intro other member
    rcases List.mem_append.mp member with before | same
    · by_cases own : other.call = entry.call
      · exact absurd (own ▸ steady.ended other before) open'
      · exact (Function.update_of_ne own _ _).trans (steady.ended other before)
    · rw [List.mem_singleton] at same
      subst same
      exact Function.update_self _ _ _
  · intro other member
    rcases List.mem_append.mp member with before | old
    · exact List.mem_append_left _ (steady.replaced other before)
    · exact List.mem_append_left _ (steady.cell other (Option.mem_toList.mp old)).1
  · exact fun other member => List.mem_append_left _ (steady.handed other member)
  · exact fun other reads => List.mem_append_left _ (steady.taken other reads)

theorem steady_get {race : Race} (steady : Steady race) (call : Nat) (found : AppCmd → Producer)
    (open' : race.producers call ≠ .done) : Steady (race.get call found) := by
  unfold Race.get
  split
  · exact steady_goes steady call _ fun _ => rfl
  · exact steady_goes steady call _ fun done => absurd done open'

theorem steady_produce {race : Race} (steady : Steady race) (call : Nat) (now : Int) :
    Steady (produce mac ssid calls race call now) := by
  have open' {producer : Producer} (here : race.producers call = producer)
      (active : producer ≠ .done) :
      race.producers call ≠ .done := fun done => active (here.symm.trans done)
  unfold produce
  split
  · rename_i here
    exact steady_goes steady call _ fun done => absurd done (open' here (by simp))
  · rename_i here
    exact steady_put steady _ (open' here (by simp))
  · rename_i here
    exact steady_get steady call _ (open' here (by simp))
  · rename_i here
    exact steady_get steady call _ (open' here (by simp))
  · rename_i here
    exact steady_get steady call _ (open' here (by simp))
  · rename_i here
    exact steady_put steady _ (open' here (by simp))
  · exact steady

theorem unhanded {race : Race} (steady : Steady race) {entry : Entry}
    (found : race.cell = some entry) (busy : ∀ entry, ¬ Executed race.drain entry) :
    entry ∉ race.handed :=
  fun member => busy entry ((steady.cell entry found).2.2 member)

theorem steady_read {race : Race} (steady : Steady race) : Steady race.read := by
  unfold Race.read
  split
  · rename_i entry idle found
    refine { steady with cell := ?_, reading := ?_, taken := ?_, executed := ?_ }
    · intro other here
      obtain ⟨put, fresh, -⟩ := steady.cell other here
      refine ⟨put, fresh, fun member => absurd member (unhanded steady here ?_)⟩
      simp [Executed, idle]
    · exact .inr (.inr (by rw [found]; rfl))
    · rintro other (same | same)
      · cases same
        exact (steady.cell entry found).1
      · cases same
    · intro other same
      cases same
  · exact steady

theorem steady_look {race : Race} (now : Int) (tracked : Bool) (steady : Steady race) :
    Steady (race.look now tracked) := by
  unfold Race.look
  split
  · rename_i entry reads
    have held := steady.held (by simp [reads]) (by simp [reads])
    have put := steady.taken entry (.inl reads)
    have cell (other : Entry) (here : race.cell = some other) : other ∈ race.puts ∧
        other ∉ race.replaced ∧
        other ∉ race.handed := by
      obtain ⟨put, fresh, -⟩ := steady.cell other here
      exact ⟨put, fresh, unhanded steady here (by simp [Executed, reads])⟩
    have quiet (drain : Drain) (other : Entry) (here : race.cell = some other) : other ∈ race.puts ∧
        other ∉ race.replaced ∧ (other ∈ race.handed → Executed drain other) :=
      ⟨(cell other here).1, (cell other here).2.1, fun member => absurd member
        (cell other here).2.2⟩
    split
    · cases tracked with
      | true =>
          refine { steady with
            cell := quiet _, reading := .inr (.inr held), taken := ?_, executed := ?_ }
          · rintro other (same | same)
            · cases same
            · cases same
              exact put
          · intro other same
            cases same
      | false =>
          refine { steady with
            cell := quiet _, reading := .inr (.inr held), taken := ?_, executed := ?_ }
          · rintro other (same | same) <;> cases same
          · intro other same
            cases same
    · refine { steady with cell := quiet _, reading := .inl rfl, taken := ?_, executed := ?_ }
      · rintro other (same | same) <;> cases same
      · intro other same
        cases same
  · exact steady

theorem steady_hand {race : Race} (fine : Bool) (steady : Steady race) :
    Steady (race.hand fine) := by
  unfold Race.hand
  split
  · rename_i entry hands
    have held := steady.held (by simp [hands]) (by simp [hands])
    refine { steady with
      cell := ?_, handed := ?_, reading := .inr (.inr held), taken := ?_, executed := ?_ }
    · intro other here
      obtain ⟨put, fresh, -⟩ := steady.cell other here
      refine ⟨put, fresh, fun member => ?_⟩
      rcases List.mem_append.mp member with before | same
      · exact absurd before (unhanded steady here (by simp [Executed, hands]))
      · rw [List.mem_singleton] at same
        cases fine with
        | true => exact .inl (by simp [same])
        | false => exact .inr rfl
    · intro other member
      rcases List.mem_append.mp member with before | same
      · exact steady.handed other before
      · rw [List.mem_singleton] at same
        exact same ▸ steady.taken entry (.inr hands)
    · rintro other (same | same) <;> cases fine <;> cases same
    · intro other same
      cases fine with
      | true =>
          cases same
          simp
      | false => cases same
  · exact steady

theorem steady_remove {race : Race} (steady : Steady race) : Steady race.remove := by
  unfold Race.remove
  split
  · refine { steady with cell := ?_, reading := .inl rfl, taken := ?_, executed := ?_ }
    · intro other here
      cases here
    · rintro other (same | same) <;> cases same
    · intro other same
      cases same
  · exact steady

theorem steady_next {race : Race} (act : Act) (steady : Steady race) :
    Steady (next mac ssid calls race act) := by
  cases act with
  | produce call now => exact steady_produce steady call now
  | read => exact steady_read steady
  | look now tracked => exact steady_look now tracked steady
  | hand fine => exact steady_hand fine steady
  | remove => exact steady_remove steady

/-! What becomes of the commands. -/

theorem kept_put {race : Race} (entry : Entry) (kept : Kept race) : Kept (race.put entry) := by
  intro other member
  rcases List.mem_append.mp member with before | same
  · rcases kept other before with handed | replaced | here
    · exact .inl handed
    · exact .inr (.inl (List.mem_append_left _ replaced))
    · exact .inr (.inl (List.mem_append_right _ (Option.mem_toList.mpr here)))
  · rw [List.mem_singleton] at same
    exact .inr (.inr (congrArg some same.symm))

theorem kept_get {race : Race} (call : Nat) (found : AppCmd → Producer) (kept : Kept race) :
    Kept (race.get call found) := by
  unfold Race.get
  split <;> exact kept

theorem kept_produce {race : Race} (call : Nat) (now : Int) (kept : Kept race) :
    Kept (produce mac ssid calls race call now) := by
  unfold produce
  split
  · exact kept
  · exact kept_put _ kept
  · exact kept_get call _ kept
  · exact kept_get call _ kept
  · exact kept_get call _ kept
  · exact kept_put _ kept
  · exact kept

/-- What the task removes is the entry it has read, and it was executed. -/
def Fits (race : Race) (act : Act) : Prop :=
  act = .remove → ∀ entry executed, race.drain = .removes entry executed →
    race.cell = some entry ∧ executed = true

theorem kept_remove_iff {race : Race} (steady : Steady race) (kept : Kept race) :
    Kept race.remove ↔ Fits race .remove := by
  -- a removal keeps the commands exactly if it takes the one that was executed
  unfold Race.remove
  split
  · rename_i entry executed removes
    constructor
    · rintro after - _ _ same
      cases removes.symm.trans same
      have held := steady.held (by simp [removes]) (by simp [removes])
      obtain ⟨other, here⟩ := Option.isSome_iff_exists.mp held
      obtain ⟨put, fresh, handed⟩ := steady.cell other here
      rcases after other put with done | replaced | gone
      · rcases handed done with own | dead
        · cases removes.symm.trans own
          exact ⟨here, rfl⟩
        · cases removes.symm.trans dead
      · exact absurd replaced fresh
      · cases gone
    · intro fits other put
      obtain ⟨here, rfl⟩ := fits rfl entry executed removes
      rcases kept other put with done | replaced | still
      · exact .inl done
      · exact .inr (.inl replaced)
      · cases here.symm.trans still
        exact .inl (steady.executed entry removes)
  · rename_i other
    exact iff_of_true kept fun _ entry executed removes => absurd removes (other entry executed)

theorem kept_next_iff {race : Race} (act : Act) (steady : Steady race) (kept : Kept race) :
    Kept (next mac ssid calls race act) ↔ Fits race act := by
  cases act with
  | produce call now => exact iff_of_true (kept_produce call now kept) fun same => by cases same
  | read =>
      refine iff_of_true ?_ fun same => by cases same
      change Kept race.read
      unfold Race.read
      split <;> exact kept
  | look now tracked =>
      refine iff_of_true ?_ fun same => by cases same
      change Kept (race.look now tracked)
      unfold Race.look
      split
      · split <;> exact kept
      · exact kept
  | hand fine =>
      refine iff_of_true ?_ fun same => by cases same
      change Kept (race.hand fine)
      unfold Race.hand
      split
      · exact fun other put => (kept other put).imp_left (List.mem_append_left _)
      · exact kept
  | remove => exact kept_remove_iff steady kept

theorem steady_start : Steady {} where
  cell := fun _ found => by cases found
  ended := fun _ member => absurd member List.not_mem_nil
  replaced := fun _ member => absurd member List.not_mem_nil
  handed := fun _ member => absurd member List.not_mem_nil
  reading := .inl rfl
  taken := fun _ reads => by rcases reads with same | same <;> cases same
  executed := fun _ same => by cases same

/-! From the iterator step to the removal. -/

/-- The task is at the entry it has read, in steps that were all quiet or not. -/
structure AtEntry (entry : Entry) (quiet : Prop) (race : Race) : Prop where
  steady : Steady race
  put : entry ∈ race.puts
  stage : race.drain = .reads entry ∨ race.drain = .hands entry ∨
    (∃ executed, race.drain = .removes entry executed) ∨ race.drain = .dead
  own : quiet → race.cell = some entry ∧ race.drain ≠ .removes entry false
  other : ¬ quiet → race.cell ≠ some entry ∨ race.drain = .removes entry false ∨ race.drain = .dead

theorem produce_keeps (race : Race) (call : Nat) (now : Int) :
    (produce mac ssid calls race call now).drain = race.drain ∧
      ∀ entry ∈ race.puts, entry ∈ (produce mac ssid calls race call now).puts := by
  have got (found : AppCmd → Producer) : (race.get call found).drain = race.drain ∧
      ∀ entry ∈ race.puts, entry ∈ (race.get call found).puts := by
    unfold Race.get
    split <;> exact ⟨rfl, fun _ member => member⟩
  have put (entry : Entry) : (race.put entry).drain = race.drain ∧
      ∀ other ∈ race.puts, other ∈ (race.put entry).puts :=
    ⟨rfl, fun _ member => List.mem_append_left _ member⟩
  unfold produce
  split
  · exact ⟨rfl, fun _ member => member⟩
  · exact put _
  · exact got _
  · exact got _
  · exact got _
  · exact put _
  · exact ⟨rfl, fun _ member => member⟩

theorem produce_cell {race : Race} {call : Nat} (now : Int)
    (quiet : ¬ Puts race (.produce call now)) :
    (produce mac ssid calls race call now).cell = race.cell := by
  have got (found : AppCmd → Producer) : (race.get call found).cell = race.cell := by
    unfold Race.get
    split <;> rfl
  unfold produce
  split
  · rfl
  · rename_i here
    exact absurd ⟨call, now, rfl, .inl here⟩ quiet
  · exact got _
  · exact got _
  · exact got _
  · rename_i firstHeart here
    exact absurd ⟨call, now, rfl, .inr ⟨firstHeart, here⟩⟩ quiet
  · rfl

theorem produce_new {race : Race} (steady : Steady race) {call : Nat} {now : Int}
    (puts : Puts race (.produce call now)) {entry : Entry} (old : entry ∈ race.puts) :
    (produce mac ssid calls race call now).cell ≠ some entry := by
  obtain ⟨_, _, same, here⟩ := puts
  cases same
  have open' : race.producers call ≠ .done := by
    rintro done
    rcases here with here | ⟨firstHeart, here⟩ <;> cases done.symm.trans here
  have ended := steady.ended entry old
  unfold produce
  rcases here with here | ⟨firstHeart, here⟩
  · rw [here]
    rintro ⟨rfl⟩
    exact open' ended
  · rw [here]
    rintro ⟨rfl⟩
    exact open' ended

theorem AtEntry.congr {race : Race} {entry : Entry} {quiet quiet' : Prop}
    (at' : AtEntry entry quiet race) (same : quiet' ↔ quiet) : AtEntry entry quiet' race where
  steady := at'.steady
  put := at'.put
  stage := at'.stage
  own := fun still => at'.own (same.mp still)
  other := fun disturbed => at'.other fun still => disturbed (same.mpr still)

theorem atEntry_produce {race : Race} {entry : Entry} {quiet : Prop}
    (at' : AtEntry entry quiet race) (call : Nat) (now : Int) :
    AtEntry entry (quiet ∧ Quiet race (.produce call now))
      (produce mac ssid calls race call now) := by
  obtain ⟨drain, puts⟩ := produce_keeps race call now
  have looks : ¬ Misses race (.produce call now) := by rintro ⟨-, _, same⟩; cases same
  have base (cell : race.cell = (produce mac ssid calls race call now).cell) : AtEntry entry quiet
      (produce mac ssid calls race call now) := by
    refine ⟨steady_produce at'.steady call now, puts entry at'.put, ?_, ?_, ?_⟩
    · rw [drain]
      exact at'.stage
    · rw [drain, ← cell]
      exact at'.own
    · rw [drain, ← cell]
      exact at'.other
  by_cases here : Puts race (.produce call now)
  · refine ⟨steady_produce at'.steady call now, puts entry at'.put, ?_, ?_, ?_⟩
    · rw [drain]
      exact at'.stage
    · exact fun still => absurd here still.2.1
    · exact fun _ => .inl (produce_new at'.steady here at'.put)
  · exact (base (produce_cell now here).symm).congr ⟨And.left, fun still => ⟨still, here, looks⟩⟩

theorem atEntry_look {race : Race} {entry : Entry} {quiet : Prop} (at' : AtEntry entry quiet race)
    (now : Int) (tracked : Bool) (busy : (race.look now tracked).drain ≠ .idle) :
    AtEntry entry (quiet ∧ Quiet race (.look now tracked)) (race.look now tracked) := by
  have steady := steady_look now tracked at'.steady
  have puts : ¬ Puts race (.look now tracked) := by rintro ⟨_, _, same, -⟩; cases same
  have stays (other : ∀ entry, race.drain ≠ .reads entry) :
      AtEntry entry (quiet ∧ Quiet race (.look now tracked)) race :=
    at'.congr ⟨And.left, fun still => ⟨still, puts, fun misses => by
      obtain ⟨⟨read, reads⟩, -⟩ := misses
      exact other read reads⟩⟩
  unfold Race.look at busy steady ⊢
  rcases at'.stage with reads | hands | ⟨executed, removes⟩ | dead
  · rw [reads] at busy steady ⊢
    dsimp only at busy steady ⊢
    split at busy
    · rename_i old
      rw [if_pos old] at steady ⊢
      cases tracked with
      | true =>
          refine ⟨steady, at'.put, .inr (.inl rfl), fun still => ⟨(at'.own still.1).1, by simp⟩, ?_⟩
          intro disturbed
          rcases at'.other fun still =>
              disturbed ⟨still, puts, by rintro ⟨-, _, same⟩; cases same⟩ with
            changed | missed | dead
          · exact .inl changed
          · cases reads.symm.trans missed
          · cases reads.symm.trans dead
      | false =>
          refine ⟨steady, at'.put, .inr (.inr (.inl ⟨false, rfl⟩)), ?_, fun _ => .inr (.inl rfl)⟩
          exact fun still => absurd ⟨⟨entry, reads⟩, now, rfl⟩ still.2.2
    · exact absurd rfl busy
  · simpa only [hands] using stays (by simp [hands])
  · simpa only [removes] using stays (by simp [removes])
  · simpa only [dead] using stays (by simp [dead])

theorem atEntry_next {race : Race} {entry : Entry} {quiet : Prop} (at' : AtEntry entry quiet race)
    (act : Act) (busy : (next mac ssid calls race act).drain ≠ .idle) :
    AtEntry entry (quiet ∧ Quiet race act) (next mac ssid calls race act) := by
  have calm (puts : ∀ call now, act ≠ .produce call now)
      (looks : ∀ now tracked, act ≠ .look now tracked) :
      (quiet ∧ Quiet race act) ↔ quiet :=
    ⟨And.left, fun still => ⟨still, fun ⟨call, now, same, _⟩ => puts call now same,
      fun ⟨_, now, same⟩ => looks now false same⟩⟩
  cases act with
  | produce call now => exact atEntry_produce at' call now
  | look now tracked => exact atEntry_look at' now tracked busy
  | read =>
      refine AtEntry.congr ?_ (calm (by simp) (by simp))
      have same : race.read = race := by
        unfold Race.read
        rcases at'.stage with here | here | ⟨executed, here⟩ | here <;> rw [here]
      exact (congrArg (AtEntry entry quiet) same).mpr at'
  | hand fine =>
      refine AtEntry.congr ?_ (calm (by simp) (by simp))
      have steady := steady_hand fine at'.steady
      change AtEntry entry quiet (race.hand fine)
      unfold Race.hand at steady ⊢
      rcases at'.stage with reads | hands | ⟨executed, removes⟩ | dead
      · simpa only [reads] using at'
      · rw [hands] at steady ⊢
        refine ⟨steady, at'.put, ?_, ?_, ?_⟩
        · cases fine <;> simp
        · intro still
          exact ⟨(at'.own still).1, by cases fine <;> simp⟩
        · intro disturbed
          rcases at'.other disturbed with changed | missed | dead
          · exact .inl changed
          · cases hands.symm.trans missed
          · cases hands.symm.trans dead
      · simpa only [removes] using at'
      · simpa only [dead] using at'
  | remove =>
      refine AtEntry.congr ?_ (calm (by simp) (by simp))
      change (race.remove).drain ≠ .idle at busy
      change AtEntry entry quiet race.remove
      unfold Race.remove at busy ⊢
      rcases at'.stage with reads | hands | ⟨executed, removes⟩ | dead
      · simpa only [reads] using at'
      · simpa only [hands] using at'
      · rw [removes] at busy
        exact absurd rfl busy
      · simpa only [dead] using at'

theorem atEntry_run {race : Race} {entry : Entry} {quiet : Prop} (at' : AtEntry entry quiet race)
    (middle : List Act)
    (busy : Throughout (next mac ssid calls) (fun race => race.drain ≠ .idle) race middle) :
    AtEntry entry (quiet ∧ Allowed (next mac ssid calls) Quiet race middle)
      (run (next mac ssid calls) race middle) := by
  induction middle generalizing race quiet with
  | nil => exact at'.congr ⟨And.left, fun still => ⟨still, trivial⟩⟩
  | cons act middle ih =>
      obtain ⟨-, rest⟩ := (throughout_cons _ _ _ _).mp busy
      have after := ih (atEntry_next at' act (rest [] middle rfl)) rest
      exact after.congr ⟨fun ⟨still, first, others⟩ => ⟨⟨still, first⟩, others⟩,
        fun ⟨⟨still, first⟩, others⟩ => ⟨still, first, others⟩⟩

/-- At the end of such a stretch the removal takes what was read and executed exactly if it was
quiet. -/
theorem fits_stretch_iff {race : Race} (steady : Steady race) (idle : race.drain = .idle)
    {middle : List Act} {read : Entry} {executed : Bool}
    (busy : Throughout (next mac ssid calls) (fun race => race.drain ≠ .idle) race.read middle)
    (removes : (run (next mac ssid calls) race.read middle).drain = .removes read executed) :
    Fits (run (next mac ssid calls) race.read middle) .remove ↔
      Allowed (next mac ssid calls) Quiet race.read middle := by
  have begun : race.read.drain ≠ .idle := busy [] middle rfl
  cases found : race.cell with
  | none =>
      refine absurd ?_ begun
      unfold Race.read
      rw [idle, found]
      exact idle
  | some entry =>
      have first : AtEntry entry True race.read := by
        have reads : race.read = { race with drain := .reads entry } := by
          simp only [Race.read, idle, found]
        have before := steady_read steady
        rw [reads] at before ⊢
        exact ⟨before, (steady.cell entry found).1, .inl rfl, fun _ => ⟨found, by simp⟩,
          fun disturbed => absurd trivial disturbed⟩
      have last := (atEntry_run first middle busy).congr ⟨fun still => ⟨trivial, still⟩, And.right⟩
      have here : read = entry := by
        rcases last.stage with stage | stage | ⟨_, stage⟩ | stage <;> cases removes.symm.trans stage
        rfl
      subst here
      constructor
      · intro fits
        by_contra disturbed
        obtain ⟨cell, done⟩ := fits rfl read executed removes
        rcases last.other disturbed with changed | missed | dead
        · exact changed cell
        · rw [removes, done] at missed
          cases missed
        · cases removes.symm.trans dead
      · intro still _ other flag same
        cases removes.symm.trans same
        obtain ⟨cell, done⟩ := last.own still
        refine ⟨cell, ?_⟩
        cases executed with
        | true => rfl
        | false => exact absurd removes done

theorem stretch_of_busy (acts : List Act)
    (busy : (run (next mac ssid calls) {} acts).drain ≠ .idle) :
    ∃ before middle, acts = before ++ .read :: middle ∧
      (run (next mac ssid calls) {} before).drain = .idle ∧
      Throughout (next mac ssid calls) (fun race => race.drain ≠ .idle)
        (run (next mac ssid calls) {} before).read middle := by
  -- a task that is not idle has read its entry at some time, and has been at it since
  induction acts using List.reverseRecOn with
  | nil => exact absurd rfl busy
  | append_singleton acts act ih =>
      by_cases idle : (run (next mac ssid calls) {} acts).drain = .idle
      · -- only the iterator leaves an idle task busy
        rw [run_append] at busy
        cases act with
        | read =>
            refine ⟨acts, [], rfl, idle, ?_⟩
            intro first rest shape
            obtain ⟨rfl, -⟩ := List.append_eq_nil_iff.mp shape.symm
            exact busy
        | produce call now =>
            exact absurd ((produce_keeps _ call now).1.trans idle) busy
        | look now tracked =>
            refine absurd ?_ busy
            change (Race.look _ now tracked).drain = .idle
            unfold Race.look
            rw [idle]
            exact idle
        | hand fine =>
            refine absurd ?_ busy
            change (Race.hand _ fine).drain = .idle
            unfold Race.hand
            rw [idle]
            exact idle
        | remove =>
            refine absurd ?_ busy
            change (Race.remove _).drain = .idle
            unfold Race.remove
            rw [idle]
            exact idle
      · obtain ⟨before, middle, rfl, began, within⟩ := ih idle
        refine ⟨before, middle ++ [act], by simp, began, ?_⟩
        intro first rest shape
        rcases List.eq_nil_or_concat rest with rfl | ⟨rest, last, rfl⟩
        · rw [List.append_nil] at shape
          subst shape
          rw [List.append_assoc, List.cons_append, run_append] at busy
          exact busy
        · rw [List.concat_eq_append, ← List.append_assoc] at shape
          exact within first rest (List.append_inj' shape rfl).1

theorem undisturbed_iff (acts : List Act) :
    Allowed (next mac ssid calls) Fits {} acts ↔ Undisturbed mac ssid calls acts := by
  have steady (acts : List Act) : Steady (run (next mac ssid calls) {} acts) :=
    run_invariant Steady steady_start (fun _ act steady => steady_next act steady) acts
  have joined (before middle : List Act) :
      run (next mac ssid calls) {} (before ++ .read :: middle) =
      run (next mac ssid calls) (run (next mac ssid calls) {} before).read middle :=
    run_append _ _ _ _
  rw [allowed_iff]
  constructor
  · rintro fits before middle after rfl idle busy ⟨entry, executed, removes⟩
    rw [joined] at removes
    refine (fits_stretch_iff (steady before) idle busy removes).mp ?_
    rw [← joined]
    exact fits (before ++ .read :: middle) .remove after (by simp)
  · rintro undisturbed acts _ after rfl rfl entry executed removes
    obtain ⟨before, middle, rfl, idle, busy⟩ := stretch_of_busy acts (by rw [removes]; simp)
    have still := undisturbed before middle after (by simp) idle busy ⟨entry, executed, removes⟩
    rw [joined] at removes ⊢
    exact (fits_stretch_iff (steady before) idle busy removes).mpr still rfl entry executed removes

/-! Threads that are not interrupted do what the controller's functions do. -/

def Shows (mac : Mac) (ssid : Text) (race : Race) (queue : AList fun _ : Text => AppCmd) : Prop :=
  race.cell.map Entry.appCmd = queue.lookup (mac.val ++ ssid)

theorem produce_alone {race : Race} {v : View} {call : Nat} (now : Int)
    (starts : race.producers call = .starts) (shows : Shows mac ssid race v.cmdQueue) :
    Shows mac ssid (run (next mac ssid calls) race (List.replicate 5 (.produce call now)))
      (addVapContainer v now .stored false (calls call).1 mac.val (calls call).2.text
        ssid).cmdQueue := by
  -- a call that is not interrupted is `addVapContainer`
  unfold Shows at shows ⊢
  unfold addVapContainer
  simp only [Bool.false_eq_true, if_false]
  cases found : race.cell with
  | none =>
      have waiting : v.cmdQueue.lookup (mac.val ++ ssid) = none := by
        rw [← shows, found]
        rfl
      rw [waiting]
      simp [run, next, produce, Race.goes, Race.put, starts, found, message]
  | some entry =>
      have waiting : v.cmdQueue.lookup (mac.val ++ ssid) = some entry.appCmd := by
        rw [← shows, found]
        rfl
      rw [waiting]
      by_cases own : entry.appCmd.message.staMacAddr = mac.val
      · by_cases keeps : entry.appCmd.message.mode = some "011".toList ∧
          (calls call).2.text = "010".toList
        · simp [run, next, produce, Race.goes, Race.get, starts, found, own, keeps, waiting]
        · simp [-String.reduceToList, run, next, produce, Race.goes, Race.get, Race.put, starts,
            found, message, own, keeps]
      · simp [run, next, produce, Race.goes, Race.get, starts, found, own, waiting]

theorem task_alone {race : Race} {v : View} {entry : Entry} (now : Int) (order : Order)
    (idle : race.drain = .idle) (found : race.cell = some entry)
    (shows : Shows mac ssid race v.cmdQueue) (runs : v.cmdTaskRuns = true) :
    Shows mac ssid (run (next mac ssid calls) race
      [.read, .look now (v.stationMap.lookup entry.appCmd.message.staMacAddr).isSome,
        .hand (excuteAddVap v now order false entry.appCmd.message).2, .remove])
      (cmdTask v now order (mac.val ++ ssid)).cmdQueue := by
  -- a pass of the task that is not interrupted is `cmdTask`
  unfold Shows at shows ⊢
  have waiting : v.cmdQueue.lookup (mac.val ++ ssid) = some entry.appCmd := by
    rw [← shows, found]
    rfl
  have queue := (StepTouches.touches_queue
    (StepTouches.touches_excuteAddVap v now order false entry.appCmd.message)).1
  have same : (excuteAddVap v now order false entry.appCmd.message).1.cmdQueue = v.cmdQueue := queue
  unfold cmdTask
  rw [waiting]
  dsimp only
  by_cases old : due now entry.appCmd
  · have ready : v.cmdTaskRuns = true ∧ now - entry.appCmd.firstHeart > 3 * 1000 := ⟨runs, old⟩
    rw [if_pos ready]
    cases known : (v.stationMap.lookup entry.appCmd.message.staMacAddr).isSome with
    | false => simp [run, next, Race.read, Race.look, Race.hand, Race.remove, idle, found, old]
    | true =>
        cases fine : (excuteAddVap v now order false entry.appCmd.message).2 with
        | false =>
            simp [run, next, Race.read, Race.look, Race.hand, Race.remove, idle, found, old, same,
              waiting]
        | true =>
            simp [run, next, Race.read, Race.look, Race.hand, Race.remove, idle, found, old, same]
  · have early : ¬ (v.cmdTaskRuns = true ∧ now - entry.appCmd.firstHeart > 3 * 1000) := fun ready =>
        old ready.2
    rw [if_neg early]
    simp [run, next, Race.read, Race.look, Race.hand, Race.remove, idle, found, old, waiting]

end Machine

/-- In an interleaving no command is lost exactly if nothing is put between an iterator step of the
task and the removal it leads to, and the station of the command is tracked when the task looks. -/
theorem no_command_lost_iff (mac : Mac) (ssid : Text) (calls : Nat → Ref × Band) (acts : List Act) :
    Throughout (next mac ssid calls) Kept {} acts ↔ Undisturbed mac ssid calls acts := by
  rw [← undisturbed_iff]
  exact throughout_iff Steady Kept steady_start (fun _ member => absurd member List.not_mem_nil)
    (fun _ act steady => steady_next act steady)
    (fun _ act steady kept => kept_next_iff act steady kept) acts

def twoBands : Nat → Ref × Band
  | 0 => (0, .low)
  | _ => (1, .high)

def replacedLate : List Act :=
  List.replicate 2 (.produce 0 0) ++ [.read, .look 4000 true] ++
    List.replicate 5 (.produce 1 4000) ++
    [.hand true, .remove]

theorem replacement_lost :
    ¬ ∀ mac ssid calls acts, Throughout (next mac ssid calls) Kept {} acts := by
  intro all
  let mac : Mac := ⟨StationCoherence.staMac, by decide⟩
  have kept := all mac ['w'] twoBands replacedLate replacedLate [] (List.append_nil _).symm
  have lost : (run (next mac ['w'] twoBands) {} replacedLate).puts.map Entry.call = [0, 1] ∧
      (run (next mac ['w'] twoBands) {} replacedLate).replaced.map Entry.call = [0] ∧
      (run (next mac ['w'] twoBands) {} replacedLate).handed.map Entry.call = [0] ∧
      (run (next mac ['w'] twoBands) {} replacedLate).cell.isNone = true := by decide +kernel
  obtain ⟨puts, replaced, handed, empty⟩ := lost
  obtain ⟨entry, member, second⟩ :=
    List.mem_map.mp (puts ▸ List.mem_cons_of_mem 0 List.mem_cons_self :
    1 ∈ (run (next mac ['w'] twoBands) {} replacedLate).puts.map Entry.call)
  rcases kept entry member with done | gone | here
  · have listed := List.mem_map_of_mem (f := Entry.call) done
    rw [handed, second] at listed
    exact absurd listed (by decide)
  · have listed := List.mem_map_of_mem (f := Entry.call) gone
    rw [replaced, second] at listed
    exact absurd listed (by decide)
  · rw [here] at empty
    cases empty

end LazyAS.QueueRaces

import Mathlib.Logic.Relation

/-! Runs of a deterministic machine under a guard: a step is taken only where the guard
allows it. `step` and `allowed` are parameters, so the same rules serve every machine. -/
namespace LazyAS.Runs

variable {State Event : Type*} (step : State → Event → State) (allowed : State → Event → Prop)

/-- The states reached from `start` by steps the guard allows. -/
inductive Reaches (start : State) : State → Prop where
  | start : Reaches start start
  | step {state : State} (event : Event) (before : Reaches start state)
      (fits : allowed state event) : Reaches start (step state event)

variable {step allowed}

theorem Reaches.invariant {start state : State} (holds : State → Prop)
    (initial : holds start)
    (kept : ∀ state event, allowed state event → holds state → holds (step state event))
    (reached : Reaches step allowed start state) : holds state := by
  induction reached with
  | start => exact initial
  | step event before fits ih => exact kept _ event fits ih

def run (step : State → Event → State) (state : State) (events : List Event) : State :=
  events.foldl step state

theorem run_append (step : State → Event → State) (state : State) (first second : List Event) :
    run step state (first ++ second) = run step (run step state first) second :=
  List.foldl_append ..

theorem run_invariant {start : State} (holds : State → Prop) (initial : holds start)
    (kept : ∀ state event, holds state → holds (step state event)) (events : List Event) :
    holds (run step start events) := by
  induction events generalizing start with
  | nil => exact initial
  | cons event events ih => exact ih (kept start event initial)

theorem foldl_within {Item : Type*} (within : State → State → Prop)
    (refl : ∀ state, within state state)
    (trans : ∀ {first second third}, within first second → within second third → within first third)
    (body : State → Item → State) (each : ∀ state item, within state (body state item))
    (items : List Item)
    (state : State) : within state (items.foldl body state) := by
  induction items generalizing state with
  | nil => exact refl state
  | cons item items ih => exact trans (each state item) (ih (body state item))

def Allowed (step : State → Event → State) (allowed : State → Event → Prop) :
    State → List Event → Prop
  | _, [] => True
  | state, event :: events => allowed state event ∧ Allowed step allowed (step state event) events

theorem allowed_append (state : State) (first second : List Event) :
    Allowed step allowed state (first ++ second) ↔
      Allowed step allowed state first ∧ Allowed step allowed (run step state first) second := by
  induction first generalizing state with
  | nil => simp [Allowed, run]
  | cons event first ih =>
      rw [List.cons_append, Allowed, Allowed, ih, and_assoc]
      exact Iff.rfl

theorem Reaches.append {start state : State} (events : List Event)
    (reached : Reaches step allowed start state) (fits : Allowed step allowed state events) :
    Reaches step allowed start (run step state events) := by
  induction events generalizing state with
  | nil => exact reached
  | cons event events ih => exact ih (.step event reached fits.1) fits.2

theorem Reaches.concat {start state : State} (events : List Event) (event : Event)
    (reached : Reaches step allowed start (run step state events))
    (fits : allowed (run step state events) event) :
    Reaches step allowed start (run step state (events ++ [event])) := by
  rw [run, List.foldl_append]
  exact .step event reached fits

theorem allowed_iff (state : State) (events : List Event) :
    Allowed step allowed state events ↔ ∀ before event after, events = before ++ event :: after →
      allowed (run step state before) event := by
  induction events generalizing state with
  | nil => simp [Allowed]
  | cons first events ih =>
      rw [Allowed, ih]
      constructor
      · intro fits before event after shape
        cases before with
        | nil =>
            rw [List.nil_append, List.cons.injEq] at shape
            exact shape.1 ▸ fits.1
        | cons earlier before =>
            rw [List.cons_append, List.cons.injEq] at shape
            rw [← shape.1]
            exact fits.2 before event after shape.2
      · intro each
        constructor
        · exact each [] first events rfl
        · intro before event after shape
          exact each (first :: before) event after (by rw [shape]; rfl)

theorem allowed_congr {first second : State → Event → Prop} {start : State} (inv : State → Prop)
    (initial : inv start) (same : ∀ state event, inv state →
      (first state event ↔ second state event))
    (kept : ∀ state event, inv state → second state event → inv (step state event))
    (events : List Event) :
    Allowed step first start events ↔ Allowed step second start events := by
  induction events generalizing start with
  | nil => exact Iff.rfl
  | cons event events ih =>
      rw [Allowed, Allowed, same start event initial]
      exact and_congr_right fun fits => ih (kept start event initial fits)

/-- A property of every state a list of events goes through, the first one included. -/
def Throughout (step : State → Event → State) (holds : State → Prop) (start : State)
    (events : List Event) : Prop :=
  ∀ before after, events = before ++ after → holds (run step start before)

theorem throughout_cons (holds : State → Prop) (start : State) (event : Event)
    (events : List Event) :
    Throughout step holds start (event :: events) ↔
      holds start ∧ Throughout step holds (step start event) events := by
  constructor
  · intro all
    constructor
    · exact all [] (event :: events) rfl
    · intro before after shape
      exact all (event :: before) after (by rw [shape]; rfl)
  · rintro ⟨first, rest⟩ before after shape
    cases before with
    | nil => exact first
    | cons earlier before =>
        rw [List.cons_append, List.cons.injEq] at shape
        rw [← shape.1]
        exact rest before after shape.2

/-- Where a step keeps a property exactly if the guard allows it, a run keeps it throughout exactly
if the guard allows every step. `inv` is what every step keeps anyway. -/
theorem throughout_iff {start : State} (inv holds : State → Prop) (grounded : inv start)
    (initial : holds start) (steady : ∀ state event, inv state → inv (step state event))
    (exact' : ∀ state event, inv state → holds state →
      (holds (step state event) ↔ allowed state event))
    (events : List Event) : Throughout step holds start events ↔
      Allowed step allowed start events := by
  induction events generalizing start with
  | nil =>
      refine iff_of_true ?_ trivial
      intro before after shape
      rw [(List.append_eq_nil_iff.mp shape.symm).1]
      exact initial
  | cons event events ih =>
      rw [throughout_cons, Allowed, ← exact' start event grounded initial]
      constructor
      · rintro ⟨-, rest⟩
        have next : holds (step start event) := rest [] events rfl
        exact ⟨next, (ih (steady start event grounded) next).mp rest⟩
      · rintro ⟨next, rest⟩
        exact ⟨initial, (ih (steady start event grounded) next).mpr rest⟩

/-! A step that may stop, as the pass of a loop does. -/

section Loop
variable (next : State → Option State)

def Comes : State → State → Prop := Relation.ReflTransGen fun state after => next state = some after

theorem ends_of_shrinking (measure : State → Nat) (first : State)
    (shrinks : ∀ state after, Comes next first state → next state = some after →
      measure after < measure state) :
    ∃ last, Comes next first last ∧ next last = none := by
  -- a loop ends when every pass it makes shrinks a measure
  induction size : measure first using Nat.strongRecOn generalizing first with
  | ind count ih =>
      cases passed : next first with
      | none => exact ⟨first, .refl, passed⟩
      | some second =>
          have smaller := shrinks first second .refl passed
          obtain ⟨last, reached, stopped⟩ := ih (measure second) (size ▸ smaller) second
            (fun state after reached => shrinks state after (.head passed reached)) rfl
          exact ⟨last, .head passed reached, stopped⟩

end Loop

end LazyAS.Runs

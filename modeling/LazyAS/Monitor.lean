import Mathlib.Logic.Function.Basic

/-! A mutex with condition variables: who holds the mutex and who waits on each condition. A
waiter that was woken, by a signal or a broadcast or by itself, has left the list of its
condition and goes on once the mutex is free. `Thread` and `Cond` are parameters. -/
namespace LazyAS.Monitor

variable {Thread Cond : Type}

structure Mutex (Thread Cond : Type) where
  holder : Option Thread
  blocked : Cond → List Thread

def unused : Mutex Thread Cond := ⟨none, fun _ => []⟩

def Mutex.Free (m : Mutex Thread Cond) : Prop := m.holder = none

instance (m : Mutex Thread Cond) : Decidable m.Free := inferInstanceAs (Decidable (m.holder = none))

def Mutex.acquire (m : Mutex Thread Cond) (t : Thread) : Mutex Thread Cond :=
  { m with holder := some t }

def Mutex.release (m : Mutex Thread Cond) : Mutex Thread Cond := { m with holder := none }

@[simp] theorem acquire_blocked (m : Mutex Thread Cond) (t : Thread) :
    (m.acquire t).blocked = m.blocked := rfl

@[simp] theorem release_blocked (m : Mutex Thread Cond) : m.release.blocked = m.blocked := rfl

/-! Mutual exclusion: the holder is the one thread inside. -/

/-- `inside` says of each thread whether it is between taking the mutex and giving it back. -/
def Owned (inside : Thread → Prop) (m : Mutex Thread Cond) : Prop :=
  ∀ t, m.holder = some t ↔ inside t

variable {inside inside' : Thread → Prop} {m m' : Mutex Thread Cond} {t u : Thread}

theorem Owned.alone (owned : Owned inside m) (first : inside t) (second : inside u) : t = u :=
  Option.some.inj (((owned t).mpr first).symm.trans ((owned u).mpr second))

theorem Owned.nobody (owned : Owned inside m) (free : m.Free) (u : Thread) : ¬ inside u := by
  intro within
  have held := (owned u).mpr within
  rw [show m.holder = none from free] at held
  cases held

theorem Owned.keep (owned : Owned inside m) (held : m'.holder = m.holder)
    (same : ∀ u, inside' u ↔ inside u) : Owned inside' m' := by
  intro u
  rw [held, same]
  exact owned u

theorem Owned.enter (owned : Owned inside m) (free : m.Free) (now : inside' t)
    (others : ∀ u, u ≠ t → (inside' u ↔ inside u)) : Owned inside' (m.acquire t) := by
  intro u
  by_cases same : u = t
  · subst same
    exact iff_of_true rfl now
  · apply iff_of_false
    · intro held
      exact same (Option.some.inj held).symm
    · rw [others u same]
      exact owned.nobody free u

theorem Owned.leave (owned : Owned inside m) (was : inside t) (given : m'.holder = none)
    (now : ¬ inside' t) (others : ∀ u, u ≠ t → (inside' u ↔ inside u)) : Owned inside' m' := by
  intro u
  apply iff_of_false
  · rw [given]
    exact Option.some_ne_none u ∘ Eq.symm
  · by_cases same : u = t
    · subst same
      exact now
    · rw [others u same]
      intro within
      exact same (owned.alone within was)

/-! Waiting. -/

variable [DecidableEq Cond]

def Mutex.wait (m : Mutex Thread Cond) (c : Cond) (t : Thread) : Mutex Thread Cond :=
  ⟨none, Function.update m.blocked c (m.blocked c ++ [t])⟩

/-- A signal wakes the thread that waits longest, if there is one. -/
def Mutex.signal (m : Mutex Thread Cond) (c : Cond) : Mutex Thread Cond :=
  { m with blocked := Function.update m.blocked c (m.blocked c).tail }

def Mutex.broadcast (m : Mutex Thread Cond) (c : Cond) : Mutex Thread Cond :=
  { m with blocked := Function.update m.blocked c [] }

def Mutex.wake [DecidableEq Thread] (m : Mutex Thread Cond) (c : Cond) (t : Thread) :
    Mutex Thread Cond :=
  { m with blocked := Function.update m.blocked c ((m.blocked c).filter (· ≠ t)) }

variable (m : Mutex Thread Cond) (c d : Cond) (t : Thread)

@[simp] theorem signal_holder : (m.signal c).holder = m.holder := rfl

@[simp] theorem wait_here : (m.wait c t).blocked c = m.blocked c ++ [t] := Function.update_self ..

@[simp] theorem wait_elsewhere (other : d ≠ c) : (m.wait c t).blocked d = m.blocked d :=
  Function.update_of_ne other ..

@[simp] theorem signal_here : (m.signal c).blocked c = (m.blocked c).tail := Function.update_self ..

@[simp] theorem signal_elsewhere (other : d ≠ c) : (m.signal c).blocked d = m.blocked d :=
  Function.update_of_ne other ..

@[simp] theorem broadcast_holder : (m.broadcast c).holder = m.holder := rfl

@[simp] theorem broadcast_here : (m.broadcast c).blocked c = [] := Function.update_self ..

@[simp] theorem wake_holder [DecidableEq Thread] : (m.wake c t).holder = m.holder := rfl

@[simp] theorem wake_here [DecidableEq Thread] :
    (m.wake c t).blocked c = (m.blocked c).filter (· ≠ t) :=
  Function.update_self ..

end LazyAS.Monitor

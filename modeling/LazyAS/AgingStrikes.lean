import LazyAS.AddRollback
import LazyAS.AgingVisits
import LazyAS.StepEffects
import LazyAS.StepTouches

/-! A container whose AP misses a station is only dropped at its second strike. At the first one the
aging run takes the station's time over into the container, as its last probe and as the saved one;
any probe since then makes the two differ again. -/
namespace LazyAS.AgingStrikes
open WireText ControllerView Master VapBindings BindingLaws StationCoherence ViewGround ViewMoves
  StepEffects StepTouches AgingVisits Runs

/-! One visit. -/

/-- The condition of `INTVAL_TIME_OUT`: the station was heard in the band of the container's agent,
and by that agent not for 12 seconds before. -/
structure Lagging (w : View) (now : Int) (s c : Ref) : Prop where
  own : (w.vaps c).station = s
  off : (w.vaps c).status = .offLine
  young : ∃ virtual, isVirtualMac (w.stations s).macAddress = some virtual ∧
    ¬ ((virtual ∧ now - (w.vaps c).lastProbeHeard > 300 * 1000) ∨
      now - (w.vaps c).lastProbeHeard > 600 * 1000)
  late : (w.stations s).lastHeard - (w.vaps c).lastProbeHeard > 12 * 1000
  moded : ∃ mode, (w.stations s).lastHeardMode = some mode ∧
    (w.agents (w.vaps c).agent).mode = some mode

def strike (w : View) (s c : Ref) : View :=
  updVap w c fun vap => { vap with
    lastProbeHeard := (w.stations s).lastHeard
    savedProbeHeard := (w.stations s).lastHeard }

def StruckOut (w : View) (now : Int) (s c : Ref) : Prop :=
  Lagging w now s c ∧ (w.vaps c).lastProbeHeard = (w.vaps c).savedProbeHeard

theorem ageVap_lagging {w : View} {now : Int} {s c : Ref} (order : Order)
    (lagging : Lagging w now s c) :
    ageVap w now order s c =
      if (w.vaps c).lastProbeHeard = (w.vaps c).savedProbeHeard then (dropVap w now order s c, true)
      else (strike w s c, true) := by
  obtain ⟨virtual, address, young⟩ := lagging.young
  obtain ⟨mode, heard, same⟩ := lagging.moded
  unfold ageVap
  dsimp only
  rw [if_pos ⟨lagging.own, lagging.off⟩, address]
  dsimp only
  rw [if_neg young, if_pos lagging.late, heard]
  dsimp only
  rw [if_pos same]
  rfl

theorem marks_ageVap {w : View} {now : Int} {s c : Ref} (order : Order)
    (spared : ¬ Lagging w now s c) :
    marks (ageVap w now order s c).1 = marks w := by
  unfold ageVap
  dsimp only
  split
  · rename_i own
    split
    · rfl
    · rename_i virtual address
      split
      · exact marks_dropVap w now order s c
      · rename_i young
        split
        · rename_i late
          split
          · rfl
          · rename_i mode heard
            split
            · rename_i same
              exact absurd ⟨own.1, own.2, ⟨virtual, address, young⟩, late, mode, heard, same⟩ spared
            · rfl
        · rfl
  · rfl

/-! One aging run. -/

section Run

variable (v : View) (now : Int) (order : Order)

def Strikes (c : Ref) (heard : Int) : Prop :=
  ∃ u s, Visited v now order u s c ∧ Lagging u now s c ∧ (u.stations s).lastHeard = heard

structure Aged (w : View) : Prop where
  heard : (marks w).heard = (marks v).heard
  owner : (marks w).owner = (marks v).owner
  nextVap : w.nextVap = v.nextVap
  queue : w.cmdQueue = v.cmdQueue ∧ w.cmdTaskRuns = v.cmdTaskRuns
  times : ∀ c, ((w.vaps c).lastProbeHeard = (v.vaps c).lastProbeHeard ∧
      (w.vaps c).savedProbeHeard = (v.vaps c).savedProbeHeard) ∨
    ∃ heard, Strikes v now order c heard ∧ (w.vaps c).lastProbeHeard = heard ∧
      (w.vaps c).savedProbeHeard = heard

variable {v now order}

theorem Aged.of_marks {w x : View} (same : marks x = marks w) (aged : Aged v now order w) :
    Aged v now order x where
  heard := (congrArg Marks.heard same).trans aged.heard
  owner := (congrArg Marks.owner same).trans aged.owner
  nextVap := (congrArg Marks.nextVap same).trans aged.nextVap
  queue := ⟨(congrArg Marks.cmdQueue same).trans aged.queue.1,
    (congrArg Marks.cmdTaskRuns same).trans aged.queue.2⟩
  times := by
    intro c
    have probed : (x.vaps c).lastProbeHeard = (w.vaps c).lastProbeHeard :=
      congrFun (congrArg Marks.probed same) c
    have saved : (x.vaps c).savedProbeHeard = (w.vaps c).savedProbeHeard :=
      congrFun (congrArg Marks.saved same) c
    rw [probed, saved]
    exact aged.times c

theorem Aged.lastHeard {w : View} (aged : Aged v now order w) (s : Ref) :
    (w.stations s).lastHeard = (v.stations s).lastHeard := congrFun aged.heard s

theorem Aged.station {w : View} (aged : Aged v now order w) (c : Ref) :
    (w.vaps c).station = (v.vaps c).station :=
  congrFun aged.owner c

theorem Aged.strike {w : View} {s c : Ref} (aged : Aged v now order w)
    (visited : Visited v now order w s c) (lagging : Lagging w now s c) :
    Aged v now order (strike w s c) where
  heard := aged.heard
  owner := by
    rw [← aged.owner]
    exact VapBindings.comp_update_same VapContainer.station w.vaps c _ rfl
  nextVap := aged.nextVap
  queue := aged.queue
  times := by
    intro d
    by_cases same : d = c
    · subst same
      refine .inr ⟨(w.stations s).lastHeard, ⟨w, s, visited, lagging, rfl⟩, ?_⟩
      simp [AgingStrikes.strike, updVap]
    · have other : (AgingStrikes.strike w s c).vaps d = w.vaps d := Function.update_of_ne same _ _
      rw [other]
      exact aged.times d

theorem aged_run (v : View) (now : Int) (order : Order) : Aged v now order (ageTask v now order) ∧
    (∀ x s, StationVisited v now order x s → Aged v now order x) ∧
      ∀ w s c, Visited v now order w s c → Aged v now order w := by
  have start : Aged v now order v := ⟨rfl, rfl, rfl, ⟨rfl, rfl⟩, fun _ => .inl ⟨rfl, rfl⟩⟩
  refine visits_keep (Aged v now order) start ?_ ?_ ?_
  · exact fun w s c aged => aged.of_marks (marks_dropVap w now order s c)
  · exact fun w mac aged => aged.of_marks (show marks (removeStation w mac) = marks w from rfl)
  · intro w s c visited aged
    by_cases lagging : Lagging w now s c
    · rw [ageVap_lagging order lagging]
      split
      · exact aged.of_marks (marks_dropVap w now order s c)
      · exact aged.strike visited lagging
    · exact aged.of_marks (marks_ageVap order lagging)

theorem lagging_unstruck {w : View} {s c : Ref} (visited : Visited v now order w s c)
    (lagging : Lagging w now s c) :
    (w.vaps c).lastProbeHeard = (v.vaps c).lastProbeHeard ∧
      (w.vaps c).savedProbeHeard = (v.vaps c).savedProbeHeard := by
  have reached := (aged_run v now order).2.2
  have aged := reached w s c visited
  rcases aged.times c with kept | ⟨heard, ⟨u, t, before, lagged, rfl⟩, probed, -⟩
  · exact kept
  · -- it would have the time of its station
    have earlier := reached u t c before
    have same : t = s := by
      rw [← lagged.own, ← lagging.own, earlier.station, aged.station]
    subst same
    have late := lagging.late
    rw [probed, aged.lastHeard, earlier.lastHeard] at late
    omega

theorem visited_stored {w : View} {s c : Ref} (visited : Visited v now order w s c)
    (grounded : GroundedView v) :
    c < v.nextVap := by
  obtain ⟨x, station, resting, comes⟩ := visited
  obtain ⟨_, run⟩ := station.run grounded
  obtain ⟨key, found⟩ := (mem_values _ c).mp ((order.perm _).mem_iff.mp comes.member)
  have stored : c < x.nextVap := (run.grounded.stored s key c found).1
  rwa [((aged_run v now order).2.1 x s station).nextVap] at stored

end Run

/-! Whole runs. -/

def view (events : List Event) : View := run next View.empty events

def times (events : List Event) : List Int := 0 :: events.map Event.now

/-- A clock that is positive and rises from step to step. -/
def Ticking (events : List Event) : Prop := (times events).Pairwise (· < ·)

/-- The aging run `age` struck the container after the steps `earlier`, and in the steps `between`
its last probe stayed the time the strike had set. -/
structure Strike (events : List Event) (s c : Ref) (heard : Int) (earlier : List Event)
    (age : Event) (between : List Event) : Prop where
  shape : events = earlier ++ age :: between
  aging : age.op = .age
  struck : ∃ u, Visited (view earlier) age.now age.order u s c ∧ Lagging u age.now s c ∧
    (u.stations s).lastHeard = heard

def Unprobed (c : Ref) (heard : Int) (earlier : List Event) (age : Event) (between : List Event) :
    Prop :=
  ∀ first rest, between = first ++ rest →
    ((view (earlier ++ age :: first)).vaps c).lastProbeHeard = heard

structure Kept (events : List Event) : Prop where
  heard : ∀ s, ((view events).stations s).lastHeard ∈ times events
  probed : ∀ c, ((view events).vaps c).lastProbeHeard ∈ times events
  saved : ∀ c, ((view events).vaps c).savedProbeHeard ∈ times events
  started : ∀ c, c < (view events).nextVap → 0 < ((view events).vaps c).lastProbeHeard
  struck : ∀ c, ((view events).vaps c).savedProbeHeard = 0 ∨ ∃ s earlier age between,
    ((view events).vaps c).station = s ∧
      Strike events s c ((view events).vaps c).savedProbeHeard earlier age between ∧
        (((view events).vaps c).savedProbeHeard < ((view events).vaps c).lastProbeHeard ∨
          Unprobed c ((view events).vaps c).savedProbeHeard earlier age between)

theorem view_concat (events : List Event) (event : Event) :
    view (events ++ [event]) = next (view events) event := by
  rw [view, run, List.foldl_append]
  rfl

theorem view_grounded (events : List Event) : GroundedView (view events) :=
  run_invariant GroundedView grounded_empty (fun v event => next_grounded v event) events

theorem mem_times {events : List Event} {event : Event} {time : Int}
    (before : time ∈ times events ∨ time = event.now) :
    time ∈ times (events ++ [event]) := by
  unfold times at *
  simp only [List.map_append, List.mem_cons, List.mem_append] at *
  grind

theorem ticking_concat {events : List Event} {event : Event}
    (ticking : Ticking (events ++ [event])) :
    Ticking events ∧ ∀ time ∈ times events, time < event.now := by
  unfold Ticking times at *
  rw [List.map_append, ← List.cons_append, List.pairwise_append] at ticking
  exact ⟨ticking.1, fun time member => ticking.2.2 time member event.now (by simp)⟩

/-- How one touch, and so any number of them, changes the times. -/
structure Moved (now : Int) (m n : Marks) : Prop where
  heard : ∀ s, n.heard s = m.heard s ∨ n.heard s = now ∨ n.heard s = 0
  probed : ∀ c, n.probed c = m.probed c ∨ n.probed c = now
  saved : ∀ c, n.saved c = 0 ∨ n.saved c = m.saved c ∧ n.owner c = m.owner c
  started : (∀ c, c < m.nextVap → 0 < m.probed c) → 0 < now → ∀ c, c < n.nextVap → 0 < n.probed c

theorem Moved.trans {now : Int} {m n o : Marks} (first : Moved now m n) (second : Moved now n o) :
    Moved now m o where
  heard := by
    intro s
    rcases second.heard s with same | rest
    · rw [same]
      exact first.heard s
    · exact .inr rest
  probed := by
    intro c
    rcases second.probed c with same | probed
    · rw [same]
      exact first.probed c
    · exact .inr probed
  saved := by
    intro c
    rcases second.saved c with zero | ⟨same, owner⟩
    · exact .inl zero
    · rw [same, owner]
      exact first.saved c
  started := fun before positive => second.started (first.started before positive) positive

theorem moved_touch {now : Int} {m n : Marks} (touch : Touch now m n) : Moved now m n := by
  cases touch with
  | hear s =>
      refine ⟨fun t => ?_, fun _ => .inl rfl, fun _ => .inr ⟨rfl, rfl⟩, fun before _ => before⟩
      by_cases same : t = s
      · simp [Marks.hear, same]
      · simp [Marks.hear, Function.update_of_ne same]
  | probe c =>
      refine ⟨fun _ => .inl rfl, fun d => ?_, fun _ => .inr ⟨rfl, rfl⟩, fun before positive d
        old => ?_⟩
      · by_cases same : d = c
        · simp [Marks.probe, same]
        · simp [Marks.probe, Function.update_of_ne same]
      · by_cases same : d = c
        · simpa [Marks.probe, same] using positive
        · simpa [Marks.probe, Function.update_of_ne same] using before d old
  | spawn s =>
      refine ⟨fun _ => .inl rfl, fun d => ?_, fun d => ?_, fun before positive d old => ?_⟩
      · by_cases same : d = m.nextVap
        · simp [Marks.spawn, Marks.probe, same]
        · simp [Marks.spawn, Marks.probe, Marks.create, Function.update_of_ne same]
      · by_cases same : d = m.nextVap
        · simp [Marks.spawn, Marks.probe, Marks.create, same]
        · simp [Marks.spawn, Marks.probe, Marks.create, Function.update_of_ne same]
      · by_cases same : d = m.nextVap
        · simpa [Marks.spawn, Marks.probe, same] using positive
        · simp only [Marks.spawn, Marks.probe, Marks.create] at old ⊢
          rw [Function.update_of_ne same, Function.update_of_ne same]
          exact before d (Nat.lt_of_le_of_ne (Nat.le_of_lt_succ old) same)
  | arrive =>
      refine ⟨fun t => ?_, fun _ => .inl rfl, fun _ => .inr ⟨rfl, rfl⟩, fun before _ => before⟩
      by_cases same : t = m.nextStation
      · simp [Marks.arrive, same]
      · simp [Marks.arrive, Function.update_of_ne same]

theorem moved_touches {now : Int} {m n : Marks} (moves : Touches now m n) : Moved now m n :=
  moves.rule (Moved now) (fun _ =>
    ⟨fun _ => .inl rfl, fun _ => .inl rfl, fun _ => .inr ⟨rfl, rfl⟩, fun before _ => before⟩)
    (fun _ _ _ first second => first.trans second) (fun _ _ => moved_touch)

theorem step_moved (v : View) (event : Event) (awake : event.op ≠ .age)
    (grounded : GroundedView v) :
    Moved event.now (marks v) (marks (next v event)) := by
  obtain ⟨m, queue, runs, moves, same⟩ :=
    step_touched v event.now event.order event.op awake grounded
  have moved := moved_touches moves
  rw [show marks (next v event) = { m with cmdQueue := queue, cmdTaskRuns := runs } from same]
  exact ⟨moved.heard, moved.probed, moved.saved, moved.started⟩

theorem kept_empty : Kept [] where
  heard := fun _ => List.mem_cons_self
  probed := fun _ => List.mem_cons_self
  saved := fun _ => List.mem_cons_self
  started := fun c old => absurd old (Nat.not_lt_zero c)
  struck := fun _ => .inl rfl

theorem Strike.later {events earlier between : List Event} {s c : Ref} {heard : Int} {age : Event}
    (record : Strike events s c heard earlier age between) (event : Event) :
    Strike (events ++ [event]) s c heard earlier age (between ++ [event]) :=
  { record with shape := by rw [record.shape, List.append_assoc, List.cons_append] }

theorem Unprobed.later {events earlier between : List Event} {s c : Ref} {heard : Int}
    {age event : Event} (record : Strike events s c heard earlier age between)
    (unprobed : Unprobed c heard earlier age between)
    (kept : ((view (events ++ [event])).vaps c).lastProbeHeard = heard) :
    Unprobed c heard earlier age (between ++ [event]) := by
  intro first rest shape
  rcases List.eq_nil_or_concat rest with rfl | ⟨front, last, rfl⟩
  · rw [List.append_nil] at shape
    rw [← shape, ← List.cons_append, ← List.append_assoc, ← record.shape]
    exact kept
  · rw [List.concat_eq_append, ← List.append_assoc] at shape
    exact unprobed first front (List.append_inj_left' shape rfl)

theorem Kept.unstruck {events : List Event} {event : Event} (kept : Kept events) (c : Ref)
    (later : ∀ time ∈ times events, time < event.now)
    (owner : ((view (events ++ [event])).vaps c).station = ((view events).vaps c).station)
    (saved : ((view (events ++ [event])).vaps c).savedProbeHeard =
      ((view events).vaps c).savedProbeHeard)
    (probed : ((view (events ++ [event])).vaps c).lastProbeHeard =
      ((view events).vaps c).lastProbeHeard ∨
      ((view (events ++ [event])).vaps c).lastProbeHeard = event.now) :
    ((view (events ++ [event])).vaps c).savedProbeHeard = 0 ∨ ∃ s earlier age between,
      ((view (events ++ [event])).vaps c).station = s ∧
        Strike (events ++ [event]) s c ((view (events ++ [event])).vaps c).savedProbeHeard earlier
          age between ∧
          (((view (events ++ [event])).vaps c).savedProbeHeard <
            ((view (events ++ [event])).vaps c).lastProbeHeard ∨
            Unprobed c ((view (events ++ [event])).vaps c).savedProbeHeard earlier age
              between) := by
  -- the record of a container whose times and owner a step has left, apart from a new probe
  rw [saved, owner]
  rcases kept.struck c with zero | ⟨s, earlier, age, between, own, record, since⟩
  · exact .inl zero
  · refine .inr ⟨s, earlier, age, between ++ [event], own, record.later event, ?_⟩
    rcases probed with same | new
    · rw [same]
      refine since.imp_right fun unprobed => unprobed.later record ?_
      rw [same]
      have here := unprobed between [] (List.append_nil between).symm
      rwa [← record.shape] at here
    · rw [new]
      exact .inl (later _ (kept.saved c))

theorem kept_step {events : List Event} {event : Event} (ticking : Ticking (events ++ [event]))
    (kept : Kept events) :
    Kept (events ++ [event]) := by
  have later := (ticking_concat ticking).2
  have positive : 0 < event.now := later 0 List.mem_cons_self
  have grounded := view_grounded events
  have after := view_concat events event
  by_cases aging : event.op = .age
  · have aged : Aged (view events) event.now event.order (view (events ++ [event])) := by
      rw [after, next, aging]
      exact (aged_run _ _ _).1
    have visits := (aged_run (view events) event.now event.order).2.2
    refine ⟨fun s => ?_, fun c => ?_, fun c => ?_, fun c old => ?_, fun c => ?_⟩
    · rw [aged.lastHeard]
      exact mem_times (.inl (kept.heard s))
    · rcases aged.times c with ⟨same, -⟩ | ⟨heard, ⟨u, s, visited, -, rfl⟩, same, -⟩
      · rw [same]
        exact mem_times (.inl (kept.probed c))
      · rw [same, (visits u s c visited).lastHeard]
        exact mem_times (.inl (kept.heard s))
    · rcases aged.times c with ⟨-, same⟩ | ⟨heard, ⟨u, s, visited, -, rfl⟩, -, same⟩
      · rw [same]
        exact mem_times (.inl (kept.saved c))
      · rw [same, (visits u s c visited).lastHeard]
        exact mem_times (.inl (kept.heard s))
    · have started := kept.started c (aged.nextVap ▸ old)
      rcases aged.times c with ⟨same, -⟩ | ⟨heard, ⟨u, s, visited, lagging, rfl⟩, same, -⟩
      · rwa [same]
      · have late := lagging.late
        rw [(lagging_unstruck visited lagging).1] at late
        omega
    · rcases aged.times c with ⟨probed, saved⟩ |
          ⟨heard, ⟨u, s, visited, lagging, rfl⟩, probed, saved⟩
      · exact kept.unstruck c later (aged.station c) saved (.inl probed)
      · refine .inr ⟨s, events, event, [], ?_, ⟨rfl, aging, u, visited, lagging, saved.symm⟩,
          .inr ?_⟩
        · rw [aged.station, ← (visits u s c visited).station]
          exact lagging.own
        · intro first rest shape
          rw [(List.append_eq_nil_iff.mp shape.symm).1, probed, saved]
  · have moved : Moved event.now (marks (view events)) (marks (view (events ++ [event]))) := by
      rw [after]
      exact step_moved (view events) event aging grounded
    refine ⟨fun s => ?_, fun c => ?_, fun c => ?_, moved.started kept.started positive, fun c => ?_⟩
    · have heard : ((view (events ++ [event])).stations s).lastHeard =
          ((view events).stations s).lastHeard ∨
          ((view (events ++ [event])).stations s).lastHeard = event.now ∨
          ((view (events ++ [event])).stations s).lastHeard = 0 := moved.heard s
      rcases heard with same | new | zero
      · rw [same]
        exact mem_times (.inl (kept.heard s))
      · exact mem_times (.inr new)
      · rw [zero]
        exact List.mem_cons_self
    · have probed : ((view (events ++ [event])).vaps c).lastProbeHeard =
          ((view events).vaps c).lastProbeHeard ∨
          ((view (events ++ [event])).vaps c).lastProbeHeard = event.now := moved.probed c
      rcases probed with same | new
      · rw [same]
        exact mem_times (.inl (kept.probed c))
      · exact mem_times (.inr new)
    · rcases moved.saved c with zero | ⟨same, -⟩
      · rw [show ((view (events ++ [event])).vaps c).savedProbeHeard = 0 from zero]
        exact List.mem_cons_self
      · rw [show ((view (events ++ [event])).vaps c).savedProbeHeard = _ from same]
        exact mem_times (.inl (kept.saved c))
    · rcases moved.saved c with zero | ⟨saved, owner⟩
      · exact .inl zero
      · exact kept.unstruck c later owner saved (moved.probed c)

theorem kept_run (events : List Event) (ticking : Ticking events) : Kept events := by
  induction events using List.reverseRecOn with
  | nil => exact kept_empty
  | append_singleton events event ih => exact kept_step ticking (ih (ticking_concat ticking).1)

/-- A container is dropped for its AP's missing the station only at a second strike: an earlier
aging run struck it, no step has probed it since, and the station was heard again more than 12
seconds after the time the first strike had found. -/
theorem second_strike (events : List Event) (event : Event) (ticking : Ticking (events ++ [event]))
    (w : View) (s c : Ref) (visited : Visited (view events) event.now event.order w s c)
    (out : StruckOut w event.now s c) :
    ageVap w event.now event.order s c = (dropVap w event.now event.order s c, true) ∧
      ∃ earlier age between u, events = earlier ++ age :: between ∧ age.op = .age ∧
        Visited (view earlier) age.now age.order u s c ∧ Lagging u age.now s c ∧
        (∀ first rest, between = first ++ rest →
          ((view (earlier ++ age :: first)).vaps c).lastProbeHeard = (u.stations s).lastHeard) ∧
        (w.stations s).lastHeard - (u.stations s).lastHeard > 12 * 1000 := by
  have kept := kept_run events (ticking_concat ticking).1
  have started := kept.started c (visited_stored visited (view_grounded events))
  obtain ⟨probed, saved⟩ := lagging_unstruck visited out.1
  have equal := out.2
  rw [probed, saved] at equal
  refine ⟨by rw [ageVap_lagging event.order out.1, if_pos out.2], ?_⟩
  rcases kept.struck c with zero | ⟨t, earlier, age, between, own, record, since⟩
  · omega
  · have same : t = s := by
      rw [← own, ← ((aged_run _ _ _).2.2 w s c visited).station]
      exact out.1.own
    subst same
    obtain ⟨u, before, lagging, heard⟩ := record.struck
    refine ⟨earlier, age, between, u, record.shape, record.aging, before, lagging, ?_, ?_⟩
    · rw [heard]
      rcases since with probed | unprobed
      · omega
      · exact unprobed
    · have late := out.1.late
      rw [probed, equal, ← heard] at late
      exact late

/-- Two APs of one band. The station has a container at the first one, and the second one alone
hears it, before and after an aging run. -/
def missed : List Event :=
  List.zipWith (fun event now => { event with now := now })
    (hello 0 apMac ++ hello 1 otherMac ++
      [probe 0, ⟨.addVap false AddRollback.addCommand, 0, .stored⟩, probe 1,
      ⟨.age, 0, .stored⟩, probe 1])
    [100, 200, 300, 400, 500, 600, 700, 800, 13000, 14000, 25500]

theorem missed_twice : StruckOut (view missed) 26000 0 0 ∧
    ∃ earlier age between u, missed = earlier ++ age :: between ∧ age.op = .age ∧
      Lagging u age.now 0 0 ∧
      ((view missed).stations 0).lastHeard - (u.stations 0).lastHeard > 12 * 1000 := by
  have ticking : Ticking (missed ++ [⟨.age, 26000, .stored⟩]) := by
    unfold Ticking
    decide +kernel
  have visited : Visited (view missed) 26000 .stored (view missed) 0 0 :=
    ⟨view missed, ⟨[], [], by decide +kernel, rfl⟩, ⟨by decide +kernel, by decide +kernel⟩,
      [], [], by decide +kernel, rfl⟩
  have out : StruckOut (view missed) 26000 0 0 :=
    ⟨⟨by decide +kernel, by decide +kernel,
      ⟨false, by decide +kernel, by decide +kernel⟩, by decide +kernel,
      ⟨"010".toList, by decide +kernel, by decide +kernel⟩⟩, by decide +kernel⟩
  obtain ⟨-, earlier, age, between, u, shape, aging, -, lagging, -, later⟩ :=
    second_strike missed ⟨.age, 26000, .stored⟩ ticking (view missed) 0 0 visited out
  exact ⟨out, earlier, age, between, u, shape, aging, lagging, later⟩

end LazyAS.AgingStrikes

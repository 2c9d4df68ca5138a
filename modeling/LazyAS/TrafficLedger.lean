import LazyAS.StepEffects

/-! The traffic of stations and agents over whole runs. A station has a folded sum and a current
counter in each direction, an agent has a sum of differences. A book that enters every amount
added to an agent while a flow report is handled balances with both. -/
namespace LazyAS.TrafficLedger
open WireText ControllerView Master VapBindings StationCoherence ViewGround ViewMoves
  StepEffects Runs

inductive Direction where
  | up | down
  deriving DecidableEq, Repr

def stationTotal (station : Station) : Direction → Int64
  | .up => station.sumUpTraffic + station.upTraffic
  | .down => station.sumDownTraffic + station.downTraffic

def agentTotal (agent : Agent) : Direction → Int64
  | .up => agent.sumUpTraffic
  | .down => agent.sumDownTraffic

/-- The totals of all objects and how many objects there are. -/
structure Accounts where
  station : Ref → Direction → Int64
  agent : Ref → Direction → Int64
  nextStation : Ref
  nextAgent : Ref

def accounts (v : View) : Accounts where
  station := stationTotal ∘ v.stations
  agent := agentTotal ∘ v.agents
  nextStation := v.nextStation
  nextAgent := v.nextAgent

/-! Most assignments leave the totals alone. -/

theorem accounts_updStation (v : View) (s : Ref) (change : Station → Station)
    (same : stationTotal (change (v.stations s)) = stationTotal (v.stations s)) :
    accounts (updStation v s change) = accounts v := by
  simp only [accounts, updStation]
  rw [comp_update_same stationTotal v.stations s _ same]

theorem accounts_updAgent (v : View) (a : Ref) (change : Agent → Agent)
    (same : agentTotal (change (v.agents a)) = agentTotal (v.agents a)) :
    accounts (updAgent v a change) = accounts v := by
  simp only [accounts, updAgent]
  rw [comp_update_same agentTotal v.agents a _ same]

theorem accounts_alike {v w : View} (same : Alike v w) : accounts w = accounts v :=
  same.read accounts

section Assignments

variable (v : View)

@[simp] theorem accounts_mirror (write : Redis.Hashes → Redis.Hashes) :
    accounts (mirror v write) = accounts v := rfl

@[simp] theorem accounts_newVapContainer (s a : Ref) (ssid : Text) :
    accounts (newVapContainer v s a ssid) = accounts v := rfl

@[simp] theorem accounts_setLastProbeHeard (c : Ref) (now : Int) :
    accounts (setLastProbeHeard v c now) = accounts v := rfl

@[simp] theorem accounts_setVapStatus (c : Ref) (status : Status) :
    accounts (setVapStatus v c status) = accounts v := by
  have counted (count : Int → Int) : accounts (updAgent v (v.vaps c).agent fun agent =>
      { agent with staCountOnline := count agent.staCountOnline }) = accounts v :=
    accounts_updAgent v _ _ rfl
  cases before : (v.vaps c).status <;> cases status <;> simp only [setVapStatus, before]
  · rfl
  · exact counted (· - 1)
  · exact counted (· + 1)
  · rfl

@[simp] theorem accounts_setStationStatus (s : Ref) (status : Status) :
    accounts (setStationStatus v s status) = accounts v :=
  (accounts_mirror _ _).trans (accounts_updStation v s _ rfl)

@[simp] theorem accounts_setWorking (s : Ref) (working : Option Ref) :
    accounts (setWorking v s working) = accounts v := accounts_updStation v s _ rfl

@[simp] theorem accounts_updateSumTraffic (s : Ref) :
    accounts (updateSumTraffic v s) = accounts v := by
  refine (accounts_mirror _ _).trans (accounts_updStation v s _ ?_)
  funext direction
  cases direction with
  | up => exact Int64.add_zero _
  | down => exact Int64.add_zero _

@[simp] theorem accounts_stationAddVap (s c : Ref) : accounts (stationAddVap v s c) = accounts v :=
  accounts_updStation v s _ rfl

@[simp] theorem accounts_stationRemoveVap (s c : Ref) :
    accounts (stationRemoveVap v s c) = accounts v :=
  accounts_updStation v s _ rfl

@[simp] theorem accounts_agentAddVap (a c : Ref) : accounts (agentAddVap v a c) = accounts v := by
  unfold agentAddVap
  split
  · rfl
  · exact accounts_updAgent v a _ rfl

@[simp] theorem accounts_agentRemoveVap (a c : Ref) :
    accounts (agentRemoveVap v a c) = accounts v := by
  unfold agentRemoveVap
  split
  · exact accounts_updAgent v a _ rfl
  · rfl

@[simp] theorem accounts_shut (sc a : Ref) : accounts (shut v sc a) = accounts v :=
  accounts_updAgent v a (fun agent => { agent with lastHeard := 0, sc := none }) rfl

end Assignments

theorem accounts_losses {v w : View} (moves : Losses v w) : accounts w = accounts v := by
  refine moves.rule (fun x y => accounts y = accounts x) (fun _ => rfl)
    (fun _ _ _ first second => second.trans first) ?_
  intro x y move
  cases move with
  | alike same => exact accounts_alike same
  | release a c => exact accounts_agentRemoveVap x a c
  | drop s c => exact accounts_stationRemoveVap x s c
  | off s => exact accounts_setStationStatus x s .offLine
  | idle s => exact accounts_setWorking x s none
  | fold s off => exact accounts_updateSumTraffic x s
  | vapOff c => exact accounts_setVapStatus x c .offLine
  | shut sc a => exact accounts_shut x sc a
  | closed sc => rfl
  | untrack mac => rfl

theorem accounts_admission {v w : View} {now : Int} {s a : Ref} {ssid : Text}
    (admission : Admission v now s a ssid w) : accounts w = accounts v := by
  cases admission with
  | unchanged same => exact accounts_alike same
  | resume c same stored switches =>
      refine Eq.trans ?_ (accounts_alike same)
      simp [resumeVap, bringOnline]
  | join same absent switches free =>
      refine Eq.trans ?_ (accounts_alike same)
      simp [joinVap]
  | adopt c absent unlinked held => simp [adoptVap]
  | stray same linked absent off =>
      refine Eq.trans ?_ ((accounts_alike same).trans (accounts_newVapContainer v s a ssid))
      simp [resumeVap, bringOnline]

/-! Objects that do not exist yet have counted nothing, and new objects start with nothing. -/

structure Blank (totals : Accounts) : Prop where
  station : ∀ s, totals.nextStation ≤ s → totals.station s = fun _ => 0
  agent : ∀ a, totals.nextAgent ≤ a → totals.agent a = fun _ => 0

structure Keeps (totals totals' : Accounts) : Prop where
  station : totals'.station = totals.station
  agent : totals'.agent = totals.agent
  nextStation : totals.nextStation ≤ totals'.nextStation
  nextAgent : totals.nextAgent ≤ totals'.nextAgent

theorem Keeps.of_eq {totals totals' : Accounts} (same : totals' = totals) :
    Keeps totals totals' := by
  subst same
  exact ⟨rfl, rfl, Nat.le_refl _, Nat.le_refl _⟩

theorem Keeps.blank {totals totals' : Accounts} (keeps : Keeps totals totals')
    (blank : Blank totals) :
    Blank totals' where
  station := by
    intro s new
    rw [keeps.station]
    exact blank.station s (Nat.le_trans keeps.nextStation new)
  agent := by
    intro a new
    rw [keeps.agent]
    exact blank.agent a (Nat.le_trans keeps.nextAgent new)

theorem stationTotal_new (mac : Text) (status : Status) :
    stationTotal { macAddress := mac, status := status } = fun _ => 0 := by
  funext direction
  cases direction with
  | up => rfl
  | down => rfl

theorem agentTotal_new (mac : Text) (sc : Option Ref) (now : Int) :
    agentTotal { macAddress := mac, sc := sc, lastHeard := now } = fun _ => 0 := by
  funext direction
  cases direction with
  | up => rfl
  | down => rfl

theorem keeps_newStation (v : View) (mac : Text) (status : Status) (blank : Blank (accounts v)) :
    Keeps (accounts v) (accounts { v with
      stations := Function.update v.stations v.nextStation { macAddress := mac, status := status }
      nextStation := v.nextStation + 1 }) where
  station := comp_update_same _ _ _ _
    ((stationTotal_new mac status).trans (blank.station v.nextStation (Nat.le_refl _)).symm)
  agent := rfl
  nextStation := Nat.le_succ _
  nextAgent := Nat.le_refl _

theorem keeps_registerAgent (v : View) (now : Int) (sc : Ref) (mac : Text)
    (blank : Blank (accounts v)) :
    Keeps (accounts v) (accounts (registerAgent v now sc mac)) := by
  have result : accounts (registerAgent v now sc mac) = { accounts v with
      agent := agentTotal ∘ Function.update v.agents v.nextAgent
        { macAddress := mac, sc := some sc, lastHeard := now }
      nextAgent := v.nextAgent + 1 } := by
    unfold registerAgent
    dsimp only
    split
    · rfl
    · rfl
  rw [result]
  exact {
    station := rfl
    agent := comp_update_same _ _ _ _
      ((agentTotal_new mac (some sc) now).trans (blank.agent v.nextAgent (Nat.le_refl _)).symm)
    nextStation := Nat.le_refl _
    nextAgent := Nat.le_succ _ }

theorem keeps_createStation (v : View) (now : Int) (a : Ref) (mac ssid : Text)
    (blank : Blank (accounts v)) :
    Keeps (accounts v) (accounts (createStation v now a mac ssid)) := by
  have result : accounts (createStation v now a mac ssid) = accounts { v with
      stations := Function.update v.stations v.nextStation { macAddress := mac, status := .onLine }
      nextStation := v.nextStation + 1 } := by
    simp only [createStation, addStation, accounts_mirror]
    change accounts (agentAddVap _ a v.nextVap) = _
    simp only [bringOnline, accounts_agentAddVap, accounts_stationAddVap, accounts_setWorking,
      accounts_setLastProbeHeard, accounts_setVapStatus, accounts_newVapContainer]
  rw [result]
  exact keeps_newStation v mac .onLine blank

theorem keeps_probeStation (v : View) (mac : Text) (unknown : v.stationMap.lookup mac = none)
    (blank : Blank (accounts v)) : Keeps (accounts v) (accounts (probeStation v mac).1) := by
  simp only [probeStation, unknown]
  exact keeps_newStation v mac .offLine blank

theorem Effect.keeps {v w : View} {now : Int} {order : Order} {op : Op}
    (effect : Effect v now order op w) (grounded : GroundedView v) (blank : Blank (accounts v))
    (other : ∀ sc message, op ≠ .flowInfo sc message) :
    Keeps (accounts v) (accounts w) := by
  -- every operation but a flow report that is accepted keeps the totals
  cases effect with
  | upkeep moves => exact .of_eq (accounts_losses (losses_upkeeps moves grounded))
  | accept => exact .of_eq rfl
  | heard sc a registered => exact .of_eq (accounts_updAgent v a _ rfl)
  | close sc => exact .of_eq (accounts_losses (losses_closeSocket v order sc grounded))
  | displace sc message mac after taken =>
      exact .of_eq (accounts_losses (losses_closeFormer v order sc mac grounded))
  | register sc message mac after taken opened =>
      have closed := accounts_losses (losses_closeFormer v order sc mac grounded)
      have keeps := keeps_registerAgent (closeFormer v order sc mac) now sc mac
        ((Keeps.of_eq closed).blank blank)
      rwa [closed] at keeps
  | create sc a message mac ssid report unknown moves =>
      have agent := registered_lt grounded (newReport_registered v order report)
      rw [accounts_losses (losses_upkeeps moves
        (createStation_grounded v now a mac ssid grounded agent unknown))]
      exact keeps_createStation v now a mac ssid blank
  | admitted sc a s message mac ssid report known admission moves =>
      have agent := registered_lt grounded (newReport_registered v order report)
      have named : (v.stations s).macAddress = mac := (grounded.tracked mac s known).2
      subst named
      rw [accounts_losses (losses_upkeeps moves
        (Admission.grounded admission grounded agent known))]
      exact .of_eq (accounts_admission admission)
  | leave sc a s c message mac ssid registered known stored left =>
      exact .of_eq (accounts_losses (losses_leaveVap v now s c))
  | flow sc s a message up down report => exact absurd rfl (other sc message)
  | probe sc message info taken unknown same =>
      rw [accounts_alike same]
      exact keeps_probeStation v info.staMacAddr unknown blank
  | inform sc a message mode totStaSize channel curPos registered taken =>
      exact .of_eq ((accounts_mirror _ _).trans (accounts_updAgent v a _ rfl))
  | acknowledge sc a s c message mac ssid same registered known stored listed done =>
      exact .of_eq ((accounts_losses (losses_acknowledgement done)).trans (accounts_alike same))
  | add isRoam message s adds accepted same =>
      refine .of_eq ((accounts_alike same).trans ?_)
      simp [createVap]
  | age moves => exact .of_eq (accounts_losses (losses_ages moves grounded))

/-! The book. -/

/-- The counters of a report are smaller than the last ones of the station. -/
def Restarted (v : View) (s : Ref) (upTraffic downTraffic : Int64) : Prop :=
  (v.stations s).upTraffic > upTraffic ∨ (v.stations s).downTraffic > downTraffic

instance (v : View) (s : Ref) (upTraffic downTraffic : Int64) :
    Decidable (Restarted v s upTraffic downTraffic) :=
  inferInstanceAs (Decidable (_ ∨ _))

/-- What a flow report passes to `addSumTraffic` in each direction. -/
def passed (v : View) (s : Ref) (upTraffic downTraffic : Int64) : Direction → Int64
  | .up => if Restarted v s upTraffic downTraffic then upTraffic
    else upTraffic - (v.stations s).upTraffic
  | .down => if Restarted v s upTraffic downTraffic then downTraffic
      else downTraffic - (v.stations s).downTraffic

theorem countTraffic_passed (v : View) (a s : Ref) (up down : Int64) :
    countTraffic v a s up down =
      let added := addSumTraffic v a (passed v s up down .up) (passed v s up down .down)
      setUpTraffic (setDownTraffic
          (if Restarted v s up down then updateSumTraffic added s else added) s down) s up := by
  by_cases smaller : Restarted v s up down
  · simp only [passed, if_pos smaller]
    exact congrArg (fun w => setUpTraffic (setDownTraffic w s down) s up) (if_pos smaller)
  · simp only [passed, if_neg smaller]
    exact congrArg (fun w => setUpTraffic (setDownTraffic w s down) s up) (if_neg smaller)

theorem accounts_countTraffic (v : View) (a s : Ref) (up down : Int64) :
    accounts (countTraffic v a s up down) = { accounts v with
      station := Function.update (accounts v).station s
        fun direction => (accounts v).station s direction + passed v s up down direction
      agent := Function.update (accounts v).agent a
        fun direction => (accounts v).agent a direction + passed v s up down direction } := by
  -- an accepted report raises the totals of its station and of its agent by the same amounts
  have agents : agentTotal ∘ (countTraffic v a s up down).agents =
      Function.update (agentTotal ∘ v.agents) a
      fun direction => agentTotal (v.agents a) direction + passed v s up down direction := by
    have result : (countTraffic v a s up down).agents =
        (addSumTraffic v a (passed v s up down .up) (passed v s up down .down)).agents := by
      rw [countTraffic_passed]
      dsimp only
      split
      · rfl
      · rfl
    rw [result]
    change agentTotal ∘ Function.update v.agents a _ = _
    rw [Function.comp_update]
    refine congrArg _ (funext fun direction => ?_)
    cases direction with
    | up => rfl
    | down => rfl
  have stations : stationTotal ∘ (countTraffic v a s up down).stations = Function.update
      (stationTotal ∘ v.stations) s
      fun direction => stationTotal (v.stations s) direction + passed v s up down direction := by
    by_cases smaller : Restarted v s up down
    · have result : (countTraffic v a s up down).stations =
          Function.update v.stations s { v.stations s with
          sumDownTraffic := (v.stations s).sumDownTraffic + (v.stations s).downTraffic
          sumUpTraffic := (v.stations s).sumUpTraffic + (v.stations s).upTraffic
          downTraffic := down
          upTraffic := up } := by
        rw [countTraffic_passed]
        simp [if_pos smaller, setUpTraffic, setDownTraffic, updateSumTraffic, addSumTraffic, mirror,
          updStation, updAgent]
      rw [result, Function.comp_update]
      refine congrArg _ (funext fun direction => ?_)
      cases direction with
      | up => simp [stationTotal, passed, smaller]
      | down => simp [stationTotal, passed, smaller]
    · have result : (countTraffic v a s up down).stations =
          Function.update v.stations s { v.stations s with
          downTraffic := down
          upTraffic := up } := by
        rw [countTraffic_passed]
        simp [if_neg smaller, setUpTraffic, setDownTraffic, addSumTraffic, mirror, updStation,
          updAgent]
      rw [result, Function.comp_update]
      refine congrArg _ (funext fun direction => ?_)
      cases direction with
      | up =>
          simp only [stationTotal, passed, if_neg smaller]
          grind
      | down =>
          simp only [stationTotal, passed, if_neg smaller]
          grind
  have counts : (countTraffic v a s up down).nextStation = v.nextStation ∧
      (countTraffic v a s up down).nextAgent = v.nextAgent := by
    rw [countTraffic_passed]
    dsimp only
    split
    · exact ⟨rfl, rfl⟩
    · exact ⟨rfl, rfl⟩
  simp only [accounts, agents, stations, counts]
  rfl

theorem flowReport_known {v : View} {sc s a : Ref} {message : Text} {up down : Int64}
    (report : flowReport v sc message = some (s, a, up, down)) :
    (∃ mac, v.stationMap.lookup mac = some s) ∧ v.sc2AgentMap sc = some a := by
  unfold flowReport at report
  simp only [Option.bind_eq_bind, Option.bind_eq_some_iff] at report
  obtain ⟨taken, -, b, registered, t, known, c, working, up', -, down', -, fits⟩ := report
  split at fits
  · cases fits
    exact ⟨⟨taken.1, known⟩, registered⟩
  · cases fits

structure Entry where
  station : Ref
  agent : Ref
  amount : Direction → Int64

structure Book where
  view : View
  entries : List Entry

/-- The call an operation makes; only an accepted flow report makes one. -/
def entryOf (v : View) : Op → Option Entry
  | .flowInfo sc message => (flowReport v sc message).map fun (s, a, up, down) =>
    ⟨s, a, passed v s up down⟩
  | _ => none

def enter (book : Book) (event : Event) : Book :=
  ⟨next book.view event, (entryOf book.view event.op).toList ++ book.entries⟩

def Book.empty : Book := ⟨View.empty, []⟩

def ofStation (entries : List Entry) (s : Ref) (direction : Direction) : Int64 :=
  ((entries.filter fun entry => entry.station = s).map fun entry => entry.amount direction).sum

def toAgent (entries : List Entry) (a : Ref) (direction : Direction) : Int64 :=
  ((entries.filter fun entry => entry.agent = a).map fun entry => entry.amount direction).sum

structure Balanced (book : Book) : Prop where
  grounded : GroundedView book.view
  blank : Blank (accounts book.view)
  station : ofStation book.entries = (accounts book.view).station
  agent : toAgent book.entries = (accounts book.view).agent

theorem sum_cons (entries : List Entry) (entry : Entry) (owner : Entry → Ref)
    (totals : Ref → Direction → Int64) (before : (fun (i : Ref) (direction : Direction) =>
      ((entries.filter fun entry => owner entry = i).map fun entry => entry.amount direction).sum) =
        totals) :
    (fun (i : Ref) (direction : Direction) =>
      (((entry :: entries).filter fun entry => owner entry = i).map fun entry => entry.amount
        direction).sum) =
    Function.update totals (owner entry)
      fun direction => totals (owner entry) direction + entry.amount direction := by
  funext i direction
  have rest (j : Ref) : ((entries.filter fun entry => owner entry = j).map
      fun entry => entry.amount direction).sum = totals j direction :=
        congrFun (congrFun before j) direction
  by_cases same : owner entry = i
  · subst same
    rw [Function.update_self, List.filter_cons_of_pos (by simp), List.map_cons, List.sum_cons, rest]
    exact Int64.add_comm _ _
  · rw [Function.update_of_ne (fun found => same found.symm),
      List.filter_cons_of_neg (by simp [same]), rest]

theorem report_kept {v : View} {sc s a : Ref} {message : Text} {up down : Int64}
    (grounded : GroundedView v) (blank : Blank (accounts v))
    (report : flowReport v sc message = some (s, a, up, down)) :
    GroundedView (countTraffic v a s up down) ∧ Blank (accounts (countTraffic v a s up down)) := by
  obtain ⟨⟨mac, found⟩, registered⟩ := flowReport_known report
  obtain ⟨bound, same⟩ := countTraffic_ground v a s up down
  refine ⟨grounded_of bound same grounded, ?_⟩
  rw [accounts_countTraffic]
  constructor
  · intro t new
    have old : s < v.nextStation := (grounded.tracked mac s found).1
    have other : t ≠ s := Nat.ne_of_gt (Nat.lt_of_lt_of_le old new)
    exact (Function.update_of_ne other _ _).trans (blank.station t new)
  · intro b new
    have old := registered_lt grounded registered
    have other : b ≠ a := Nat.ne_of_gt (Nat.lt_of_lt_of_le old new)
    exact (Function.update_of_ne other _ _).trans (blank.agent b new)

theorem Balanced.report {book : Book} (balanced : Balanced book) (sc s a : Ref) (message : Text)
    (up down : Int64) (report : flowReport book.view sc message = some (s, a, up, down)) :
    Balanced ⟨countTraffic book.view a s up down,
      ⟨s, a, passed book.view s up down⟩ :: book.entries⟩ := by
  obtain ⟨grounded, blank⟩ := report_kept balanced.grounded balanced.blank report
  have after := accounts_countTraffic book.view a s up down
  refine ⟨grounded, blank, ?_, ?_⟩
  · rw [after]
    exact sum_cons book.entries ⟨s, a, passed book.view s up down⟩ Entry.station _ balanced.station
  · rw [after]
    exact sum_cons book.entries ⟨s, a, passed book.view s up down⟩ Entry.agent _ balanced.agent

theorem enter_balanced (book : Book) (event : Event) (balanced : Balanced book) :
    Balanced (enter book event) := by
  obtain ⟨op, now, order⟩ := event
  by_cases flow : ∃ sc message, op = .flowInfo sc message
  · obtain ⟨sc, message, rfl⟩ := flow
    cases report : flowReport book.view sc message with
    | none =>
        have result : enter book ⟨.flowInfo sc message, now, order⟩ = book := by
          simp [enter, entryOf, next, step, processMsgFlowInfo_eq, report]
        rw [result]
        exact balanced
    | some fields =>
        obtain ⟨s, a, up, down⟩ := fields
        have result : enter book ⟨.flowInfo sc message, now, order⟩ =
            ⟨countTraffic book.view a s up down,
                ⟨s, a, passed book.view s up down⟩ :: book.entries⟩ := by
          simp [enter, entryOf, next, step, processMsgFlowInfo_eq, report]
        rw [result]
        exact balanced.report sc s a message up down report
  · have other (sc : Ref) (message : Text) : op ≠ .flowInfo sc message := fun same =>
        flow ⟨sc, message, same⟩
    have nothing : entryOf book.view op = none := by
      unfold entryOf
      split
      · rename_i sc message
        exact absurd rfl (other sc message)
      · rfl
    have effect := step_effect book.view now order op balanced.grounded
    have keeps := Effect.keeps effect balanced.grounded balanced.blank other
    have entries : (enter book ⟨op, now, order⟩).entries = book.entries := by simp [enter, nothing]
    refine ⟨effect.grounded balanced.grounded, keeps.blank balanced.blank, ?_, ?_⟩
    · rw [entries]
      exact balanced.station.trans keeps.station.symm
    · rw [entries]
      exact balanced.agent.trans keeps.agent.symm

theorem balanced_empty : Balanced Book.empty where
  grounded := grounded_empty
  blank := ⟨fun _ _ => stationTotal_new [] .offLine, fun _ _ => agentTotal_new [] none 0⟩
  station := (funext fun _ => stationTotal_new [] .offLine).symm
  agent := (funext fun _ => agentTotal_new [] none 0).symm

theorem run_view (events : List Event) (book : Book) :
    (run enter book events).view = run next book.view events := by
  induction events generalizing book with
  | nil => rfl
  | cons event events ih => exact ih (enter book event)

/-- After every sequence of operations the amounts passed to agents in flow reports of a station
add up to the sum and the counter of the station, and those passed to an agent to the sum of
the agent: every amount is counted once on either side. -/
theorem traffic_conserved (events : List Event) :
    let v := run next View.empty events
    let entries := (run enter Book.empty events).entries
    (∀ s, ofStation entries s .up = (v.stations s).sumUpTraffic + (v.stations s).upTraffic ∧
      ofStation entries s .down = (v.stations s).sumDownTraffic + (v.stations s).downTraffic) ∧
    ∀ a, toAgent entries a .up = (v.agents a).sumUpTraffic ∧
      toAgent entries a .down = (v.agents a).sumDownTraffic := by
  have balanced := run_invariant Balanced balanced_empty enter_balanced events
  have view := run_view events Book.empty
  have station := balanced.station
  have agent := balanced.agent
  rw [view] at station agent
  refine ⟨fun s => ⟨?_, ?_⟩, fun a => ⟨?_, ?_⟩⟩
  · exact congrFun (congrFun station s) .up
  · exact congrFun (congrFun station s) .down
  · exact congrFun (congrFun agent a) .up
  · exact congrFun (congrFun agent a) .down

end LazyAS.TrafficLedger

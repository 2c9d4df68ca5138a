import LazyAS.TrafficLedger

/-! The traffic of a station session by session. A session starts when a NEW_STA report makes a
container at a different agent the working one or brings the station on line. The counters of the
former session are folded into the sum only where the report finds a stored container; where it
stores a new one they stay, and the first report of the session is counted from them. -/
namespace LazyAS.TrafficSessions
open WireText ControllerView Master VapBindings ViewGrowth StationCoherence ViewGround ViewMoves
  StepEffects
  TrafficLedger Runs

def workingAgent (v : View) (s : Ref) : Option Ref :=
  (v.stations s).workingVapContainer.map fun c => (v.vaps c).agent

/-- A container at a different agent became the working one, or the station came on line. -/
def Begins (v w : View) (s : Ref) : Prop :=
  (workingAgent w s ≠ none ∧ workingAgent w s ≠ workingAgent v s) ∨
  ((v.stations s).status = .offLine ∧ (w.stations s).status = .onLine)

instance (v w : View) (s : Ref) : Decidable (Begins v w s) := inferInstanceAs (Decidable (_ ∨ _))

def opened (v : View) (event : Event) : Option Ref :=
  match event.op with
  | .newStation sc message =>
      match newReport v event.order sc message with
      | none => none
      | some (a, staMacAddr, ssid) =>
          let admitted := admitStation v event.now a staMacAddr ssid
          if v.stationMap.lookup staMacAddr = none ∨ Begins v admitted.1.1 admitted.2 then
            some admitted.2
          else none
  | _ => none

def counters (upTraffic downTraffic : Int64) : Direction → Int64
  | .up => upTraffic
  | .down => downTraffic

def current (station : Station) : Direction → Int64 :=
  counters station.upTraffic station.downTraffic

/-- The view and the last counters accepted in each session of a station, the latest first. -/
structure Log where
  view : View
  sessions : Ref → List (Direction → Int64)

def last (sessions : List (Direction → Int64)) : Direction → Int64 := sessions.headD fun _ => 0

def follow (log : Log) (event : Event) : Log where
  view := next log.view event
  sessions :=
    match event.op with
    | .newStation _ _ =>
        match opened log.view event with
        | none => log.sessions
        | some s => Function.update log.sessions s ((fun _ => 0) :: log.sessions s)
    | .flowInfo sc message =>
        match flowReport log.view sc message with
        | none => log.sessions
        | some (s, _, up, down) =>
            Function.update log.sessions s (counters up down :: (log.sessions s).tail)
    | _ => log.sessions

def Log.empty : Log := ⟨View.empty, fun _ => []⟩

def summed (sessions : List (Direction → Int64)) (direction : Direction) : Int64 :=
  (sessions.map fun session => session direction).sum

/-- An accepted report does not fall behind its session, which starts at zero. -/
def Rises (log : Log) (event : Event) : Prop :=
  match event.op with
  | .flowInfo sc message => ∀ s a up down, flowReport log.view sc message = some (s, a, up, down) →
      ∀ direction, last (log.sessions s) direction ≤ counters up down direction
  | _ => True

/-- An accepted report finds the counters of its own session, or is smaller than what it finds and
the first of its session. -/
def Matches (log : Log) (event : Event) : Prop :=
  match event.op with
  | .flowInfo sc message => ∀ s a up down, flowReport log.view sc message = some (s, a, up, down) →
      if Restarted log.view s up down then last (log.sessions s) = fun _ => 0
      else current (log.view.stations s) = last (log.sessions s)
  | _ => True

structure Conserved (log : Log) : Prop where
  grounded : GroundedView log.view
  blank : Blank (accounts log.view)
  station : (fun s => summed (log.sessions s)) = (accounts log.view).station

theorem summed_open (sessions : List (Direction → Int64)) :
    summed ((fun _ => 0) :: sessions) = summed sessions := by
  funext direction
  simp [summed]

theorem summed_report (sessions : List (Direction → Int64)) (report : Direction → Int64)
    (direction : Direction) :
    summed (report :: sessions.tail) direction =
      summed sessions direction + (report direction - last sessions direction) := by
  cases sessions with
  | nil =>
      simp only [List.tail_nil, summed, last, List.headD_nil, List.map_cons, List.map_nil,
        List.sum_cons, List.sum_nil]
      grind
  | cons session sessions =>
      simp only [List.tail_cons, summed, last, List.headD_cons, List.map_cons, List.sum_cons]
      grind

theorem passed_matches (v : View) (s : Ref) (up down : Int64) (session : Direction → Int64)
    (fits : if Restarted v s up down then session = fun _ => 0 else current (v.stations s) =
      session)
    (direction : Direction) :
    passed v s up down direction = counters up down direction - session direction := by
  by_cases smaller : Restarted v s up down
  · rw [if_pos smaller] at fits
    subst fits
    cases direction with
    | up => simp [passed, smaller, counters]
    | down => simp [passed, smaller, counters]
  · rw [if_neg smaller] at fits
    subst fits
    cases direction with
    | up => simp [passed, smaller, counters, current]
    | down => simp [passed, smaller, counters, current]

theorem update_summed (sessions : Ref → List (Direction → Int64)) (s : Ref)
    (list : List (Direction → Int64)) :
    (fun t => summed (Function.update sessions s list t)) =
      Function.update (fun t => summed (sessions t)) s (summed list) := by
  funext t
  by_cases same : t = s
  · subst same
    simp
  · simp [same]

theorem Conserved.report {log : Log} (conserved : Conserved log) (sc s a : Ref) (message : Text)
    (up down : Int64) (report : flowReport log.view sc message = some (s, a, up, down))
    (fits : if Restarted log.view s up down then last (log.sessions s) = fun _ => 0
      else current (log.view.stations s) = last (log.sessions s)) :
    Conserved ⟨countTraffic log.view a s up down,
      Function.update log.sessions s (counters up down :: (log.sessions s).tail)⟩ := by
  obtain ⟨grounded, blank⟩ := report_kept conserved.grounded conserved.blank report
  refine ⟨grounded, blank, ?_⟩
  dsimp only
  rw [accounts_countTraffic, update_summed, conserved.station]
  refine congrArg _ (funext fun direction => ?_)
  have total : summed (log.sessions s) direction = (accounts log.view).station s direction :=
    congrFun (congrFun conserved.station s) direction
  rw [summed_report, total, passed_matches log.view s up down _ fits direction]

theorem follow_conserved (log : Log) (event : Event) (fits : Matches log event)
    (conserved : Conserved log) :
    Conserved (follow log event) := by
  obtain ⟨op, now, order⟩ := event
  by_cases flow : ∃ sc message, op = .flowInfo sc message
  · obtain ⟨sc, message, rfl⟩ := flow
    cases report : flowReport log.view sc message with
    | none =>
        have result : follow log ⟨.flowInfo sc message, now, order⟩ = log := by
          simp [follow, next, step, processMsgFlowInfo_eq, report]
        rw [result]
        exact conserved
    | some fields =>
        obtain ⟨s, a, up, down⟩ := fields
        have result : follow log ⟨.flowInfo sc message, now, order⟩ =
            ⟨countTraffic log.view a s up down,
            Function.update log.sessions s (counters up down :: (log.sessions s).tail)⟩ := by
          simp [follow, next, step, processMsgFlowInfo_eq, report]
        rw [result]
        exact conserved.report sc s a message up down report (fits s a up down report)
  · have other (sc : Ref) (message : Text) : op ≠ .flowInfo sc message := fun same =>
        flow ⟨sc, message, same⟩
    have effect := step_effect log.view now order op conserved.grounded
    have keeps := Effect.keeps effect conserved.grounded conserved.blank other
    -- a session that starts has nothing in it yet
    have sums : (fun s => summed ((follow log ⟨op, now, order⟩).sessions s)) =
        fun s => summed (log.sessions s) := by
      unfold follow
      dsimp only
      split
      · rename_i sc message
        cases opened log.view ⟨.newStation sc message, now, order⟩ with
        | none => rfl
        | some s =>
            dsimp only
            rw [update_summed, summed_open]
            exact Function.update_eq_self _ _
      · rename_i sc message
        exact absurd rfl (other sc message)
      · rfl
    refine ⟨effect.grounded conserved.grounded, keeps.blank conserved.blank, ?_⟩
    rw [sums]
    exact conserved.station.trans keeps.station.symm

/-! Where the handler folds, the counters of a station on line are those of its session. -/

def live (station : Station) : Option (Direction → Int64) :=
  if station.status = .onLine then some (current station) else none

/-- No station comes on line, and those that stay keep their counters. -/
def Calm (v w : View) : Prop :=
  ∀ s report, live (w.stations s) = some report → live (v.stations s) = some report

theorem Calm.refl (v : View) : Calm v v := fun _ _ found => found

theorem Calm.trans {v w x : View} (first : Calm v w) (second : Calm w x) : Calm v x :=
  fun s report found => first s report (second s report found)

theorem calm_of_stations {v w : View} (same : w.stations = v.stations) : Calm v w := by
  intro s report found
  rwa [same] at found

theorem calm_alike {v w : View} (same : Alike v w) : Calm v w := by
  intro s report found
  have read : live (w.stations s) = live (v.stations s) := same.read fun x => live (x.stations s)
  rwa [read] at found

theorem calm_updStation (v : View) (s : Ref) (change : Station → Station)
    (kept : ∀ report, live (change (v.stations s)) = some report →
      live (v.stations s) = some report) :
    Calm v (updStation v s change) := by
  intro t report found
  by_cases same : t = s
  · subst same
    exact kept report (by simpa [updStation] using found)
  · simpa [updStation, same] using found

theorem calm_mirror (v : View) (write : Redis.Hashes → Redis.Hashes) : Calm v (mirror v write) :=
  calm_of_stations rfl

theorem live_off {station : Station} (off : station.status = .offLine) : live station = none := by
  simp [live, off]

theorem calm_losses {v w : View} (moves : Losses v w) : Calm v w := by
  refine moves.rule Calm .refl (fun _ _ _ first second => first.trans second) ?_
  intro x y move
  cases move with
  | alike same => exact calm_alike same
  | release a c => exact calm_of_stations (stations_agentRemoveVap x a c)
  | drop s c => exact calm_updStation x s _ fun _ found => found
  | off s =>
      refine (calm_updStation x s _ fun report found => ?_).trans (calm_mirror _ _)
      exact absurd (found.symm.trans (live_off rfl)) (by simp)
  | idle s => exact calm_updStation x s _ fun _ found => found
  | fold s off =>
      unfold updateSumTraffic
      refine Calm.trans (calm_updStation x s _ fun report found => ?_) (calm_mirror _ _)
      exact absurd (found.symm.trans (live_off off)) (by simp)
  | vapOff c => exact calm_of_stations (stations_setVapStatus x c .offLine)
  | shut sc a => exact calm_of_stations rfl
  | closed sc => exact calm_of_stations rfl
  | untrack mac => exact calm_of_stations rfl

theorem calm_probeStation (v : View) (mac : Text) (unknown : v.stationMap.lookup mac = none) :
    Calm v (probeStation v mac).1 := by
  have result : (probeStation v mac).1.stations =
      Function.update v.stations v.nextStation { macAddress := mac, status := .offLine } := by
    simp [probeStation, unknown, addStation, mirror]
  intro s report found
  rw [result] at found
  by_cases new : s = v.nextStation
  · subst new
    rw [Function.update_self] at found
    cases (live_off rfl).symm.trans found
  · rwa [Function.update_of_ne new] at found

theorem Effect.calm {v w : View} {now : Int} {order : Order} {op : Op}
    (effect : Effect v now order op w) (grounded : GroundedView v)
    (flow : ∀ sc message, op ≠ .flowInfo sc message)
    (report : ∀ sc message, op ≠ .newStation sc message) : Calm v w := by
  -- only reports of new stations and of traffic are not calm
  cases effect with
  | upkeep moves => exact calm_losses (losses_upkeeps moves grounded)
  | accept => exact calm_of_stations rfl
  | heard sc a registered => exact calm_of_stations rfl
  | close sc => exact calm_losses (losses_closeSocket v order sc grounded)
  | displace sc message mac after taken =>
      exact calm_losses (losses_closeFormer v order sc mac grounded)
  | register sc message mac after taken opened =>
      refine (calm_losses (losses_closeFormer v order sc mac grounded)).trans (calm_of_stations ?_)
      unfold registerAgent
      dsimp only
      split
      · rfl
      · rfl
  | create sc a message mac ssid fields unknown moves => exact absurd rfl (report sc message)
  | admitted sc a s message mac ssid fields known admission moves =>
      exact absurd rfl (report sc message)
  | leave sc a s c message mac ssid registered known stored left =>
      exact calm_losses (losses_leaveVap v now s c)
  | flow sc s a message up down fields => exact absurd rfl (flow sc message)
  | probe sc message info taken unknown same =>
      exact (calm_probeStation v info.staMacAddr unknown).trans (calm_alike same)
  | inform sc a message mode totStaSize channel curPos registered taken =>
      exact calm_of_stations rfl
  | acknowledge sc a s c message mac ssid same registered known stored listed done =>
      exact (calm_alike same).trans (calm_losses (losses_acknowledgement done))
  | add isRoam message s adds accepted same =>
      refine Calm.trans ?_ (calm_alike same)
      have added : (agentAddVap (setLastProbeHeard (newVapContainer v s message.agent message.ssid)
          v.nextVap now)
        message.agent v.nextVap).stations = v.stations := stations_agentAddVap _ _ _
      refine (calm_of_stations added).trans ?_
      unfold createVap stationAddVap
      exact calm_updStation _ s _ fun _ found => found
  | age moves => exact calm_losses (losses_ages moves grounded)

/-- A report that switches the agent of a station on line finds the counters at zero, or a
container of a different agent. -/
def Folds (log : Log) (event : Event) : Prop :=
  match event.op with
  | .newStation sc message =>
      ∀ a mac ssid s, newReport log.view event.order sc message = some (a, mac, ssid) →
      log.view.stationMap.lookup mac = some s → (log.view.stations s).status = .onLine →
      SwitchesOn log.view s a ssid →
      (current (log.view.stations s) = fun _ => 0) ∨
        ∃ c, stationVap log.view s a ssid = some c ∧
          workingAgent log.view s ≠ some (log.view.vaps c).agent
  | _ => True

/-- The counters of every station on line are the last ones of its session. -/
structure Tallied (log : Log) : Prop where
  grounded : GroundedView log.view
  live : ∀ s report, live (log.view.stations s) = some report → report = last (log.sessions s)

theorem Tallied.calm {log : Log} {w : View} (tallied : Tallied log) (grounded : GroundedView w)
    (calm : Calm log.view w) : Tallied ⟨w, log.sessions⟩ :=
  ⟨grounded, fun s report found => tallied.live s report (calm s report found)⟩

theorem live_on {station : Station} (on : station.status = .onLine) :
    live station = some (current station) := by
  simp [live, on]

theorem counters_zero : counters 0 0 = fun _ => 0 := by
  funext direction
  cases direction with
  | up => rfl
  | down => rfl

theorem resumeVap_stations (v : View) (now : Int) (s c t : Ref) (other : t ≠ s) :
    (resumeVap v now s c).stations t = v.stations t := by
  simp [resumeVap, setStationStatus, updateSumTraffic, bringOnline, setWorking, setLastProbeHeard,
    mirror, updStation, updVap, other]

theorem resumeVap_live (v : View) (now : Int) (s c : Ref) :
    live ((resumeVap v now s c).stations s) = some fun _ => 0 := by
  rw [live_on]
  · simp [resumeVap, setStationStatus, updateSumTraffic, mirror, updStation, current, counters_zero]
  · simp [resumeVap, setStationStatus, mirror, updStation]

theorem resumeVap_agent (v : View) (now : Int) (s c : Ref) :
    workingAgent (resumeVap v now s c) s = some (v.vaps c).agent := by
  have bound := bindings_resumeVap v now s c
  have working : ((resumeVap v now s c).stations s).workingVapContainer = some c := by
    change (bindings (resumeVap v now s c)).working s = some c
    rw [bound]
    exact Function.update_self _ _ _
  have agent : ((resumeVap v now s c).vaps c).agent = (v.vaps c).agent := by
    change (bindings (resumeVap v now s c)).vapAgent c = (v.vaps c).agent
    rw [bound]
    rfl
  rw [workingAgent, working, Option.map_some, agent]

theorem joinVap_live (v : View) (now : Int) (s a : Ref) (ssid : Text) (t : Ref) :
    live ((joinVap v now s a ssid).stations t) = live (v.stations t) := by
  by_cases same : t = s
  · subst same
    simp [joinVap, setWorking, stationAddVap, setLastProbeHeard, updStation, updVap,
      newVapContainer, live, current]
  · simp [joinVap, setWorking, stationAddVap, setLastProbeHeard, updStation, updVap,
      newVapContainer, same]

theorem adoptVap_live (v : View) (now : Int) (s c t : Ref) :
    live ((adoptVap v now s c).stations t) = live (v.stations t) := by
  by_cases same : t = s
  · subst same
    simp [adoptVap, setWorking, stationAddVap, setLastProbeHeard, updStation, updVap, live, current]
  · simp [adoptVap, setWorking, stationAddVap, setLastProbeHeard, updStation, updVap, same]

theorem createStation_live (v : View) (now : Int) (a : Ref) (mac ssid : Text) (t : Ref) :
    live ((createStation v now a mac ssid).stations t) =
      if t = v.nextStation then some fun _ => 0 else live (v.stations t) := by
  by_cases same : t = v.nextStation
  · subst same
    simp [createStation, addStation, bringOnline, setWorking, stationAddVap, setLastProbeHeard,
      updStation, updVap, newVapContainer, mirror, live, current, counters_zero]
  · simp [createStation, addStation, bringOnline, setWorking, stationAddVap, setLastProbeHeard,
      updStation, updVap, newVapContainer, mirror, same]

theorem live_status {station : Station} {report : Direction → Int64}
    (found : live station = some report) :
    station.status = .onLine ∧ report = current station := by
  unfold live at found
  split at found
  · rename_i on
    exact ⟨on, (Option.some.inj found).symm⟩
  · cases found

def begun (log : Log) (w : View) (s : Ref) : Ref → List (Direction → Int64) :=
  if Begins log.view w s then Function.update log.sessions s ((fun _ => 0) :: log.sessions s)
    else log.sessions

theorem begun_other (log : Log) (w : View) (s t : Ref) (other : t ≠ s) :
    begun log w s t = log.sessions t := by
  unfold begun
  split
  · exact Function.update_of_ne other _ _
  · rfl

theorem begun_last (log : Log) (w : View) (s : Ref)
    (zero : ¬ Begins log.view w s → last (log.sessions s) = fun _ => 0) :
    last (begun log w s s) = fun _ => 0 := by
  unfold begun
  split
  · rw [Function.update_self]
    rfl
  · rename_i goes
    exact zero goes

theorem workingAgent_alike {v w : View} (same : Alike v w) (s : Ref) :
    workingAgent w s = workingAgent v s :=
  same.read fun x => workingAgent x s

theorem status_alike {v w : View} (same : Alike v w) (s : Ref) :
    (w.stations s).status = (v.stations s).status :=
  same.read fun x => (x.stations s).status

theorem admission_live {log : Log} {u : View} {now : Int} {s a : Ref} {ssid : Text}
    (tallied : Tallied log) (admission : Admission log.view now s a ssid u)
    (fits : (log.view.stations s).status = .onLine → SwitchesOn log.view s a ssid →
      (current (log.view.stations s) = fun _ => 0) ∨
        ∃ c, stationVap log.view s a ssid = some c ∧
          workingAgent log.view s ≠ some (log.view.vaps c).agent) :
    ∀ t report, live (u.stations t) = some report → report = last (begun log u s t) := by
  -- where the counters go on, the station was off line or had counted nothing
  have goes (w : View) (absent : stationVap log.view s a ssid = none)
      (switches : SwitchesOn log.view s a ssid)
      (report : Direction → Int64) (found : live (log.view.stations s) = some report) :
      report = last (begun log w s s) := by
    obtain ⟨on, rfl⟩ := live_status found
    rcases fits on switches with zero | ⟨c, stored, -⟩
    · rw [begun_last log w s fun _ => (tallied.live s _ found).symm.trans zero]
      exact zero
    · cases absent.symm.trans stored
  intro t report found
  by_cases here : t = s
  · subst here
    cases admission with
    | unchanged same =>
        have goesOn : ¬ Begins log.view u t := by
          unfold Begins
          rw [workingAgent_alike same, status_alike same]
          rintro (⟨-, other⟩ | ⟨off, on⟩)
          · exact other rfl
          · exact absurd (off.symm.trans on) (by simp)
        rw [begun, if_neg goesOn]
        exact tallied.live t report (calm_alike same t report found)
    | @resume x c same stored switches =>
        rw [resumeVap_live] at found
        cases found
        refine (begun_last log _ t fun goesOn => ?_).symm
        have agent : workingAgent (resumeVap x now t c) t = some (log.view.vaps c).agent := by
          rw [resumeVap_agent]
          exact congrArg some (same.read fun y => (y.vaps c).agent)
        have working : workingAgent log.view t = some (log.view.vaps c).agent := by
          by_contra other
          exact goesOn (.inl ⟨by simp [agent], by rw [agent]; exact fun hit => other hit.symm⟩)
        have on : (log.view.stations t).status = .onLine := by
          cases status : (log.view.stations t).status with
          | onLine => rfl
          | offLine =>
              exact absurd (.inr ⟨status, (live_status (resumeVap_live x now t c)).1⟩) goesOn
        rcases fits on switches with zero | ⟨d, stored', other⟩
        · exact (tallied.live t _ (live_on on)).symm.trans zero
        · cases stored.symm.trans stored'
          exact absurd working other
    | @join x same absent switches free =>
        rw [joinVap_live] at found
        exact goes _ absent switches report (calm_alike same t report found)
    | adopt c absent unlinked held =>
        rw [adoptVap_live] at found
        exact goes _ absent (by simp [SwitchesOn, unlinked, absent]) report found
    | @stray x same linked absent off =>
        rw [resumeVap_live] at found
        cases found
        refine (begun_last log _ t fun goesOn => ?_).symm
        exact absurd (.inr ⟨off, (live_status (resumeVap_live x now t log.view.nextVap)).1⟩) goesOn
  · rw [begun_other log u s t here]
    refine tallied.live t report ?_
    cases admission with
    | unchanged same => exact calm_alike same t report found
    | resume c same stored switches =>
        rw [resumeVap_stations _ now s c t here] at found
        exact calm_alike same t report found
    | join same absent switches free =>
        rw [joinVap_live] at found
        exact calm_alike same t report found
    | adopt c absent unlinked held => rwa [adoptVap_live] at found
    | stray same linked absent off =>
        rw [resumeVap_stations _ now s _ t here] at found
        exact calm_alike same t report found

theorem newStation_tallied (log : Log) (now : Int) (order : Order) (sc : Ref) (message : Text)
    (fits : Folds log ⟨.newStation sc message, now, order⟩) (tallied : Tallied log) :
    Tallied (follow log ⟨.newStation sc message, now, order⟩) := by
  have grounded := next_grounded log.view ⟨.newStation sc message, now, order⟩ tallied.grounded
  refine ⟨grounded, ?_⟩
  cases report : newReport log.view order sc message with
  | none =>
      have result : follow log ⟨.newStation sc message, now, order⟩ = log := by
        simp [follow, opened, next, step, processMsgNewStation_eq, report]
      rw [result]
      exact tallied.live
  | some fields =>
      obtain ⟨a, mac, ssid⟩ := fields
      have agent := registered_lt tallied.grounded (newReport_registered log.view order report)
      have rest := processMsgNewStation_upkeep log.view now order sc message report
      cases known : log.view.stationMap.lookup mac with
      | none =>
          have created := admitStation_unknown log.view now a mac ssid known
          have ground := createStation_grounded log.view now a mac ssid tallied.grounded agent known
          have calm := (calm_alike created).trans
            (calm_losses (losses_upkeeps (rest (created.grounded ground))
              (created.grounded ground)))
          have sessions : (follow log ⟨.newStation sc message, now, order⟩).sessions =
              Function.update log.sessions log.view.nextStation
                ((fun _ => 0) :: log.sessions log.view.nextStation) := by
            simp [follow, opened, report, known, admitStation]
          rw [sessions]
          intro t counted found
          have before := calm t counted found
          rw [createStation_live] at before
          by_cases new : t = log.view.nextStation
          · subst new
            rw [if_pos rfl] at before
            cases before
            rw [Function.update_self]
            rfl
          · rw [if_neg new] at before
            rw [Function.update_of_ne new]
            exact tallied.live t counted before
      | some s =>
          obtain ⟨u, admission, same⟩ :=
            admitStation_known log.view now s a mac ssid tallied.grounded known
          have named : (log.view.stations s).macAddress = mac :=
            (tallied.grounded.tracked mac s known).2
          have ground := Admission.grounded admission tallied.grounded agent
              (by subst named; exact known)
          have calm := (calm_alike same).trans
            (calm_losses (losses_upkeeps (rest (same.grounded ground)) (same.grounded ground)))
          have station := admitStation_station log.view now a mac ssid known
          -- the session is judged by the view the admission leaves
          have begins : Begins log.view (admitStation log.view now a mac ssid).1.1 s ↔
              Begins log.view u s := by
            unfold Begins
            rw [workingAgent_alike same, status_alike same]
          have sessions : (follow log ⟨.newStation sc message, now, order⟩).sessions =
              begun log u s := by
            simp only [follow, opened, report, known, station, begins, reduceCtorEq, false_or,
              begun]
            split
            · rename_i missing
              split at missing
              · cases missing
              · rename_i goesOn
                rw [if_neg goesOn]
            · rename_i t found
              split at found
              · rename_i starts
                cases found
                rw [if_pos starts]
              · cases found
          rw [sessions]
          intro t counted found
          exact admission_live tallied admission (fits a mac ssid s report known) t counted
            (calm t counted found)

theorem countTraffic_live (v : View) (a s : Ref) (up down : Int64) (t : Ref)
    (report : Direction → Int64)
    (found : live ((countTraffic v a s up down).stations t) = some report) :
    if t = s then report = counters up down else live (v.stations t) = some report := by
  by_cases same : t = s
  · subst same
    rw [if_pos rfl]
    obtain ⟨-, rfl⟩ := live_status found
    simp [countTraffic, setUpTraffic, setDownTraffic, mirror, updStation, current]
  · rw [if_neg same]
    unfold countTraffic at found
    dsimp only at found
    split at found
    · simpa [setUpTraffic, setDownTraffic, updateSumTraffic, addSumTraffic, mirror, updStation,
        updAgent, same]
        using found
    · simpa [setUpTraffic, setDownTraffic, addSumTraffic, mirror, updStation, updAgent, same]
        using found

theorem flowReport_online {v : View} {sc s a : Ref} {message : Text} {up down : Int64}
    (report : flowReport v sc message = some (s, a, up, down)) :
    (v.stations s).status = .onLine := by
  unfold flowReport at report
  simp only [Option.bind_eq_bind, Option.bind_eq_some_iff] at report
  obtain ⟨taken, -, b, -, t, -, c, -, up', -, down', -, fits⟩ := report
  split at fits
  · rename_i accepted
    cases fits
    exact accepted.1
  · cases fits

theorem Tallied.matches {log : Log} {event : Event} (tallied : Tallied log)
    (rises : Rises log event) :
    Matches log event := by
  obtain ⟨op, now, order⟩ := event
  cases op with
  | flowInfo sc message =>
      intro s a up down report
      have held := tallied.live s _ (live_on (flowReport_online report))
      have upper := rises s a up down report .up
      have lower := rises s a up down report .down
      rw [← held] at upper lower
      have goesOn : ¬ Restarted log.view s up down := by
        rintro (smaller | smaller)
        · exact absurd smaller (Int64.not_lt.mpr upper)
        · exact absurd smaller (Int64.not_lt.mpr lower)
      rw [if_neg goesOn]
      exact held
  | _ => trivial

theorem follow_tallied (log : Log) (event : Event) (fits : Folds log event)
    (tallied : Tallied log) :
    Tallied (follow log event) := by
  obtain ⟨op, now, order⟩ := event
  have grounded := next_grounded log.view ⟨op, now, order⟩ tallied.grounded
  by_cases admits : ∃ sc message, op = .newStation sc message
  · obtain ⟨sc, message, rfl⟩ := admits
    exact newStation_tallied log now order sc message fits tallied
  · have report (sc : Ref) (message : Text) : op ≠ .newStation sc message := fun same =>
        admits ⟨sc, message, same⟩
    by_cases flow : ∃ sc message, op = .flowInfo sc message
    · obtain ⟨sc, message, rfl⟩ := flow
      refine ⟨grounded, ?_⟩
      cases counted : flowReport log.view sc message with
      | none =>
          have result : follow log ⟨.flowInfo sc message, now, order⟩ = log := by
            simp [follow, next, step, processMsgFlowInfo_eq, counted]
          rw [result]
          exact tallied.live
      | some fields =>
          obtain ⟨s, a, up, down⟩ := fields
          have result : follow log ⟨.flowInfo sc message, now, order⟩ =
              ⟨countTraffic log.view a s up down,
              Function.update log.sessions s (counters up down :: (log.sessions s).tail)⟩ := by
            simp [follow, next, step, processMsgFlowInfo_eq, counted]
          rw [result]
          intro t held found
          have before := countTraffic_live log.view a s up down t held found
          dsimp only
          by_cases same : t = s
          · subst same
            rw [if_pos rfl] at before
            rw [Function.update_self, before]
            rfl
          · rw [if_neg same] at before
            rw [Function.update_of_ne same]
            exact tallied.live t held before
    · have other (sc : Ref) (message : Text) : op ≠ .flowInfo sc message := fun same =>
          flow ⟨sc, message, same⟩
      have calm := Effect.calm (step_effect log.view now order op tallied.grounded) tallied.grounded
          other report
      have sessions : (follow log ⟨op, now, order⟩).sessions = log.sessions := by
        unfold follow
        dsimp only
        split
        · rename_i sc message
          exact absurd rfl (report sc message)
        · rename_i sc message
          exact absurd rfl (other sc message)
        · rfl
      refine ⟨grounded, ?_⟩
      rw [sessions]
      exact (tallied.calm grounded calm).live

theorem conserved_empty : Conserved Log.empty where
  grounded := grounded_empty
  blank := balanced_empty.blank
  station := (funext fun _ => stationTotal_new [] .offLine).symm

theorem tallied_empty : Tallied Log.empty where
  grounded := grounded_empty
  live := fun _ _ found => absurd (found.symm.trans (live_off rfl)) (by simp)

/-- In every run whose flow reports match, what a station has counted is the sum over its sessions
of the last counters accepted in each. Reports match where the counters rise within each session
and a station that changes its agent while on line has its counters folded. -/
theorem session_traffic_conserved (log : Log) :
    (Reaches follow Matches Log.empty log → ∀ s,
      summed (log.sessions s) .up = (log.view.stations s).sumUpTraffic +
        (log.view.stations s).upTraffic ∧
      summed (log.sessions s) .down = (log.view.stations s).sumDownTraffic +
        (log.view.stations s).downTraffic) ∧
    (Reaches follow (fun log event => Rises log event ∧ Folds log event) Log.empty log →
      Reaches follow Matches Log.empty log) := by
  constructor
  · intro reached s
    have conserved := reached.invariant Conserved conserved_empty follow_conserved
    have here := congrFun conserved.station s
    exact ⟨congrFun here .up, congrFun here .down⟩
  · intro reached
    have both : Tallied log ∧ Reaches follow Matches Log.empty log := by
      induction reached with
      | start => exact ⟨tallied_empty, .start⟩
      | step event before fits ih =>
          exact ⟨follow_tallied _ event fits.2 ih.1, .step event ih.2 (ih.1.matches fits.1)⟩
    exact both.2

def flowMessage (counter : Int) : Text :=
  "000510605012".toList ++ staMac ++ "16".toList ++ zeroPad 16 counter ++ "16".toList ++
    zeroPad 16 counter

def traffic (sc : Ref) (counter now : Int) : Event :=
  ⟨.flowInfo sc (flowMessage counter), now, .stored⟩

def firstSession : List Event :=
  hello 0 apMac ++ [join 0 apMac 400, traffic 0 100 500] ++ hello 1 otherMac

def handover : List Event :=
  firstSession ++
    [⟨.addVap true { msgType := .addVapRoam, staMacAddr := staMac, ssid := "w".toList, mode := none,
                     agent := 1 },
      600, .stored⟩, join 1 otherMac 700, traffic 1 150 800]

theorem handover_allowed :
    Allowed follow (fun log event => Rises log event ∧ Folds log event) Log.empty handover := by
  refine ⟨⟨trivial, trivial⟩, ⟨trivial, trivial⟩, ⟨trivial, trivial⟩, ⟨trivial, ?_⟩, ⟨?_, trivial⟩,
    ⟨trivial, trivial⟩, ⟨trivial, trivial⟩, ⟨trivial, trivial⟩, ⟨trivial, trivial⟩, ⟨trivial, ?_⟩,
      ⟨?_, trivial⟩,
    trivial⟩
  · intro a mac ssid s report known
    have fields : newReport (run follow Log.empty (handover.take 3)).view .stored 0
        (joinReport apMac) =
        some (0, staMac, "w".toList) := by decide +kernel
    cases fields.symm.trans report
    have unknown : (run follow Log.empty (handover.take 3)).view.stationMap.lookup staMac =
        none := by
      decide +kernel
    exact absurd (unknown.symm.trans known) (by simp)
  · intro s a up down report
    have fields : flowReport (run follow Log.empty (handover.take 4)).view 0 (flowMessage 100) =
        some (0, 0, 100, 100) := by decide +kernel
    cases fields.symm.trans report
    intro direction
    cases direction with
    | up => decide +kernel
    | down => decide +kernel
  · intro a mac ssid s report known on switches
    have fields : newReport (run follow Log.empty (handover.take 9)).view .stored 1
        (joinReport otherMac) =
        some (1, staMac, "w".toList) := by decide +kernel
    cases fields.symm.trans report
    have tracked : (run follow Log.empty (handover.take 9)).view.stationMap.lookup staMac =
        some 0 := by
      decide +kernel
    cases tracked.symm.trans known
    exact .inr ⟨1, by decide +kernel, by decide +kernel⟩
  · intro s a up down report
    have fields : flowReport (run follow Log.empty (handover.take 10)).view 1 (flowMessage 150) =
        some (0, 1, 150, 150) := by decide +kernel
    cases fields.symm.trans report
    intro direction
    cases direction with
    | up => decide +kernel
    | down => decide +kernel

theorem handover_conserved :
    let log := run follow Log.empty handover
    summed (log.sessions 0) .up = 250 ∧
      summed (log.sessions 0) .up = (log.view.stations 0).sumUpTraffic +
        (log.view.stations 0).upTraffic ∧
      summed (log.sessions 0) .down = (log.view.stations 0).sumDownTraffic +
          (log.view.stations 0).downTraffic := by
  have reached := (session_traffic_conserved _).2 (Reaches.append _ .start handover_allowed)
  exact ⟨by decide +kernel, (session_traffic_conserved _).1 reached 0⟩

/-- A station that moves to an AP where it has no container: its second session is counted from
the counters of the first. -/
theorem unfolded_session_lost :
    ¬ ∀ events, Allowed follow Rises Log.empty events → ∀ s,
      summed ((run follow Log.empty events).sessions s) .up =
        ((run follow Log.empty events).view.stations s).sumUpTraffic +
          ((run follow Log.empty events).view.stations s).upTraffic := by
  intro all
  let events := firstSession ++ [join 1 otherMac 700, traffic 1 150 800]
  have rises : Allowed follow Rises Log.empty events := by
    refine ⟨trivial, trivial, trivial, trivial, ?_, trivial, trivial, trivial, trivial, ?_, trivial⟩
    · intro s a up down report
      have fields : flowReport (run follow Log.empty (events.take 4)).view 0 (flowMessage 100) =
          some (0, 0, 100, 100) := by decide +kernel
      cases fields.symm.trans report
      intro direction
      cases direction with
      | up => decide +kernel
      | down => decide +kernel
    · intro s a up down report
      have fields : flowReport (run follow Log.empty (events.take 9)).view 1 (flowMessage 150) =
          some (0, 1, 150, 150) := by decide +kernel
      cases fields.symm.trans report
      intro direction
      cases direction with
      | up => decide +kernel
      | down => decide +kernel
  have same := all events rises 0
  have sessions : summed ((run follow Log.empty events).sessions 0) .up = 250 := by decide +kernel
  have total : ((run follow Log.empty events).view.stations 0).sumUpTraffic +
      ((run follow Log.empty events).view.stations 0).upTraffic = 150 := by decide +kernel
  rw [sessions, total] at same
  exact absurd same (by decide)

end LazyAS.TrafficSessions

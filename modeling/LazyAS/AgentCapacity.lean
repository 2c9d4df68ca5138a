import LazyAS.StepEffects

/-! How many containers an agent has. The AP reports its capacity, the applications ask for the
idle count before they add a container, and this count is taken from 32. No command is refused
for the capacity, so it is kept only where every command that is executed finds room. -/
namespace LazyAS.AgentCapacity
open WireText ControllerView Master VapBindings BindingLaws ViewGrowth StationCoherence
  ViewGround ViewMoves
  StepEffects Runs

def size (v : View) (a : Ref) : Nat := (v.agents a).vapContainerSet.values.length

def Spares (v w : View) : Prop :=
  ∀ a, (w.agents a).statCountSum = (v.agents a).statCountSum ∧ size w a ≤ size v a

theorem Spares.refl (v : View) : Spares v v := fun _ => ⟨rfl, Nat.le_refl _⟩

theorem Spares.trans {v w x : View} (first : Spares v w) (second : Spares w x) : Spares v x :=
  fun a => ⟨(second a).1.trans (first a).1, Nat.le_trans (second a).2 (first a).2⟩

theorem spares_of_agents {v w : View} (same : w.agents = v.agents) : Spares v w := by
  intro a
  unfold size
  rw [same]
  exact ⟨rfl, Nat.le_refl _⟩

theorem spares_alike {v w : View} (same : Alike v w) : Spares v w := fun a =>
  ⟨same.read fun x => (x.agents a).statCountSum, Nat.le_of_eq (same.read fun x => size x a)⟩

theorem spares_updAgent (v : View) (a : Ref) (change : Agent → Agent)
    (sum : (change (v.agents a)).statCountSum = (v.agents a).statCountSum)
    (held : (change (v.agents a)).vapContainerSet.values.length ≤ size v a) :
    Spares v (updAgent v a change) := by
  intro b
  by_cases same : b = a
  · subst same
    simpa [updAgent, size] using ⟨sum, held⟩
  · simp [updAgent, size, same]

theorem erase_length (table : Table) (key : Text) :
    (Table.values (table.erase key)).length ≤ table.values.length := by
  simp only [Table.values, List.length_map]
  exact (List.kerase_sublist key table.entries).length_le

theorem insert_length (table : Table) (key : Text) (c : Ref) (absent : key ∉ table) :
    (Table.values (table.insert key c)).length = table.values.length + 1 := by
  simp only [Table.values, List.length_map]
  rw [AList.entries_insert_of_notMem absent, List.length_cons]

section Assignments

variable (v : View)

theorem spares_setVapStatus (c : Ref) (status : Status) : Spares v (setVapStatus v c status) := by
  have counted (count : Int → Int) : Spares v (updAgent v (v.vaps c).agent fun agent =>
      { agent with staCountOnline := count agent.staCountOnline }) :=
    spares_updAgent v (v.vaps c).agent _ rfl (Nat.le_refl _)
  cases before : (v.vaps c).status <;> cases status <;> simp only [setVapStatus, before]
  · exact spares_of_agents rfl
  · exact counted (· - 1)
  · exact counted (· + 1)
  · exact spares_of_agents rfl

theorem spares_agentRemoveVap (a c : Ref) : Spares v (agentRemoveVap v a c) := by
  unfold agentRemoveVap
  split
  · exact spares_updAgent v a _ rfl (erase_length _ _)
  · exact .refl v

theorem spares_resumeVap (now : Int) (s c : Ref) : Spares v (resumeVap v now s c) :=
  (spares_setVapStatus v c .onLine).trans (spares_of_agents rfl)

theorem spares_countTraffic (a s : Ref) (up down : Int64) :
    Spares v (countTraffic v a s up down) := by
  have added (up' down' : Int64) : Spares v (addSumTraffic v a up' down') :=
    spares_updAgent v a _ rfl (Nat.le_refl _)
  unfold countTraffic
  dsimp only
  refine Spares.trans ?_ (spares_of_agents rfl)
  split
  · exact (added up down).trans (spares_of_agents rfl)
  · exact added _ _

end Assignments

theorem spares_losses {v w : View} (moves : Losses v w) : Spares v w := by
  refine moves.rule Spares .refl (fun _ _ _ first second => first.trans second) ?_
  intro x y move
  cases move with
  | alike same => exact spares_alike same
  | release a c => exact spares_agentRemoveVap x a c
  | drop s c => exact spares_of_agents rfl
  | off s => exact spares_of_agents rfl
  | idle s => exact spares_of_agents rfl
  | fold s off => exact spares_of_agents rfl
  | vapOff c => exact spares_setVapStatus x c .offLine
  | shut sc a =>
      exact spares_updAgent x a (fun agent => { agent with lastHeard := 0, sc := none }) rfl
        (Nat.le_refl _)
  | closed sc => exact spares_of_agents rfl
  | untrack mac => exact spares_of_agents rfl

theorem agentAddVap_size (v : View) (a c : Ref) (free : vapKey v c ∉ (v.agents a).vapContainerSet)
    (b : Ref) :
    ((agentAddVap v a c).agents b).statCountSum = (v.agents b).statCountSum ∧
    size (agentAddVap v a c) b = if b = a then size v b + 1 else size v b := by
  rw [agentAddVap, if_neg free]
  by_cases same : b = a
  · subst same
    simpa [updAgent, size] using insert_length _ _ c free
  · simp [updAgent, size, same]

theorem createVap_size (v : View) (now : Int) (order : Order) (isRoam : Bool)
    (message : StationCtrlMessage) (s : Ref) (accepted : Accepted v now order isRoam message s)
    (a : Ref) :
    ((createVap v now s message.agent message.ssid).agents a).statCountSum =
      (v.agents a).statCountSum ∧
    size (createVap v now s message.agent message.ssid) a =
      if a = message.agent then size v a + 1 else size v a := by
  let created := setLastProbeHeard (newVapContainer v s message.agent message.ssid) v.nextVap now
  exact agentAddVap_size created message.agent v.nextVap accepted.free a

/-- Every add command that is executed finds room, and no AP reports less than it has. A NEW_STA
report finds the container it is about. -/
def FindsRoom (v : View) (event : Event) : Prop :=
  match event.op with
  | .newStation sc message =>
      ∀ a mac ssid, newReport v event.order sc message = some (a, mac, ssid) →
      ∃ s c, v.stationMap.lookup mac = some s ∧ stationVap v s a ssid = some c
  | .interfaceNum sc message => ∀ a totStaSize channel mode curPos, v.sc2AgentMap sc = some a →
      takeInterface message = some (totStaSize, channel, mode, curPos) →
        (size v a : Int) ≤ totStaSize
  | .addVap isRoam message => ∀ s, Accepted v event.now event.order isRoam message s →
      (size v message.agent : Int) < (v.agents message.agent).statCountSum
  | .cmd key => ∀ appCmd s, v.cmdQueue.lookup key = some appCmd →
      Accepted v event.now event.order false appCmd.message s →
      (size v appCmd.message.agent : Int) < (v.agents appCmd.message.agent).statCountSum
  | _ => True

structure Roomy (v : View) : Prop where
  grounded : GroundedView v
  fits : ∀ a, (size v a : Int) ≤ (v.agents a).statCountSum

theorem Spares.fits {v w : View} (spares : Spares v w)
    (fits : ∀ a, (size v a : Int) ≤ (v.agents a).statCountSum) (a : Ref) :
    (size w a : Int) ≤ (w.agents a).statCountSum := by
  rw [(spares a).1]
  exact Int.le_trans (Int.ofNat_le.mpr (spares a).2) (fits a)

theorem registerAgent_agents (v : View) (now : Int) (sc : Ref) (mac : Text) :
    (registerAgent v now sc mac).agents =
      Function.update v.agents v.nextAgent
        { macAddress := mac, sc := some sc, lastHeard := now } := by
  unfold registerAgent
  dsimp only
  split
  · rfl
  · rfl

theorem registerAgent_fits (v : View) (now : Int) (sc : Ref) (mac : Text)
    (fits : ∀ a, (size v a : Int) ≤ (v.agents a).statCountSum) (a : Ref) :
    (size (registerAgent v now sc mac) a : Int) ≤
      ((registerAgent v now sc mac).agents a).statCountSum := by
  unfold size
  rw [registerAgent_agents]
  by_cases new : a = v.nextAgent
  · subst new
    rw [Function.update_self]
    exact show (0 : Int) ≤ 32 by decide
  · rw [Function.update_of_ne new]
    exact fits a

theorem informAgent_fits (v : View) (a : Ref) (totStaSize channel : Int) (mode message : Text)
    (curPos : Int) (fits : ∀ b, (size v b : Int) ≤ (v.agents b).statCountSum)
    (room : (size v a : Int) ≤ totStaSize) (b : Ref) :
    (size (informAgent v a totStaSize channel mode message curPos) b : Int) ≤
      ((informAgent v a totStaSize channel mode message curPos).agents b).statCountSum := by
  by_cases same : b = a
  · subst same
    simpa [informAgent, mirror, updAgent, size] using room
  · simpa [informAgent, mirror, updAgent, size, same] using fits b

theorem createVap_fits (v : View) (now : Int) (order : Order) (isRoam : Bool)
    (message : StationCtrlMessage) (s : Ref) (accepted : Accepted v now order isRoam message s)
    (fits : ∀ a, (size v a : Int) ≤ (v.agents a).statCountSum)
    (room : (size v message.agent : Int) < (v.agents message.agent).statCountSum) (a : Ref) :
    (size (createVap v now s message.agent message.ssid) a : Int) ≤
      ((createVap v now s message.agent message.ssid).agents a).statCountSum := by
  obtain ⟨sum, length⟩ := createVap_size v now order isRoam message s accepted a
  rw [sum, length]
  by_cases same : a = message.agent
  · subst same
    rw [if_pos rfl]
    exact_mod_cast room
  · rw [if_neg same]
    exact fits a

theorem spares_admission {v w : View} {now : Int} {s a : Ref} {ssid : Text} {c : Ref}
    (admission : Admission v now s a ssid w) (stored : stationVap v s a ssid = some c) :
    Spares v w := by
  cases admission with
  | unchanged same => exact spares_alike same
  | resume d same found switches => exact (spares_alike same).trans (spares_resumeVap _ now s d)
  | join same absent switches free => cases stored.symm.trans absent
  | adopt d absent unlinked held => cases stored.symm.trans absent
  | stray same linked absent off => cases stored.symm.trans absent

theorem next_roomy (v : View) (event : Event) (room : FindsRoom v event) (roomy : Roomy v) :
    Roomy (next v event) := by
  obtain ⟨op, now, order⟩ := event
  refine ⟨next_grounded v ⟨op, now, order⟩ roomy.grounded, ?_⟩
  have grounded := roomy.grounded
  have lost {u : View} (moves : Losses v u) : ∀ a, (size u a : Int) ≤ (u.agents a).statCountSum :=
    (spares_losses moves).fits roomy.fits
  have effect := step_effect v now order op grounded
  change ∀ a, (size (step v now order op) a : Int) ≤ ((step v now order op).agents a).statCountSum
  generalize step v now order op = w at effect
  cases effect with
  | upkeep moves => exact lost (losses_upkeeps moves grounded)
  | accept => exact roomy.fits
  | heard sc a registered => exact (spares_updAgent v a _ rfl (Nat.le_refl _)).fits roomy.fits
  | close sc => exact lost (losses_closeSocket v order sc grounded)
  | displace sc message mac after taken => exact lost (losses_closeFormer v order sc mac grounded)
  | register sc message mac after taken opened =>
      exact registerAgent_fits _ now sc mac (lost (losses_closeFormer v order sc mac grounded))
  | create sc a message mac ssid report unknown moves =>
      obtain ⟨s, c, known, -⟩ := room a mac ssid report
      cases unknown.symm.trans known
  | admitted sc a s message mac ssid report known admission moves =>
      obtain ⟨t, c, known', stored⟩ := room a mac ssid report
      cases known.symm.trans known'
      have agent := registered_lt grounded (newReport_registered v order report)
      have named : (v.stations s).macAddress = mac := (grounded.tracked mac s known).2
      subst named
      have ground := Admission.grounded admission grounded agent known
      exact ((spares_admission admission stored).trans
        (spares_losses (losses_upkeeps moves ground))).fits roomy.fits
  | leave sc a s c message mac ssid registered known stored left =>
      exact lost (losses_leaveVap v now s c)
  | flow sc s a message up down report => exact (spares_countTraffic v a s up down).fits roomy.fits
  | probe sc message info taken unknown same =>
      have seen : Spares v (probeStation v info.staMacAddr).1 := by
        refine spares_of_agents ?_
        simp only [probeStation, unknown]
        rfl
      exact (seen.trans (spares_alike same)).fits roomy.fits
  | inform sc a message mode totStaSize channel curPos registered taken =>
      exact informAgent_fits v a totStaSize channel mode message curPos roomy.fits
        (room a totStaSize channel mode curPos registered taken)
  | acknowledge sc a s c message mac ssid same registered known stored listed done =>
      exact lost ((Losses.of_alike same).trans (losses_acknowledgement done))
  | add isRoam message s adds accepted same =>
      have free : (size v message.agent : Int) < (v.agents message.agent).statCountSum := by
        cases adds with
        | direct => exact room s accepted
        | queued key appCmd waiting => exact room appCmd s waiting accepted
      exact (spares_alike same).fits
        (createVap_fits v now order isRoam message s accepted roomy.fits free)
  | age moves => exact lost (losses_ages moves grounded)

/-- In every run whose add commands find room, no agent has more containers than the capacity its
AP reported. -/
theorem capacity_respected (v : View) (reached : Reaches next FindsRoom View.empty v) (a : Ref) :
    ((v.agents a).vapContainerSet.values.length : Int) ≤ (v.agents a).statCountSum := by
  have start : Roomy View.empty := ⟨grounded_empty, fun _ => show (0 : Int) ≤ 32 by decide⟩
  exact (reached.invariant Roomy start next_roomy).fits a

def ChecksIdle (v : View) (event : Event) : Prop :=
  match event.op with
  | .newStation _ _ => False
  | .queueVap a _ _ _ => 0 < getVapContainerIdle v a
  | _ => True

def secondMac : Text := "0022446688bb".toList

/-- An AP with room for some containers and two stations that it has heard. -/
def probed (capacity : Text) : List Event :=
  [⟨.accept, 0, .stored⟩, ⟨.localMac 0 ("000110901412".toList ++ apMac), 100, .stored⟩,
    ⟨.interfaceNum 0 ("000211101502".toList ++ capacity ++ "0300601001w".toList), 200, .stored⟩,
      probe 0,
    ⟨.probeInfo 0 ("000410703212".toList ++ secondMac ++ "03-600301003006010".toList), 300,
      .stored⟩]

def commands : List Event :=
  [⟨.queueVap 0 staMac "010".toList "w".toList, 400, .stored⟩,
    ⟨.queueVap 0 secondMac "010".toList "w".toList, 400, .stored⟩,
    ⟨.cmd (staMac ++ "w".toList), 4000, .stored⟩, ⟨.cmd (secondMac ++ "w".toList), 4000, .stored⟩]

theorem queued_room (v : View) (mac : Text) (now : Int)
    (agent : (v.cmdQueue.lookup (mac ++ "w".toList)).map (fun appCmd => appCmd.message.agent) =
      some 0)
    (room : (size v 0 : Int) < (v.agents 0).statCountSum) :
    FindsRoom v ⟨.cmd (mac ++ "w".toList), now, .stored⟩ := by
  intro appCmd s waiting accepted
  rw [waiting, Option.map_some] at agent
  rw [Option.some.inj agent]
  exact room

/-- A run that meets the condition: the AP has room for both containers. -/
theorem two_containers_fit :
    ((run next View.empty (probed "02".toList ++ commands)).agents
      0).vapContainerSet.values.length = 2 ∧
      (((run next View.empty (probed "02".toList ++ commands)).agents
        0).vapContainerSet.values.length : Int) ≤
        ((run next View.empty (probed "02".toList ++ commands)).agents 0).statCountSum := by
  have fits : Allowed next FindsRoom View.empty (probed "02".toList ++ commands) := by
    refine ⟨trivial, trivial, ?_, trivial, trivial, trivial, trivial, ?_, ?_, trivial⟩
    · intro a totStaSize channel mode curPos registered taken
      have agent : (run next View.empty ((probed "02".toList).take 2)).sc2AgentMap 0 =
          some 0 := by decide +kernel
      have fields : takeInterface ("000211101502".toList ++ "02".toList ++ "0300601001w".toList) =
          some (2, 6, "010".toList, 22) := by decide +kernel
      cases agent.symm.trans registered
      cases fields.symm.trans taken
      change (size (run next View.empty ((probed "02".toList).take 2)) 0 : Int) ≤ 2
      decide +kernel
    · exact queued_room _ staMac 4000 (by decide +kernel) (by decide +kernel)
    · exact queued_room _ secondMac 4000 (by decide +kernel) (by decide +kernel)
  exact ⟨by decide +kernel, capacity_respected _ (Reaches.append _ .start fits) 0⟩

/-- An AP with room for one container gets two: each application call finds 32 idle ones. -/
theorem capacity_exceeded :
    ¬ ∀ events, Allowed next ChecksIdle View.empty events → ∀ a,
      (((run next View.empty events).agents a).vapContainerSet.values.length : Int) ≤
        ((run next View.empty events).agents a).statCountSum := by
  intro all
  have checked : Allowed next ChecksIdle View.empty (probed "01".toList ++ commands) := by
    rw [allowed_append]
    constructor
    · exact ⟨trivial, trivial, trivial, trivial, trivial, trivial⟩
    · refine ⟨?_, ?_, trivial, trivial, trivial⟩
      · change 0 < getVapContainerIdle (run next View.empty (probed "01".toList)) 0
        decide +kernel
      · change 0 < getVapContainerIdle (next (run next View.empty (probed "01".toList))
          ⟨.queueVap 0 staMac "010".toList "w".toList, 400, .stored⟩) 0
        decide +kernel
  have fits := all (probed "01".toList ++ commands) checked 0
  have count : (((run next View.empty (probed "01".toList ++ commands)).agents
      0).vapContainerSet.values.length : Int) =
      2 := by decide +kernel
  have sum : ((run next View.empty (probed "01".toList ++ commands)).agents 0).statCountSum =
      1 := by
    decide +kernel
  rw [count, sum] at fits
  exact absurd fits (by decide)

end LazyAS.AgentCapacity

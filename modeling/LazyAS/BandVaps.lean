import LazyAS.AddRollback
import LazyAS.StepEffects

/-! The containers of a station while only the access control assigns agents: for every SSID at most
one at an agent of each band, and one at a 2.4 GHz agent only where there was none. -/
namespace LazyAS.BandVaps
open WireText ControllerView Master VapBindings BindingLaws ViewGrowth StationCoherence
  ViewGround ViewMoves
open StepEffects Runs

def MODE_2d4G : Text := "010".toList

def MODE_5G : Text := "011".toList

def Known (mode : Option Text) : Prop := mode = none ∨ mode = some MODE_2d4G ∨ mode = some MODE_5G

def vapMode (v : View) (c : Ref) : Option Text := (v.agents (v.vaps c).agent).mode

/-- The commands of the access control, without roaming and without reports of new stations; the
mode of an agent does not change. -/
def Fits (v : View) (event : Event) : Prop :=
  match event.op with
  | .newStation _ _ => False
  | .addVap isRoam _ => isRoam = false
  | .interfaceNum sc message => ∀ a totStaSize channel mode curPos, v.sc2AgentMap sc = some a →
      takeInterface message = some (totStaSize, channel, mode, curPos) →
      (mode = MODE_2d4G ∨ mode = MODE_5G) ∧
        ((v.agents a).mode = none ∨ (v.agents a).mode = some mode)
  | _ => True

/-- Of the containers of a station for one SSID at most one is at an agent of each mode. -/
def OnePerMode (v : View) (s : Ref) : Prop :=
  ∀ c ∈ (v.stations s).vapContainerSet.values, ∀ c' ∈ (v.stations s).vapContainerSet.values,
    (v.vaps c).ssid = (v.vaps c').ssid → ∀ mode, vapMode v c = some mode →
      vapMode v c' = some mode → c = c'

structure Banded (v : View) : Prop where
  known : ∀ a, Known (v.agents a).mode
  own : ∀ s, ∀ c ∈ (v.stations s).vapContainerSet.values, (v.vaps c).station = s
  moded : ∀ s, ∀ c ∈ (v.stations s).vapContainerSet.values, vapMode v c ≠ none
  single : ∀ s, OnePerMode v s

/-! Steps that add no container. -/

/-- No station gets another container; the containers, and the modes that are set, stay. -/
structure Within (v w : View) : Prop where
  stored : ∀ s c, c ∈ (w.stations s).vapContainerSet.values →
    c ∈ (v.stations s).vapContainerSet.values
  vaps : ∀ c, c < v.nextVap →
    (w.vaps c).agent = (v.vaps c).agent ∧ (w.vaps c).station = (v.vaps c).station ∧
      (w.vaps c).ssid = (v.vaps c).ssid
  modes : ∀ a, a < v.nextAgent → ∀ mode, (v.agents a).mode = some mode →
    (w.agents a).mode = some mode
  known : (∀ a, Known (v.agents a).mode) → ∀ a, Known (w.agents a).mode
  nextVap : v.nextVap ≤ w.nextVap
  nextAgent : v.nextAgent ≤ w.nextAgent

theorem Within.trans {u v w : View} (first : Within u v) (second : Within v w) : Within u w where
  stored := fun s c member => first.stored s c (second.stored s c member)
  vaps := by
    intro c old
    obtain ⟨agent, station, ssid⟩ := first.vaps c old
    obtain ⟨agent', station', ssid'⟩ := second.vaps c (Nat.lt_of_lt_of_le old first.nextVap)
    exact ⟨agent'.trans agent, station'.trans station, ssid'.trans ssid⟩
  modes := fun a old mode set' =>
    second.modes a (Nat.lt_of_lt_of_le old first.nextAgent) mode (first.modes a old mode set')
  known := fun before => second.known (first.known before)
  nextVap := first.nextVap.trans second.nextVap
  nextAgent := first.nextAgent.trans second.nextAgent

theorem stored_lt {v : View} (grounded : GroundedView v) {s c : Ref}
    (member : c ∈ (v.stations s).vapContainerSet.values) :
    c < v.nextVap ∧ (v.vaps c).agent < v.nextAgent := by
  obtain ⟨key, found⟩ := (mem_values _ c).mp member
  have old := (grounded.stored s key c found).1
  exact ⟨old, grounded.vapAgent c old⟩

theorem Banded.within {v w : View} (banded : Banded v) (grounded : GroundedView v)
    (within : Within v w) :
    Banded w := by
  have mode (s c : Ref) (member : c ∈ (w.stations s).vapContainerSet.values) : vapMode w c =
      vapMode v c := by
    have before := within.stored s c member
    obtain ⟨old, agent⟩ := stored_lt grounded before
    obtain ⟨same, -, -⟩ := within.vaps c old
    obtain ⟨set', found⟩ := Option.ne_none_iff_exists'.mp (banded.moded s c before)
    have kept := within.modes _ agent set' found
    unfold vapMode at found ⊢
    rw [same, kept, found]
  refine ⟨within.known banded.known, ?_, ?_, ?_⟩
  · intro s c member
    have before := within.stored s c member
    exact (within.vaps c (stored_lt grounded before).1).2.1.trans (banded.own s c before)
  · intro s c member
    rw [mode s c member]
    exact banded.moded s c (within.stored s c member)
  · intro s c member c' member' ssid set' here here'
    have before := within.stored s c member
    have before' := within.stored s c' member'
    rw [(within.vaps c (stored_lt grounded before).1).2.2,
      (within.vaps c' (stored_lt grounded before').1).2.2] at ssid
    rw [mode s c member] at here
    rw [mode s c' member'] at here'
    exact banded.single s c before c' before' ssid set' here here'

/-! The labels. -/

def labels (v : View) : (Ref → Option Text) × (Ref → Text) :=
  (Agent.mode ∘ v.agents, VapContainer.ssid ∘ v.vaps)

theorem labels_agent (v : View) (a : Ref) (change : Agent → Agent)
    (same : (change (v.agents a)).mode = (v.agents a).mode) :
    labels (updAgent v a change) = labels v := by
  unfold labels updAgent
  rw [comp_update_same Agent.mode v.agents a _ same]

theorem labels_vap (v : View) (c : Ref) (change : VapContainer → VapContainer)
    (same : (change (v.vaps c)).ssid = (v.vaps c).ssid) :
    labels (updVap v c change) = labels v := by
  unfold labels updVap
  rw [comp_update_same VapContainer.ssid v.vaps c _ same]

theorem labels_setVapStatus (v : View) (c : Ref) (status : Status) :
    labels (setVapStatus v c status) = labels v := by
  unfold setVapStatus
  dsimp only
  split
  · exact (labels_vap _ c _ rfl).trans (labels_agent v _ _ rfl)
  · exact (labels_vap _ c _ rfl).trans (labels_agent v _ _ rfl)
  · exact labels_vap v c _ rfl

theorem labels_agentAddVap (v : View) (a c : Ref) : labels (agentAddVap v a c) = labels v := by
  unfold agentAddVap
  split
  · rfl
  · exact labels_agent v a _ rfl

theorem labels_agentRemoveVap (v : View) (a c : Ref) :
    labels (agentRemoveVap v a c) = labels v := by
  unfold agentRemoveVap
  split
  · exact labels_agent v a _ rfl
  · rfl

theorem labels_addSumTraffic (v : View) (a : Ref) (upTraffic downTraffic : Int64) :
    labels (addSumTraffic v a upTraffic downTraffic) = labels v := labels_agent v a _ rfl

theorem labels_losses {v w : View} (moves : Losses v w) : labels w = labels v := by
  refine moves.rule (fun x y => labels y = labels x) (fun _ => rfl)
    (fun _ _ _ first second => second.trans first) ?_
  intro x y move
  cases move with
  | alike same => exact same.read labels
  | release a c => exact labels_agentRemoveVap x a c
  | drop s c => rfl
  | off s => rfl
  | idle s => rfl
  | fold s off => rfl
  | vapOff c => exact labels_setVapStatus x c .offLine
  | shut sc a => exact labels_agent x a (fun agent => { agent with lastHeard := 0, sc := none }) rfl
  | closed sc => rfl
  | untrack mac => rfl

theorem Within.of_shrinks {v w : View} (shrinks : Shrinks (bindings v) (bindings w))
    (same : labels w = labels v) :
    Within v w := by
  have modes (a : Ref) : (w.agents a).mode = (v.agents a).mode :=
    congrFun (congrArg Prod.fst same) a
  refine ⟨?_, ?_, ?_, ?_, shrinks.nextVap.ge, shrinks.nextAgent.ge⟩
  · intro s c member
    obtain ⟨key, found⟩ := (mem_values _ c).mp member
    exact (mem_values _ c).mpr ⟨key, shrinks.stored s key c found⟩
  · intro c _
    exact ⟨congrFun shrinks.vapAgent c, congrFun shrinks.vapStation c,
      congrFun (congrArg Prod.snd same) c⟩
  · intro a _ mode set'
    rw [modes a]
    exact set'
  · intro known a
    rw [modes a]
    exact known a

theorem Within.of_losses {v w : View} (moves : Losses v w) : Within v w :=
  .of_shrinks (losses_shrinks moves) (labels_losses moves)

theorem Within.of_frame {v w : View} (same : bindings w = bindings v) (kept : labels w = labels v) :
    Within v w :=
  .of_shrinks (by rw [same]; exact .refl _) kept

theorem registerAgent_within (v : View) (now : Int) (sc : Ref) (mac : Text) :
    Within v (registerAgent v now sc mac) := by
  have created : (registerAgent v now sc mac).agents =
      Function.update v.agents v.nextAgent
          { macAddress := mac, sc := some sc, lastHeard := now } := by
    unfold registerAgent
    dsimp only
    split
    · rfl
    · rfl
  have rest : (registerAgent v now sc mac).stations = v.stations ∧
      (registerAgent v now sc mac).vaps = v.vaps ∧
      (registerAgent v now sc mac).nextVap = v.nextVap ∧
          (registerAgent v now sc mac).nextAgent = v.nextAgent + 1 := by
    unfold registerAgent
    dsimp only
    split
    · exact ⟨rfl, rfl, rfl, rfl⟩
    · exact ⟨rfl, rfl, rfl, rfl⟩
  obtain ⟨stations, vaps, nextVap, nextAgent⟩ := rest
  refine ⟨?_, ?_, ?_, ?_, nextVap.ge, nextAgent.ge.trans' (Nat.le_succ _)⟩
  · intro s c member
    rwa [stations] at member
  · intro c _
    rw [vaps]
    exact ⟨rfl, rfl, rfl⟩
  · intro a old mode set'
    rw [created, Function.update_of_ne (Nat.ne_of_lt old)]
    exact set'
  · intro known a
    rw [created]
    by_cases new : a = v.nextAgent
    · rw [new, Function.update_self]
      exact .inl rfl
    · rw [Function.update_of_ne new]
      exact known a

theorem probeStation_within (v : View) (mac : Text) : Within v (probeStation v mac).1 := by
  unfold probeStation
  split
  · exact .of_losses .refl
  · refine ⟨?_, fun _ _ => ⟨rfl, rfl, rfl⟩, fun _ _ _ set' => set', fun known => known,
      Nat.le_refl _, Nat.le_refl _⟩
    intro s c member
    simp only [addStation, mirror] at member
    by_cases new : s = v.nextStation
    · rw [new, Function.update_self] at member
      cases member
    · rwa [Function.update_of_ne new] at member

theorem informAgent_within (v : View) (a : Ref) (totStaSize channel : Int) (mode message : Text)
    (curPos : Int) (reported : mode = MODE_2d4G ∨ mode = MODE_5G)
    (fixed : (v.agents a).mode = none ∨ (v.agents a).mode = some mode) :
    Within v (informAgent v a totStaSize channel mode message curPos) := by
  have own : ((informAgent v a totStaSize channel mode message curPos).agents a).mode =
      some mode := by
    simp [informAgent, mirror, updAgent]
  have others (b : Ref) (other : b ≠ a) :
      (informAgent v a totStaSize channel mode message curPos).agents b = v.agents b := by
    simp [informAgent, mirror, updAgent, other]
  refine ⟨fun _ _ member => member, fun _ _ => ⟨rfl, rfl, rfl⟩, ?_, ?_, Nat.le_refl _,
    Nat.le_refl _⟩
  · intro b _ set' before
    by_cases same : b = a
    · subst same
      rw [own]
      rcases fixed with unset | same
      · rw [unset] at before
        cases before
      · exact same.symm.trans before
    · rw [others b same]
      exact before
  · intro known b
    by_cases same : b = a
    · subst same
      rw [own]
      rcases reported with rfl | rfl
      · exact .inr (.inl rfl)
      · exact .inr (.inr rfl)
    · rw [others b same]
      exact known b

theorem effect_within {v w : View} {now : Int} {order : Order} {op : Op}
    (effect : Effect v now order op w) (grounded : GroundedView v)
    (fits : Fits v ⟨op, now, order⟩) :
    Within v w ∨ ∃ message s, Accepted v now order false message s ∧
      Alike (createVap v now s message.agent message.ssid) w := by
  -- an operation of the access control adds no container, or the one of an accepted command
  cases effect with
  | upkeep rest => exact .inl (.of_losses (losses_upkeeps rest grounded))
  | accept => exact .inl (.of_frame rfl rfl)
  | heard sc a registered =>
      exact .inl (.of_frame (bindings_agent_frame v a _ rfl rfl rfl) (labels_agent v a _ rfl))
  | close sc => exact .inl (.of_losses (losses_closeSocket v order sc grounded))
  | displace sc message mac rest taken =>
      exact .inl (.of_losses (losses_closeFormer v order sc mac grounded))
  | register sc message mac rest taken opened =>
      exact .inl ((Within.of_losses (losses_closeFormer v order sc mac grounded)).trans
        (registerAgent_within _ now sc mac))
  | create sc a message mac ssid report unknown rest => exact fits.elim
  | admitted sc a s message mac ssid report known admission rest => exact fits.elim
  | leave sc a s c message mac ssid registered known stored left =>
      exact .inl (.of_losses (losses_leaveVap v now s c))
  | flow sc s a message up down report =>
      refine .inl (.of_frame (countTraffic_ground v a s up down).1 ?_)
      unfold countTraffic
      dsimp only
      split
      · exact labels_addSumTraffic v a _ _
      · exact labels_addSumTraffic v a _ _
  | probe sc message info taken unknown same =>
      exact .inl ((probeStation_within v info.staMacAddr).trans (.of_losses (.of_alike same)))
  | inform sc a message mode totStaSize channel curPos registered taken =>
      obtain ⟨reported, fixed⟩ := fits a totStaSize channel mode curPos registered taken
      exact .inl (informAgent_within v a totStaSize channel mode message curPos reported fixed)
  | acknowledge sc a s c message mac ssid same registered known stored listed done =>
      exact .inl (.of_losses ((Losses.of_alike same).trans (losses_acknowledgement done)))
  | add isRoam message s adds accepted same =>
      cases adds with
      | direct isRoam message =>
          obtain rfl : isRoam = false := fits
          exact .inr ⟨message, s, accepted, same⟩
      | queued key appCmd waiting => exact .inr ⟨appCmd.message, s, accepted, same⟩
  | age moves => exact .inl (.of_losses (losses_ages moves grounded))

/-! An accepted command. -/

theorem others_free (v : View) (a : Ref) (items : List Ref)
    (free : items.foldr (fun c rest =>
      if (v.vaps c).agent = a then some true
      else do
        let oldMode ← (v.agents (v.vaps c).agent).mode
        let found ← rest
        return found || oldMode = MODE_5G) (some false) = some false) (c : Ref)
          (member : c ∈ items) :
    vapMode v c ≠ some MODE_5G := by
  -- what the test for a 5 GHz agent has looked at
  induction items with
  | nil => cases member
  | cons d rest ih =>
      rw [List.foldr_cons] at free
      split at free
      · cases free
      · obtain ⟨oldMode, known, tested⟩ := Option.bind_eq_some_iff.mp free
        obtain ⟨found, later, result⟩ := Option.bind_eq_some_iff.mp tested
        rw [Option.pure_def, Option.some.injEq, Bool.or_eq_false_iff] at result
        rcases List.mem_cons.mp member with rfl | inside
        · intro same
          unfold vapMode at same
          rw [known, Option.some.injEq] at same
          exact of_decide_eq_false result.2 same
        · exact ih (result.1 ▸ later) inside

/-- The check of the access control: a 2.4 GHz agent needs a station without the SSID, a 5 GHz agent
one without the SSID in its band. -/
theorem checkSsidExist_free {v : View} {order : Order} {s a : Ref} {ssid : Text}
    (known : Known (v.agents a).mode)
    (allowed : checkSsidExist v order false s a ssid = some false) :
    ((v.agents a).mode = some MODE_2d4G ∧ ∀ c ∈ ownVaps v s, (v.vaps c).ssid ≠ ssid) ∨
    ((v.agents a).mode = some MODE_5G ∧ ∀ c ∈ ownVaps v s, (v.vaps c).ssid = ssid →
      vapMode v c ≠ some MODE_5G) := by
  unfold checkSsidExist at allowed
  simp only [Bool.false_eq_true, if_false] at allowed
  rcases known with unset | low | high
  · rw [unset] at allowed
    cases allowed
  · left
    rw [low] at allowed
    refine ⟨low, ?_⟩
    have absent : (stationSsidSet v s).contains ssid = false := Option.some.inj allowed
    intro c member same
    have inside : (stationSsidSet v s).contains ssid = true :=
      List.contains_iff_mem.mpr (List.mem_map.mpr ⟨c, member, same⟩)
    rw [inside] at absent
    cases absent
  · right
    rw [high] at allowed
    refine ⟨high, ?_⟩
    intro c member same
    have tested := others_free v a _ allowed c
    apply tested
    obtain ⟨stored, own⟩ := List.mem_filter.mp member
    exact List.mem_filter.mpr ⟨(order.perm _).mem_iff.mpr stored, by simpa [same] using own⟩

theorem createVap_stored (v : View) (now : Int) (s a : Ref) (ssid : Text) (t c : Ref)
    (member : c ∈ ((createVap v now s a ssid).stations t).vapContainerSet.values) :
    (t = s ∧ c = v.nextVap) ∨ c ∈ (v.stations t).vapContainerSet.values := by
  obtain ⟨key, found⟩ := (mem_values _ c).mp member
  have after := congrArg Bindings.stored (bindings_createVap v now s a ssid)
  obtain ⟨held, frame⟩ := hold_frame ((bindings v).create s a ssid) a v.nextVap
  unfold added at after
  have stored : ((bindings (createVap v now s a ssid)).stored t).lookup key = some c := found
  rw [after, show (bindings v).nextVap = v.nextVap from rfl, frame] at stored
  rcases (lookup_inserted (bindings v).stored s t _ key v.nextVap c).mp stored with ⟨here, -, new⟩ |
      ⟨-, old⟩
  · exact .inl ⟨here, new⟩
  · exact .inr ((mem_values _ c).mpr ⟨key, old⟩)

theorem createVap_vaps (v : View) (now : Int) (s a : Ref) (ssid : Text) (c : Ref) :
    ((createVap v now s a ssid).vaps c).agent = (if c = v.nextVap then a else (v.vaps c).agent) ∧
    ((createVap v now s a ssid).vaps c).station =
      (if c = v.nextVap then s else (v.vaps c).station) ∧
    ((createVap v now s a ssid).vaps c).ssid =
      (if c = v.nextVap then ssid else (v.vaps c).ssid) := by
  have after := bindings_createVap v now s a ssid
  obtain ⟨held, frame⟩ := hold_frame ((bindings v).create s a ssid) a v.nextVap
  unfold added at after
  rw [show (bindings v).nextVap = v.nextVap from rfl, frame] at after
  have agent := congrFun (congrArg Bindings.vapAgent after) c
  have station := congrFun (congrArg Bindings.vapStation after) c
  have name := congrFun (congrArg Bindings.vapSsid after) c
  refine ⟨agent.trans ?_, station.trans ?_, name.trans ?_⟩
  · exact Function.update_apply _ _ _ _
  · exact Function.update_apply _ _ _ _
  · exact Function.update_apply _ _ _ _

theorem createVap_modes (v : View) (now : Int) (s a : Ref) (ssid : Text) (b : Ref) :
    ((createVap v now s a ssid).agents b).mode = (v.agents b).mode := by
  have same : labels (createVap v now s a ssid) =
      labels (setLastProbeHeard (newVapContainer v s a ssid) v.nextVap now) :=
        labels_agentAddVap _ a v.nextVap
  exact congrFun (congrArg Prod.fst same) b

theorem createVap_fresh {v : View} {now : Int} {order : Order} {message : StationCtrlMessage}
    {s : Ref} (banded : Banded v) (accepted : Accepted v now order false message s) (c : Ref)
    (member : c ∈ (v.stations s).vapContainerSet.values) (ssid : (v.vaps c).ssid = message.ssid) :
    vapMode v c ≠ (v.agents message.agent).mode := by
  have own : c ∈ ownVaps v s := List.mem_filter.mpr ⟨member, by simpa using banded.own s c member⟩
  rcases checkSsidExist_free (banded.known message.agent) accepted.allowed with ⟨-, absent⟩ |
      ⟨high, free⟩
  · exact absurd ssid (absent c own)
  · rw [high]
    exact free c own ssid

theorem createVap_banded {v : View} {now : Int} {order : Order} {message : StationCtrlMessage}
    {s : Ref} (banded : Banded v) (grounded : GroundedView v)
    (accepted : Accepted v now order false message s) :
    Banded (createVap v now s message.agent message.ssid) := by
  have cases' (t c : Ref) := createVap_stored v now s message.agent message.ssid t c
  have vaps := createVap_vaps v now s message.agent message.ssid
  have modes := createVap_modes v now s message.agent message.ssid
  have old {t c : Ref} (member : c ∈ (v.stations t).vapContainerSet.values) : c ≠ v.nextVap :=
    Nat.ne_of_lt (stored_lt grounded member).1
  have newMode : vapMode (createVap v now s message.agent message.ssid) v.nextVap =
      (v.agents message.agent).mode := by
    unfold vapMode
    rw [modes, (vaps v.nextVap).1, if_pos rfl]
  have oldMode {t c : Ref} (member : c ∈ (v.stations t).vapContainerSet.values) :
      vapMode (createVap v now s message.agent message.ssid) c = vapMode v c := by
    unfold vapMode
    rw [modes, (vaps c).1, if_neg (old member)]
  refine ⟨fun a => ?_, ?_, ?_, ?_⟩
  · rw [modes a]
    exact banded.known a
  · intro t c member
    rcases cases' t c member with ⟨rfl, rfl⟩ | before
    · exact (vaps _).2.1.trans (if_pos rfl)
    · rw [(vaps c).2.1, if_neg (old before)]
      exact banded.own t c before
  · intro t c member
    rcases cases' t c member with ⟨rfl, rfl⟩ | before
    · rw [newMode]
      rcases checkSsidExist_free (banded.known message.agent) accepted.allowed with ⟨low, -⟩ |
          ⟨high, -⟩
      · simp [low]
      · simp [high]
    · rw [oldMode before]
      exact banded.moded t c before
  · intro t c member c' member' ssid mode here here'
    rw [(vaps c).2.2, (vaps c').2.2] at ssid
    rcases cases' t c member with ⟨rfl, rfl⟩ | before
    · rcases cases' t c' member' with ⟨-, rfl⟩ | before'
      · rfl
      · rw [if_pos rfl, if_neg (old before')] at ssid
        rw [newMode] at here
        rw [oldMode before'] at here'
        exact absurd (here'.trans here.symm) (createVap_fresh banded accepted c' before' ssid.symm)
    · rcases cases' t c' member' with ⟨rfl, rfl⟩ | before'
      · rw [if_neg (old before), if_pos rfl] at ssid
        rw [oldMode before] at here
        rw [newMode] at here'
        exact absurd (here.trans here'.symm) (createVap_fresh banded accepted c before ssid)
      · rw [if_neg (old before), if_neg (old before')] at ssid
        rw [oldMode before] at here
        rw [oldMode before'] at here'
        exact banded.single t c before c' before' ssid mode here here'

theorem alike_within {v w : View} (same : Alike v w) : Within v w := .of_losses (.of_alike same)

theorem next_banded (v : View) (event : Event) (grounded : GroundedView v) (fits : Fits v event)
    (banded : Banded v) :
    Banded (next v event) := by
  have effect := step_effect v event.now event.order event.op grounded
  rcases effect_within effect grounded fits with within | ⟨message, s, accepted, same⟩
  · exact banded.within grounded within
  · have created := createVap_grounded v event.now event.order false message s grounded accepted
    exact (createVap_banded banded grounded accepted).within created (alike_within same)

theorem banded_empty : Banded View.empty :=
  ⟨fun _ => .inl rfl, fun _ _ member => (List.not_mem_nil member).elim, fun _ _ member =>
    (List.not_mem_nil member).elim,
    fun _ _ member => (List.not_mem_nil member).elim⟩

/-- In every run of the access control a station has for every SSID at most one container at an
agent of each band, and gets one at a 2.4 GHz agent only where it has none for the SSID. -/
theorem one_vap_per_band (v : View) (reached : Reaches next Fits View.empty v) :
    (∀ s, OnePerMode v s) ∧ ∀ event, Fits v event →
      ∀ s, ∀ c ∈ ((next v event).stations s).vapContainerSet.values,
      c ∉ (v.stations s).vapContainerSet.values → vapMode (next v event) c = some MODE_2d4G →
      ∀ d ∈ (v.stations s).vapContainerSet.values, (v.vaps d).ssid ≠
        ((next v event).vaps c).ssid := by
  have grounded : GroundedView v := reached_grounded reached
  have both : GroundedView v ∧ Banded v := reached.invariant (fun v => GroundedView v ∧ Banded v)
    ⟨grounded_empty, banded_empty⟩
    (fun v event fits kept =>
      ⟨next_grounded v event kept.1, next_banded v event kept.1 fits kept.2⟩)
  have banded := both.2
  refine ⟨banded.single, ?_⟩
  intro event fits s c member new low d before
  have effect : Effect v event.now event.order event.op (next v event) :=
    step_effect v _ _ _ grounded
  rcases effect_within effect grounded fits with within | ⟨message, t, accepted, same⟩
  · exact absurd (within.stored s c member) new
  · have created := createVap_grounded v event.now event.order false message t grounded accepted
    have within := alike_within same
    have stored := within.stored s c member
    have agents := (createVap_banded banded grounded accepted).moded s c stored
    obtain ⟨agent, -, ssid⟩ := within.vaps c (stored_lt created stored).1
    have mode : vapMode (next v event) c =
        vapMode (createVap v event.now t message.agent message.ssid) c := by
      obtain ⟨set', found⟩ := Option.ne_none_iff_exists'.mp agents
      have kept := within.modes _ (stored_lt created stored).2 set' found
      rw [found]
      unfold vapMode
      exact (congrArg (fun a => ((next v event).agents a).mode) agent).trans kept
    rcases createVap_stored v event.now t message.agent message.ssid s c stored with ⟨rfl, rfl⟩ |
        old
    · obtain ⟨newAgent, -, newSsid⟩ :=
        createVap_vaps v event.now s message.agent message.ssid v.nextVap
      intro same
      rw [ssid, newSsid, if_pos rfl] at same
      rw [mode] at low
      unfold vapMode at low
      rw [newAgent, if_pos rfl, createVap_modes] at low
      have own : d ∈ ownVaps v s :=
        List.mem_filter.mpr ⟨before, by simpa using banded.own s d before⟩
      rcases checkSsidExist_free (banded.known message.agent) accepted.allowed with ⟨-, absent⟩ |
          ⟨high, -⟩
      · exact absent d own same
      · exact absurd (low.symm.trans high) (by decide)
    · exact absurd old new

def assigned : List Event :=
  hello 0 apMac ++ [probe 0, ⟨.addVap false AddRollback.addCommand, 400, .stored⟩]

theorem assigned_banded : ((run next View.empty assigned).stations 0).vapContainerSet.values = [0] ∧
    OnePerMode (run next View.empty assigned) 0 := by
  have fits : Allowed next Fits View.empty assigned := by
    refine ⟨trivial, trivial, ?_, trivial, rfl, trivial⟩
    intro a totStaSize channel mode curPos registered taken
    have agent : (run next View.empty (assigned.take 2)).sc2AgentMap 0 = some 0 := by decide +kernel
    have fields : takeInterface "000211101502080300601001w".toList =
        some (8, 6, "010".toList, 22) := by decide +kernel
    cases agent.symm.trans registered
    cases fields.symm.trans taken
    exact ⟨.inl rfl, .inl (by decide +kernel)⟩
  exact ⟨by decide +kernel, (one_vap_per_band _ (Reaches.append _ .start fits)).1 0⟩

end LazyAS.BandVaps

import LazyAS.StationCoherence

/-! What every reachable view keeps without a condition on the run: the tables find objects by
their own addresses and keys, an agent holds only containers made for it, and only tracked
stations have containers. Times, queues and frames play no part in it, so views that differ in
nothing else are alike. -/
namespace LazyAS.ViewGround
open WireText ControllerView Master VapBindings BindingLaws

/-! Views that differ in times, queues and frames only. -/

def stationCore (station : Station) : Station :=
  { station with lastHeard := 0, lastHeardMode := none }

def agentCore (agent : Agent) : Agent := { agent with currentId := 0, lastHeartBeat := 0 }

def vapCore (vap : VapContainer) : VapContainer :=
  { vap with savedProbeHeard := 0, lastProbeHeard := 0 }

def core (v : View) : View := { v with
  agents := agentCore ∘ v.agents
  stations := stationCore ∘ v.stations
  vaps := vapCore ∘ v.vaps
  socketMap := fun _ => false
  sendMsgBuffer := fun _ => none
  cmdQueue := ∅
  cmdTaskRuns := true
  tasks := []
  checks := []
  sent := []
  published := [] }

def Alike (v w : View) : Prop := core w = core v

theorem Alike.refl (v : View) : Alike v v := rfl

theorem Alike.trans {v w x : View} (first : Alike v w) (second : Alike w x) : Alike v x :=
  Eq.trans second first

theorem Alike.read {v w : View} {α : Sort*} (same : Alike v w) (read : View → α) :
    read (core w) = read (core v) := congrArg read same

theorem Alike.bindings {v w : View} (same : Alike v w) : bindings w = bindings v :=
  same.read VapBindings.bindings

theorem alike_updStation (v : View) (s : Ref) (change : Station → Station)
    (same : stationCore (change (v.stations s)) = stationCore (v.stations s)) :
    Alike v (updStation v s change) := by
  simp only [Alike, core, updStation]
  rw [comp_update_same stationCore v.stations s _ same]

theorem alike_stationHeard (v : View) (s : Ref) (now : Int) (mode : Option Text) :
    Alike v (stationHeard v s now mode) :=
  alike_updStation v s _ rfl

theorem alike_updVap (v : View) (c : Ref) (change : VapContainer → VapContainer)
    (same : vapCore (change (v.vaps c)) = vapCore (v.vaps c)) : Alike v (updVap v c change) := by
  simp only [Alike, core, updVap]
  rw [comp_update_same vapCore v.vaps c _ same]

theorem alike_setLastProbeHeard (v : View) (c : Ref) (now : Int) :
    Alike v (setLastProbeHeard v c now) :=
  alike_updVap v c _ rfl

theorem alike_updAgent (v : View) (a : Ref) (change : Agent → Agent)
    (same : agentCore (change (v.agents a)) = agentCore (v.agents a)) :
    Alike v (updAgent v a change) := by
  simp only [Alike, core, updAgent]
  rw [comp_update_same agentCore v.agents a _ same]

theorem alike_foldl {Item : Type} (v : View) (body : View → Item → View)
    (each : ∀ w item, Alike w (body w item)) (items : List Item) : Alike v (items.foldl body v) :=
  Runs.foldl_within Alike .refl Alike.trans body each items v

/-! The invariant. -/

structure Grounded (b : Bindings) (agentMap : Text → Option Ref) (isOpen : Ref → Bool) : Prop where
  held : ∀ a key c, (b.held a).lookup key = some c → c < b.nextVap ∧ b.vapAgent c = a ∧
    key = b.key c
  stored : ∀ s key c, (b.stored s).lookup key = some c →
    c < b.nextVap ∧ key = b.key c ∧ b.stationMap.lookup (b.stationMac s) = some s
  vapAgent : ∀ c, c < b.nextVap → b.vapAgent c < b.nextAgent
  vapStation : ∀ c, c < b.nextVap → b.vapStation c < b.nextStation
  tracked : ∀ mac s, b.stationMap.lookup mac = some s → s < b.nextStation ∧ b.stationMac s = mac
  registered : ∀ mac a, agentMap mac = some a → a < b.nextAgent ∧ b.agentMac a = mac
  connected : ∀ sc a, b.sc2AgentMap sc = some a →
    b.agentSc a = some sc ∧ isOpen sc = true ∧ agentMap (b.agentMac a) = some a
  linked : ∀ a sc, b.agentSc a = some sc → a < b.nextAgent

def GroundedView (v : View) : Prop := Grounded (bindings v) v.agentMap v.isOpen

def channels (v : View) : (Text → Option Ref) × (Ref → Bool) := (v.agentMap, v.isOpen)

@[simp] theorem channels_agentAddVap (v : View) (a c : Ref) :
    channels (agentAddVap v a c) = channels v := by
  unfold agentAddVap
  split
  · rfl
  · rfl

@[simp] theorem channels_agentRemoveVap (v : View) (a c : Ref) :
    channels (agentRemoveVap v a c) = channels v := by
  unfold agentRemoveVap
  split
  · rfl
  · rfl

@[simp] theorem channels_setVapStatus (v : View) (c : Ref) (status : Status) :
    channels (setVapStatus v c status) = channels v := by
  cases before : (v.vaps c).status <;> cases status <;> simp only [setVapStatus, before] <;> rfl

/-! The counts of an agent are kept without touching a station. -/

@[simp] theorem stations_setVapStatus (v : View) (c : Ref) (status : Status) :
    (setVapStatus v c status).stations = v.stations := by
  cases before : (v.vaps c).status <;> cases status <;> simp only [setVapStatus, before] <;> rfl

@[simp] theorem stations_agentAddVap (v : View) (a c : Ref) :
    (agentAddVap v a c).stations = v.stations := by
  unfold agentAddVap
  split
  · rfl
  · rfl

@[simp] theorem stations_agentRemoveVap (v : View) (a c : Ref) :
    (agentRemoveVap v a c).stations = v.stations := by
  unfold agentRemoveVap
  split
  · rfl
  · rfl

theorem grounded_of {v w : View} {b : Bindings} (after : bindings w = b)
    (same : channels w = channels v) (grounded : Grounded b v.agentMap v.isOpen) :
    GroundedView w := by
  unfold GroundedView
  rw [after, show w.agentMap = v.agentMap from congrArg Prod.fst same,
    show w.isOpen = v.isOpen from congrArg Prod.snd same]
  exact grounded

theorem Alike.grounded {v w : View} (same : Alike v w) (grounded : GroundedView v) :
    GroundedView w := by
  change GroundedView (core w)
  rw [same]
  exact grounded

section Assignments

variable {b : Bindings} {agentMap : Text → Option Ref} {isOpen : Ref → Bool}

theorem Grounded.setStatus (grounded : Grounded b agentMap isOpen) (s : Ref) (status : Status) :
    Grounded (b.setStatus s status) agentMap isOpen := { grounded with }

theorem Grounded.setWorking (grounded : Grounded b agentMap isOpen) (s : Ref)
    (working : Option Ref) :
    Grounded (b.setWorking s working) agentMap isOpen := { grounded with }

theorem Grounded.setVap (grounded : Grounded b agentMap isOpen) (c : Ref) (status : Status) :
    Grounded (b.setVap c status) agentMap isOpen := { grounded with }

theorem Grounded.drop (grounded : Grounded b agentMap isOpen) (s c : Ref) :
    Grounded (b.drop s c) agentMap isOpen :=
  { grounded with
    stored := fun t key d found =>
      grounded.stored t key d ((shrinks_drop b s c).stored t key d found) }

theorem Grounded.release (grounded : Grounded b agentMap isOpen) (a c : Ref) :
    Grounded (b.release a c) agentMap isOpen :=
  { grounded with
    held := fun t key d found =>
      grounded.held t key d ((shrinks_release b a c).held t key d found) }

theorem Grounded.store (grounded : Grounded b agentMap isOpen) {s c : Ref} (old : c < b.nextVap)
    (tracked : b.stationMap.lookup (b.stationMac s) = some s) :
    Grounded (b.store s c) agentMap isOpen := by
  refine { grounded with stored := ?_ }
  intro t key d found
  simp only [Bindings.store] at found
  by_cases same : t = s
  · subst same
    rw [Function.update_self] at found
    by_cases here : key = b.key c
    · subst here
      rw [AList.lookup_insert] at found
      cases found
      exact ⟨old, rfl, tracked⟩
    · rw [AList.lookup_insert_ne here] at found
      exact grounded.stored t key d found
  · rw [Function.update_of_ne same] at found
    exact grounded.stored t key d found

theorem Grounded.hold (grounded : Grounded b agentMap isOpen) {a c : Ref} (old : c < b.nextVap)
    (own : b.vapAgent c = a) : Grounded (b.hold a c) agentMap isOpen := by
  unfold Bindings.hold
  split
  · exact grounded
  · refine { grounded with held := ?_ }
    intro t key d found
    dsimp only at found
    by_cases same : t = a
    · subst same
      rw [Function.update_self] at found
      by_cases here : key = b.key c
      · subst here
        rw [AList.lookup_insert] at found
        cases found
        exact ⟨old, own, rfl⟩
      · rw [AList.lookup_insert_ne here] at found
        exact grounded.held t key d found
    · rw [Function.update_of_ne same] at found
      exact grounded.held t key d found

theorem create_key_old {s a : Ref} {ssid : Text} {c : Ref} (old : c < b.nextVap) :
    (b.create s a ssid).key c = b.key c := by
  have other : c ≠ b.nextVap := Nat.ne_of_lt old
  simp only [Bindings.key, Bindings.create, Function.update_of_ne other]

theorem Grounded.create (grounded : Grounded b agentMap isOpen) {s a : Ref} (ssid : Text)
    (agent : a < b.nextAgent) (station : s < b.nextStation) :
    Grounded (b.create s a ssid) agentMap isOpen := by
  refine { grounded with held := ?_, stored := ?_, vapAgent := ?_, vapStation := ?_ }
  · intro t key c found
    obtain ⟨old, own, named⟩ := grounded.held t key c found
    refine ⟨Nat.lt_succ_of_lt old, ?_, named.trans (create_key_old old).symm⟩
    exact (Function.update_of_ne (Nat.ne_of_lt old) _ _).trans own
  · intro t key c found
    obtain ⟨old, named, tracked⟩ := grounded.stored t key c found
    exact ⟨Nat.lt_succ_of_lt old, named.trans (create_key_old old).symm, tracked⟩
  · intro c old
    by_cases new : c = b.nextVap
    · subst new
      simpa [Bindings.create] using agent
    · simpa [Bindings.create, new] using grounded.vapAgent c
        (Nat.lt_of_le_of_ne (Nat.lt_succ_iff.mp old) new)
  · intro c old
    by_cases new : c = b.nextVap
    · subst new
      simpa [Bindings.create] using station
    · simpa [Bindings.create, new] using grounded.vapStation c
        (Nat.lt_of_le_of_ne (Nat.lt_succ_iff.mp old) new)

theorem Grounded.addStation (grounded : Grounded b agentMap isOpen) (mac : Text) (status : Status)
    (unknown : b.stationMap.lookup mac = none) :
    Grounded { b.createStation mac status with stationMap := b.stationMap.insert mac b.nextStation }
      agentMap isOpen := by
  -- a new station, tracked under an address that was free
  have macs {s : Ref} (old : s < b.nextStation) : (b.createStation mac status).stationMac s =
      b.stationMac s :=
    Function.update_of_ne (Nat.ne_of_lt old) _ _
  have keys {c : Ref} (old : c < b.nextVap) : (b.createStation mac status).key c = b.key c := by
    simp only [Bindings.key]
    rw [show (b.createStation mac status).vapStation c = b.vapStation c from rfl,
      macs (grounded.vapStation c old)]
    rfl
  refine ⟨?_, ?_, grounded.vapAgent, ?_, ?_, grounded.registered, grounded.connected,
    grounded.linked⟩
  · intro a key c found
    obtain ⟨old, own, named⟩ := grounded.held a key c found
    exact ⟨old, own, named.trans (keys old).symm⟩
  · intro s key c found
    by_cases new : s = b.nextStation
    · subst new
      simp [Bindings.createStation] at found
    · have before : (b.stored s).lookup key =
          some c := by simpa [Bindings.createStation, new] using found
      obtain ⟨old, named, tracked⟩ := grounded.stored s key c before
      refine ⟨old, named.trans (keys old).symm, ?_⟩
      have known := grounded.tracked _ s tracked
      dsimp only
      rw [macs known.1, AList.lookup_insert_ne]
      · exact tracked
      · intro same
        rw [same, unknown] at tracked
        cases tracked
  · intro c old
    exact Nat.lt_succ_of_lt (grounded.vapStation c old)
  · intro key s found
    dsimp only at found
    by_cases same : key = mac
    · subst same
      rw [AList.lookup_insert] at found
      cases found
      exact ⟨Nat.lt_succ_self _, Function.update_self _ _ _⟩
    · rw [AList.lookup_insert_ne same] at found
      obtain ⟨old, named⟩ := grounded.tracked key s found
      exact ⟨Nat.lt_succ_of_lt old, (macs old).trans named⟩

theorem Grounded.createAgent (grounded : Grounded b agentMap isOpen) (mac : Text) (sc : Ref) :
    Grounded (b.createAgent mac sc) agentMap isOpen := by
  have macs {a : Ref} (old : a < b.nextAgent) : (b.createAgent mac sc).agentMac a = b.agentMac a :=
    Function.update_of_ne (Nat.ne_of_lt old) _ _
  have keys {c : Ref} (old : c < b.nextVap) : (b.createAgent mac sc).key c = b.key c := by
    simp only [Bindings.key]
    rw [show (b.createAgent mac sc).vapAgent c = b.vapAgent c from rfl,
      macs (grounded.vapAgent c old)]
    rfl
  refine ⟨?_, ?_, ?_, grounded.vapStation, grounded.tracked, ?_, ?_, ?_⟩
  · intro a key c found
    by_cases new : a = b.nextAgent
    · subst new
      simp [Bindings.createAgent] at found
    · have before : (b.held a).lookup key =
          some c := by simpa [Bindings.createAgent, new] using found
      obtain ⟨old, own, named⟩ := grounded.held a key c before
      exact ⟨old, own, named.trans (keys old).symm⟩
  · intro s key c found
    obtain ⟨old, named, tracked⟩ := grounded.stored s key c found
    exact ⟨old, named.trans (keys old).symm, tracked⟩
  · intro c old
    exact Nat.lt_succ_of_lt (grounded.vapAgent c old)
  · intro key a found
    obtain ⟨old, named⟩ := grounded.registered key a found
    exact ⟨Nat.lt_succ_of_lt old, (macs old).trans named⟩
  · intro channel a found
    obtain ⟨linked, opened, named⟩ := grounded.connected channel a found
    have old := (grounded.registered _ a named).1
    refine ⟨?_, opened, ?_⟩
    · exact (Function.update_of_ne (Nat.ne_of_lt old) _ _).trans linked
    · rw [macs old]
      exact named
  · intro a channel found
    by_cases new : a = b.nextAgent
    · subst new
      exact Nat.lt_succ_self _
    · have before : b.agentSc a = some channel := by simpa [Bindings.createAgent, new] using found
      exact Nat.lt_succ_of_lt (grounded.linked a channel before)

theorem Grounded.register (grounded : Grounded b agentMap isOpen) (mac : Text) (sc : Ref)
    (opened : isOpen sc = true)
    (freed : ∀ a, agentMap mac = some a → ∀ channel, b.sc2AgentMap channel = some a →
      channel = sc) :
    Grounded { b.createAgent mac sc with
      sc2AgentMap := Function.update b.sc2AgentMap sc (some b.nextAgent) }
      (Function.update agentMap mac (some b.nextAgent)) isOpen := by
  have grown := grounded.createAgent mac sc
  refine { grown with registered := ?_, connected := ?_ }
  · intro key a found
    by_cases same : key = mac
    · subst same
      rw [Function.update_self] at found
      cases found
      exact ⟨Nat.lt_succ_self _, Function.update_self _ _ _⟩
    · rw [Function.update_of_ne same] at found
      exact grown.registered key a found
  · intro channel a found
    dsimp only at found ⊢
    by_cases here : channel = sc
    · subst here
      rw [Function.update_self] at found
      cases found
      simp [Bindings.createAgent, opened]
    · rw [Function.update_of_ne here] at found
      obtain ⟨linked, channelOpen, named⟩ := grown.connected channel a found
      refine ⟨linked, channelOpen, ?_⟩
      rw [Function.update_of_ne]
      · exact named
      · intro same
        rw [same] at named
        exact here (freed a named channel found)

end Assignments

/-! Closing a connection. -/

theorem table_empty (table : Table) (absent : ∀ key c, table.lookup key ≠ some c) : table = ∅ := by
  refine AList.ext (List.eq_nil_iff_forall_not_mem.mpr ?_)
  rintro ⟨key, c⟩ member
  exact absent key c (AList.mem_lookup_iff.mpr member)

theorem shrinks_empty {b b' : Bindings} (shrinks : Shrinks b b') {a : Ref} (empty : b.held a = ∅) :
    b'.held a = ∅ := by
  refine table_empty _ fun key c found => ?_
  have before := shrinks.held a key c found
  rw [empty] at before
  cases before

theorem lookup_erase_own (table : Table) (key : Ref → Text) {c d : Ref}
    (found : table.lookup (key c) = some c) :
    (table.erase (key c)).lookup (key d) = some d ↔ d ≠ c ∧ table.lookup (key d) = some d := by
  by_cases same : key d = key c
  · rw [same, AList.lookup_erase, found]
    simp only [reduceCtorEq, Option.some.injEq, false_iff, not_and]
    exact fun other hit => other hit.symm
  · rw [AList.lookup_erase_ne same]
    refine ⟨fun hit => ⟨?_, hit⟩, fun both => both.2⟩
    rintro rfl
    exact same rfl

theorem values_iff {table : Table} {key : Ref → Text}
    (named : ∀ text c, table.lookup text = some c → text = key c) (c : Ref) :
    c ∈ table.values ↔ table.lookup (key c) = some c := by
  rw [mem_values]
  constructor
  · rintro ⟨text, found⟩
    have own := named text c found
    subst own
    exact found
  · intro found
    exact ⟨key c, found⟩

theorem stored_iff {v : View} (grounded : GroundedView v) (s c : Ref) :
    c ∈ (v.stations s).vapContainerSet.values ↔
      ((bindings v).stored s).lookup ((bindings v).key c) = some c :=
  values_iff (fun text d found => (grounded.stored s text d found).2.1) c

theorem held_iff {v : View} (grounded : GroundedView v) (a c : Ref) :
    c ∈ (v.agents a).vapContainerSet.values ↔
      ((bindings v).held a).lookup ((bindings v).key c) = some c :=
  values_iff (fun text d found => (grounded.held a text d found).2.2) c

theorem values_nodup (table : Table) (key : Ref → Text)
    (named : ∀ text c, table.lookup text = some c → text = key c) : table.values.Nodup := by
  refine List.Nodup.map_on ?_ table.nodupKeys.nodup
  rintro ⟨text, c⟩ member ⟨text', c'⟩ member' same
  dsimp only at same
  subst same
  rw [named text c (AList.mem_lookup_iff.mpr member),
    named text' c (AList.mem_lookup_iff.mpr member')]

theorem resetVap_cases (v : View) (a c : Ref) (grounded : GroundedView v) :
    (v.stations (v.vaps c).station).vapContainerSet.lookup (vapKey v c) ≠ some c ∧
      resetVap v a c = agentRemoveVap v a c ∨
    (v.stations (v.vaps c).station).vapContainerSet.lookup (vapKey v c) = some c ∧
      (v.stations (v.vaps c).station).workingVapContainer ≠ some c ∧
      resetVap v a c = agentRemoveVap (stationRemoveVap v (v.vaps c).station c) a c ∨
    (v.stations (v.vaps c).station).vapContainerSet.lookup (vapKey v c) = some c ∧
      (v.stations (v.vaps c).station).workingVapContainer = some c ∧
      resetVap v a c = agentRemoveVap (updateSumTraffic (setWorking (setStationStatus
        (stationRemoveVap v (v.vaps c).station c) (v.vaps c).station .offLine) (v.vaps c).station
          none)
          (v.vaps c).station) a c := by
  have listed : (v.stations (v.vaps c).station).vapContainerSet.values.contains c = true ↔
      (v.stations (v.vaps c).station).vapContainerSet.lookup (vapKey v c) = some c := by
    rw [List.contains_iff_mem]
    exact stored_iff grounded _ c
  have working : ((stationRemoveVap v (v.vaps c).station c).stations
      (v.vaps c).station).workingVapContainer =
      (v.stations (v.vaps c).station).workingVapContainer := by
    simp [stationRemoveVap, updStation]
  unfold resetVap
  dsimp only
  by_cases present : (v.stations (v.vaps c).station).vapContainerSet.values.contains c = true
  · simp only [if_pos present, working]
    by_cases here : (v.stations (v.vaps c).station).workingVapContainer = some c
    · exact .inr (.inr ⟨listed.mp present, here, by rw [if_pos here]⟩)
    · exact .inr (.inl ⟨listed.mp present, here, by rw [if_neg here]⟩)
  · simp only [if_neg present]
    exact .inl ⟨fun found => present (listed.mpr found), trivial⟩

theorem resetVap_releases (v : View) (a c : Ref) : ∃ b :
    Bindings, bindings (resetVap v a c) = b.release a c ∧
    (b = bindings v ∨ b = (bindings v).drop (v.vaps c).station c ∨
      b = (((bindings v).drop (v.vaps c).station c).setStatus (v.vaps c).station
        .offLine).setWorking
        (v.vaps c).station none) := by
  unfold resetVap
  simp only [bindings_agentRemoveVap]
  refine ⟨_, rfl, ?_⟩
  split
  · split
    · simp only [bindings_updateSumTraffic, bindings_setWorking, bindings_setStationStatus,
        bindings_stationRemoveVap]
      exact .inr (.inr trivial)
    · rw [bindings_stationRemoveVap]
      exact .inr (.inl rfl)
  · exact .inl rfl

theorem resetVap_shrinks (v : View) (a c : Ref) :
    Shrinks (bindings v) (bindings (resetVap v a c)) := by
  obtain ⟨b, result, before⟩ := resetVap_releases v a c
  rw [result]
  refine Shrinks.trans ?_ (shrinks_release b a c)
  rcases before with rfl | rfl | rfl
  · exact .refl _
  · exact shrinks_drop _ _ c
  · exact (shrinks_drop _ _ c).trans
      ((shrinks_setStatus_off _ _).trans (shrinks_setWorking _ _ none))

theorem resetVap_grounded (v : View) (a c : Ref) (grounded : GroundedView v) :
    GroundedView (resetVap v a c) := by
  rcases resetVap_cases v a c grounded with ⟨-, result⟩ | ⟨-, -, result⟩ | ⟨-, -, result⟩
  · rw [result]
    exact grounded_of (bindings_agentRemoveVap v a c) (channels_agentRemoveVap v a c)
      (Grounded.release grounded a c)
  · rw [result]
    refine grounded_of (v := v) (bindings_agentRemoveVap _ a c) (channels_agentRemoveVap _ a c) ?_
    rw [bindings_stationRemoveVap]
    exact (Grounded.drop grounded _ c).release a c
  · rw [result]
    refine grounded_of (v := v) (bindings_agentRemoveVap _ a c) (channels_agentRemoveVap _ a c) ?_
    rw [bindings_updateSumTraffic, bindings_setWorking, bindings_setStationStatus,
      bindings_stationRemoveVap]
    exact (((Grounded.drop grounded _ c).setStatus _ .offLine).setWorking _ none).release a c

theorem resetVap_held (v : View) (a c : Ref) : (bindings (resetVap v a c)).held =
    Function.update (bindings v).held a (((bindings v).held a).erase ((bindings v).key c)) := by
  obtain ⟨b, result, before⟩ := resetVap_releases v a c
  rw [result]
  rcases before with rfl | rfl | rfl <;> rfl

theorem resetVap_stored (v : View) (a c : Ref) (grounded : GroundedView v) :
    (bindings (resetVap v a c)).stored =
      if ((bindings v).stored ((bindings v).vapStation c)).lookup ((bindings v).key c) = some c then
        Function.update (bindings v).stored ((bindings v).vapStation c)
          (((bindings v).stored ((bindings v).vapStation c)).erase ((bindings v).key c))
      else (bindings v).stored := by
  rcases resetVap_cases v a c grounded with ⟨absent, result⟩ | ⟨found, -, result⟩ |
      ⟨found, -, result⟩
  · rw [result, bindings_agentRemoveVap]
    exact (if_neg absent).symm
  · rw [result, bindings_agentRemoveVap, bindings_stationRemoveVap]
    exact (if_pos found).symm
  · rw [result, bindings_agentRemoveVap, bindings_updateSumTraffic, bindings_setWorking,
      bindings_setStationStatus, bindings_stationRemoveVap]
    exact (if_pos found).symm

theorem resetVap_sc2AgentMap (v : View) (a c : Ref) :
    (resetVap v a c).sc2AgentMap = v.sc2AgentMap := by
  change (bindings (resetVap v a c)).sc2AgentMap = (bindings v).sc2AgentMap
  obtain ⟨b, result, before⟩ := resetVap_releases v a c
  rw [result]
  rcases before with rfl | rfl | rfl <;> rfl

theorem channels_resetVap (v : View) (a c : Ref) : channels (resetVap v a c) = channels v := by
  unfold resetVap
  refine (channels_agentRemoveVap _ a c).trans ?_
  split
  · dsimp only
    split
    · rfl
    · rfl
  · rfl

/-- The end of `closeSocket` for an agent whose containers are cleared. -/
def shut (v : View) (sc a : Ref) : View :=
  let removed := removeAgent
      (updAgent v a fun agent => { agent with lastHeard := 0, sc := none }) sc a
  { removed with isOpen := Function.update removed.isOpen sc false }

theorem closeSocket_registered (v : View) (order : Order) (sc a : Ref) (opened : v.isOpen sc = true)
    (registered : v.sc2AgentMap sc = some a) :
    closeSocket v order sc =
      shut (clearVaps { v with socketMap := Function.update v.socketMap sc false } order a) sc
        a := by
  simp only [closeSocket, opened, if_true, registered]
  rfl

theorem bindings_shut (v : View) (sc a : Ref) : bindings (shut v sc a) = { bindings v with
    agentSc := Function.update (bindings v).agentSc a none
    sc2AgentMap := Function.update v.sc2AgentMap sc none } := by
  have heard := bindings_agent_sc v a (fun agent => { agent with lastHeard := 0, sc := none })
      rfl rfl
  change { bindings (updAgent v a fun agent => { agent with lastHeard := 0, sc := none }) with
    sc2AgentMap := Function.update v.sc2AgentMap sc none } = _
  rw [heard]

theorem shut_agentMap (v : View) (sc a : Ref) :
    (shut v sc a).agentMap = Function.update v.agentMap (v.agents a).macAddress none := by
  simp [shut, removeAgent, mirror, updAgent]

theorem shut_grounded (v : View) (sc a : Ref) (grounded : GroundedView v)
    (registered : v.sc2AgentMap sc = some a) : GroundedView (shut v sc a) := by
  obtain ⟨linked, -, named⟩ := grounded.connected sc a registered
  -- an agent that is still found has another connection and another address
  have others (channel b : Ref) (found : Function.update v.sc2AgentMap sc none channel = some b) :
      channel ≠ sc ∧ v.sc2AgentMap channel = some b ∧ b ≠ a ∧
        (bindings v).agentMac b ≠ (bindings v).agentMac a := by
    have away : channel ≠ sc := by
      rintro rfl
      simp at found
    rw [Function.update_of_ne away] at found
    obtain ⟨linked', -, named'⟩ := grounded.connected channel b found
    have other : b ≠ a := by
      rintro rfl
      exact away (Option.some.inj (linked'.symm.trans linked))
    refine ⟨away, found, other, fun same => ?_⟩
    rw [same, named] at named'
    exact other (Option.some.inj named').symm
  unfold GroundedView
  rw [bindings_shut, shut_agentMap]
  refine { grounded with registered := ?_, connected := ?_, linked := ?_ }
  · intro mac b found
    by_cases same : mac = (v.agents a).macAddress
    · subst same
      simp at found
    · rw [Function.update_of_ne same] at found
      exact grounded.registered mac b found
  · intro channel b found
    obtain ⟨away, before, other, address⟩ := others channel b found
    obtain ⟨linked', opened, named'⟩ := grounded.connected channel b before
    refine ⟨?_, ?_, ?_⟩
    · exact (Function.update_of_ne other _ _).trans linked'
    · exact (Function.update_of_ne away _ _).trans opened
    · exact (Function.update_of_ne address _ _).trans named'
  · intro b channel found
    by_cases same : b = a
    · subst same
      simp at found
    · exact grounded.linked b channel ((Function.update_of_ne same _ _).symm.trans found)

/-- What holds before a connection is closed and survives the clearing of each container and
the end of the closing holds afterwards. -/
theorem closeSocket_induct (v : View) (order : Order) (sc : Ref) (holds : View → Prop)
    (grounded : GroundedView v) (start : holds v)
    (alike : ∀ w x, Alike w x → holds w → holds x)
    (clear : ∀ w a c, GroundedView w → w.sc2AgentMap sc = some a →
      (w.agents a).vapContainerSet.lookup (vapKey w c) = some c → holds w → holds (resetVap w a c))
    (finish : ∀ w a, GroundedView w → w.sc2AgentMap sc = some a → (w.agents a).vapContainerSet = ∅ →
      holds w → holds (shut w sc a))
    (unnamed : v.sc2AgentMap sc = none →
      holds { v with isOpen := Function.update v.isOpen sc false }) :
    holds (closeSocket v order sc) := by
  cases opened : v.isOpen sc with
  | false => simpa [closeSocket, opened] using start
  | true =>
      cases registered : v.sc2AgentMap sc with
      | none =>
          have result : closeSocket v order sc = { v with
              socketMap := Function.update v.socketMap sc false
              isOpen := Function.update v.isOpen sc false } := by simp [closeSocket, opened,
                registered]
          rw [result]
          exact alike { v with isOpen := Function.update v.isOpen sc false } _ rfl
            (unnamed registered)
      | some a =>
          rw [closeSocket_registered v order sc a opened registered]
          -- the containers that are left are exactly those the agent still holds
          have loop (rest : List Ref) (w : View) (ground : GroundedView w) (kept : holds w)
              (named : w.sc2AgentMap sc = some a) (distinct : rest.Nodup)
              (left : ∀ c, c ∈ rest ↔ (w.agents a).vapContainerSet.lookup (vapKey w c) = some c) :
              holds (shut (rest.foldl (fun w c => resetVap w a c) w) sc a) := by
            induction rest generalizing w with
            | nil =>
                refine finish w a ground named (table_empty _ ?_) kept
                intro key c found
                have own := (ground.held a key c found).2.2
                subst own
                exact absurd ((left c).mpr found) List.not_mem_nil
            | cons c rest ih =>
                have found := (left c).mp List.mem_cons_self
                refine ih (resetVap w a c) (resetVap_grounded w a c ground)
                  (clear w a c ground named found kept) ?_ distinct.of_cons ?_
                · rw [resetVap_sc2AgentMap]
                  exact named
                · intro d
                  change d ∈ rest ↔ ((bindings (resetVap w a c)).held a).lookup
                    ((bindings (resetVap w a c)).key d) = some d
                  rw [resetVap_held, (resetVap_shrinks w a c).key, Function.update_self]
                  rw [lookup_erase_own ((bindings w).held a) (bindings w).key found]
                  have before := left d
                  rw [List.mem_cons] at before
                  constructor
                  · intro member
                    refine ⟨?_, before.mp (.inr member)⟩
                    rintro rfl
                    exact (List.nodup_cons.mp distinct).1 member
                  · rintro ⟨other, still⟩
                    exact (before.mpr still).resolve_left other
          refine loop _ { v with socketMap := Function.update v.socketMap sc false } grounded
            (alike v _ rfl start) registered ?_ ?_
          · refine (order.perm _).nodup_iff.mpr (values_nodup _ (vapKey v) ?_)
            intro key c found
            exact (grounded.held a key c found).2.2
          · intro c
            rw [(order.perm _).mem_iff]
            exact held_iff grounded a c

theorem closeSocket_grounded (v : View) (order : Order) (sc : Ref) (grounded : GroundedView v) :
    GroundedView (closeSocket v order sc) := by
  refine closeSocket_induct v order sc GroundedView grounded grounded
    (fun w x same => same.grounded)
    (fun w a c ground _ _ _ => resetVap_grounded w a c ground)
    (fun w a ground registered _ _ => shut_grounded w sc a ground registered) ?_
  intro unnamed
  refine { grounded with connected := ?_ }
  intro channel a found
  obtain ⟨linked, opened, named⟩ := grounded.connected channel a found
  have other : channel ≠ sc := by
    rintro rfl
    exact absurd (unnamed.symm.trans found) (by simp)
  exact ⟨linked, (Function.update_of_ne other _ _).trans opened, named⟩

theorem shut_shrinks (v : View) (sc a : Ref) : Shrinks (bindings v) (bindings (shut v sc a)) := by
  rw [bindings_shut]
  refine { Shrinks.refl _ with registered := ?_, connected := ?_ }
  · intro channel b found
    by_cases here : channel = sc
    · subst here
      simp at found
    · exact (Function.update_of_ne here _ _).symm.trans found
  · intro b channel found
    by_cases here : b = a
    · subst here
      simp at found
    · exact (Function.update_of_ne here _ _).symm.trans found

theorem closeSocket_shrinks (v : View) (order : Order) (sc : Ref) (grounded : GroundedView v) :
    Shrinks (bindings v) (bindings (closeSocket v order sc)) := by
  refine closeSocket_induct v order sc (fun w => Shrinks (bindings v) (bindings w)) grounded
    (.refl _)
    ?_ (fun w a c _ _ _ before => before.trans (resetVap_shrinks w a c))
    (fun w a _ _ _ before => before.trans (shut_shrinks w sc a)) (fun _ => .refl _)
  intro w x same before
  rw [same.bindings]
  exact before

/-- The addresses, the tracked stations and what the containers are for stay as they are. -/
structure Steady (b b' : Bindings) : Prop where
  stationMac : b'.stationMac = b.stationMac
  agentMac : b'.agentMac = b.agentMac
  vapAgent : b'.vapAgent = b.vapAgent
  vapStation : b'.vapStation = b.vapStation
  vapSsid : b'.vapSsid = b.vapSsid
  stationMap : b'.stationMap = b.stationMap

theorem Steady.refl (b : Bindings) : Steady b b := ⟨rfl, rfl, rfl, rfl, rfl, rfl⟩

theorem Steady.trans {b b' b'' : Bindings} (first : Steady b b') (second : Steady b' b'') :
    Steady b b'' :=
  ⟨second.stationMac.trans first.stationMac, second.agentMac.trans first.agentMac,
    second.vapAgent.trans first.vapAgent, second.vapStation.trans first.vapStation,
    second.vapSsid.trans first.vapSsid, second.stationMap.trans first.stationMap⟩

theorem Steady.key {b b' : Bindings} (steady : Steady b b') : b'.key = b.key := by
  funext c
  simp only [Bindings.key, steady.stationMac, steady.agentMac, steady.vapAgent, steady.vapStation,
    steady.vapSsid]

def Tracked (v : View) (s : Ref) : Prop := v.stationMap.lookup (v.stations s).macAddress = some s

theorem Steady.tracked {v w : View} (steady : Steady (bindings v) (bindings w)) {s : Ref}
    (tracked : Tracked v s) : Tracked w s := by
  change (bindings w).stationMap.lookup ((bindings w).stationMac s) = some s
  rw [steady.stationMap, steady.stationMac]
  exact tracked

theorem resetVap_steady (v : View) (a c : Ref) :
    Steady (bindings v) (bindings (resetVap v a c)) := by
  obtain ⟨b, result, before⟩ := resetVap_releases v a c
  rw [result]
  rcases before with rfl | rfl | rfl <;> exact ⟨rfl, rfl, rfl, rfl, rfl, rfl⟩

theorem closeSocket_steady (v : View) (order : Order) (sc : Ref) (grounded : GroundedView v) :
    Steady (bindings v) (bindings (closeSocket v order sc)) := by
  refine closeSocket_induct v order sc (fun w => Steady (bindings v) (bindings w)) grounded
    (.refl _)
    ?_ (fun w a c _ _ _ before => before.trans (resetVap_steady w a c)) ?_
    (fun _ => ⟨rfl, rfl, rfl, rfl, rfl, rfl⟩)
  · intro w x same before
    rw [same.bindings]
    exact before
  · intro w a _ _ _ before
    rw [bindings_shut]
    exact before.trans ⟨rfl, rfl, rfl, rfl, rfl, rfl⟩

end LazyAS.ViewGround

import LazyAS.ViewUpkeep
import LazyAS.Runs

/-! The operations that bring stations, agents and containers into the view, and what each
of them does to the bindings. `Admits` lists the outcomes of a NEW_STA report. -/
namespace LazyAS.ViewGrowth
open WireText ControllerView Master VapBindings BindingLaws ViewUpkeep

/-- A change that keeps the bindings sound and both rules at every station. -/
structure Safe (b b' : Bindings) : Prop where
  sound : Sound b'
  coherent : ∀ s, Coherent b s → Coherent b' s
  single : ∀ s, Single b s → Single b' s

theorem Safe.trans {b b' b'' : Bindings} (first : Safe b b') (second : Safe b' b'') : Safe b b'' :=
  ⟨second.sound, fun s h => second.coherent s (first.coherent s h),
    fun s h => second.single s (first.single s h)⟩

theorem Safe.of_sheds {b b' : Bindings} (sound : Sound b) (sheds : Sheds b b') : Safe b b' :=
  ⟨sheds.shrinks.sound sound, sheds.coherent, fun _ single => sheds.shrinks.single single⟩

theorem Safe.of_eq {b b' : Bindings} (sound : Sound b) (same : b' = b) : Safe b b' := by
  subst same
  exact ⟨sound, fun _ h => h, fun _ h => h⟩

/-! Agents. -/

theorem bindings_registerAgent (v : View) (now : Int) (sc : Ref) (agentMacAddr : Text) :
    bindings (registerAgent v now sc agentMacAddr) =
      if v.socketMap sc then
        { (bindings v).createAgent agentMacAddr sc with
          sc2AgentMap := Function.update v.sc2AgentMap sc (some v.nextAgent) }
      else (bindings v).createAgent agentMacAddr sc := by
  unfold registerAgent
  dsimp only
  split
  · simp only [bindings, mirror, Bindings.createAgent, Function.comp_update]
  · simp only [bindings, Bindings.createAgent, Function.comp_update]

theorem registerAgent_safe (v : View) (now : Int) (sc : Ref) (agentMacAddr : Text)
    (sound : Sound (bindings v)) :
    Safe (bindings v) (bindings (registerAgent v now sc agentMacAddr)) := by
  have grown := sound.createAgent agentMacAddr sc
  -- no station is touched, so any other one may stand for the touched one
  have coherent (s : Ref) (before : Coherent (bindings v) s) :
      Coherent ((bindings v).createAgent agentMacAddr sc) s :=
    (touches_createAgent (bindings v) (s + 1) agentMacAddr sc).coherent sound
      (Nat.succ_ne_self s).symm before
  have single (s : Ref) (before : Single (bindings v) s) :
      Single ((bindings v).createAgent agentMacAddr sc) s := before
  rw [bindings_registerAgent]
  split
  · refine ⟨{ grown with registered := ?_ }, fun s h => { coherent s h with }, single⟩
    intro channel a found
    by_cases same : channel = sc
    · subst same
      simp only [Function.update_self] at found
      cases found
      exact Nat.lt_succ_self _
    · simp only [Function.update_of_ne same] at found
      exact grown.registered channel a found
  · exact ⟨grown, coherent, single⟩

theorem processMsgLocalMac_safe (v : View) (now : Int) (order : Order) (sc : Ref) (message : Text)
    (sound : Sound (bindings v)) :
    Safe (bindings v) (bindings (processMsgLocalMac v now order sc message)) := by
  unfold processMsgLocalMac
  split
  · exact .of_eq sound rfl
  · rename_i agentMacAddr _ _
    have closes : ∀ closed, (closed = v ∨ ∃ agentSc, closed = closeSocket v order agentSc) →
        Safe (bindings v) (bindings
          (if closed.isOpen sc then registerAgent closed now sc agentMacAddr
          else closed)) := by
      intro closed shape
      have kept : Safe (bindings v) (bindings closed) := by
        rcases shape with rfl | ⟨agentSc, rfl⟩
        · exact .of_eq sound rfl
        · exact .of_sheds sound (closeSocket_sheds v sound order agentSc)
      split
      · exact kept.trans (registerAgent_safe closed now sc agentMacAddr kept.sound)
      · exact kept
    apply closes
    grind

/-! Stations. -/

theorem probeStation_safe (v : View) (staMacAddr : Text) (sound : Sound (bindings v)) :
    Safe (bindings v) (bindings (probeStation v staMacAddr).1) := by
  unfold probeStation
  split
  · exact .of_eq sound rfl
  · have created : bindings (addStation { v with
        stations := Function.update v.stations v.nextStation
          { macAddress := staMacAddr, status := .offLine }
        nextStation := v.nextStation + 1 } staMacAddr v.nextStation) =
        { (bindings v).createStation staMacAddr .offLine with
          stationMap := v.stationMap.insert staMacAddr v.nextStation } := by
      simp only [bindings, addStation, mirror, Bindings.createStation, Function.comp_update]
    have grown := sound.createStation staMacAddr .offLine
    have touches := touches_createStation (bindings v) staMacAddr .offLine
    rw [created]
    refine ⟨{ grown with tracked := ?_ }, fun s before => ?_, fun s before => ?_⟩
    · intro mac t found
      by_cases same : mac = staMacAddr
      · subst same
        rw [AList.lookup_insert] at found
        cases found
        exact Nat.lt_succ_self _
      · rw [AList.lookup_insert_ne same] at found
        exact grown.tracked mac t found
    · by_cases same : s = v.nextStation
      · subst same
        exact coherent_idle (Function.update_self _ _ _) (Function.update_self _ _ _)
      · exact { touches.coherent sound same before with }
    · by_cases same : s = v.nextStation
      · subst same
        intro key key' c c' found
        simp [Bindings.createStation, bindings] at found
      · exact touches.single sound same before

theorem foldl_quiet {Item : Type} (v : View) (body : View → Item → View)
    (each : ∀ w item, bindings (body w item) = bindings w) (items : List Item) :
    bindings (items.foldl body v) = bindings v :=
  Runs.foldl_within (fun v w => bindings w = bindings v) (fun _ => rfl)
    (fun first second => second.trans first) body
    each items v

theorem processMsgProbeInfo_safe (v : View) (now : Int) (order : Order) (sc : Ref) (message : Text)
    (sound : Sound (bindings v)) :
    Safe (bindings v) (bindings (processMsgProbeInfo v now order sc message)) := by
  unfold processMsgProbeInfo
  split
  · rename_i a probe _ _
    have seen := probeStation_safe v probe.staMacAddr sound
    refine seen.trans (.of_eq seen.sound ?_)
    dsimp only
    split
    · split
      · rfl
      · refine (foldl_quiet _ _ ?_ _).trans (bindings_stationHeard _ _ _ _)
        intro w ssid
        split
        · exact bindings_setLastProbeHeard w _ now
        · rfl
    · rfl
  · exact .of_eq sound rfl

/-! Containers of an add command. -/

/-- The add command passes every check of `excuteAddVap` for station `s`. -/
structure Accepted (v : View) (now : Int) (order : Order) (isRoam : Bool)
    (message : StationCtrlMessage) (s : Ref) : Prop where
  connected : ∃ sc, (v.agents message.agent).sc = some sc ∧ (v.sc2AgentMap sc).isSome
  known : v.stationMap.lookup message.staMacAddr = some s
  online : agentStatus v message.agent now = .onLine
  allowed : checkSsidExist v order isRoam s message.agent message.ssid = some false
  absent : agentVap v message.agent s message.ssid = none

theorem Accepted.excuteAddVap_eq {v : View} {now : Int} {order : Order} {isRoam : Bool}
    {message : StationCtrlMessage} {s : Ref} (accepted : Accepted v now order isRoam message s) :
    excuteAddVap v now order isRoam message =
      (submit (createVap v now s message.agent message.ssid) (.add message.agent s message),
        true) := by
  obtain ⟨sc, connected, tracked⟩ := accepted.connected
  simp [excuteAddVap, connected, tracked, accepted.known, accepted.online, accepted.allowed,
    accepted.absent]

theorem Accepted.free {v : View} {now : Int} {order : Order} {isRoam : Bool}
    {message : StationCtrlMessage} {s : Ref} (accepted : Accepted v now order isRoam message s) :
    let created := setLastProbeHeard (newVapContainer v s message.agent message.ssid) v.nextVap now
    vapKey created v.nextVap ∉ (created.agents message.agent).vapContainerSet := by
  intro created
  have key : vapKey created v.nextVap =
      (v.agents message.agent).macAddress ++ (v.stations s).macAddress ++ message.ssid := by
    simp [created, vapKey, setLastProbeHeard, newVapContainer, updVap]
  rw [key]
  exact AList.lookup_eq_none.mp accepted.absent

theorem excuteAddVap_cases (v : View) (now : Int) (order : Order) (isRoam : Bool)
    (message : StationCtrlMessage) :
    (∃ s, Accepted v now order isRoam message s) ∨
    (excuteAddVap v now order isRoam message).1 = v ∨
    ∃ sc, (v.agents message.agent).sc = some sc ∧ agentStatus v message.agent now ≠ .onLine ∧
      (excuteAddVap v now order isRoam message).1 = closeSocket v order sc := by
  -- an add command creates a container if it is accepted; else at most the connection of a silent
  -- agent is closed
  unfold excuteAddVap
  dsimp only
  split
  · exact .inr (.inl rfl)
  · rename_i sc connected
    split
    · rename_i tracked
      split
      · exact .inr (.inl rfl)
      · rename_i s known
        split
        · rename_i online
          split
          · exact .inr (.inl rfl)
          · exact .inr (.inl rfl)
          · rename_i allowed
            split
            · exact .inr (.inl rfl)
            · rename_i absent
              exact .inl ⟨s, ⟨sc, connected, tracked⟩, known, online, allowed, absent⟩
        · rename_i silent
          exact .inr (.inr ⟨sc, connected, silent, rfl⟩)
    · exact .inr (.inl rfl)

def added (b : Bindings) (s a : Ref) (ssid : Text) : Bindings :=
  ((b.create s a ssid).hold a b.nextVap).store s b.nextVap

theorem bindings_createVap (v : View) (now : Int) (s a : Ref) (ssid : Text) :
    bindings (createVap v now s a ssid) = added (bindings v) s a ssid := by
  simp only [createVap, bindings_stationAddVap, bindings_agentAddVap, bindings_setLastProbeHeard,
    bindings_newVapContainer]
  rfl

/-! The outcomes of a NEW_STA report for a known station. -/

def resumed (b : Bindings) (s c : Ref) : Bindings :=
  ((b.setVap c .onLine).setWorking s (some c)).setStatus s .onLine

def adopted (b : Bindings) (s c : Ref) : Bindings :=
  ((b.setVap c .onLine).store s c).setWorking s (some c)

def joined (b : Bindings) (s a : Ref) (ssid : Text) : Bindings :=
  (adopted (b.create s a ssid) s b.nextVap).hold a b.nextVap

section Outcomes

variable {b : Bindings} {s : Ref}

theorem touches_resumed {c : Ref} (own : b.vapStation c = s) : Touches s b (resumed b s c) :=
  ((touches_setVap b s c .onLine own).trans (touches_setWorking _ s (some c))).trans
    (touches_setStatus _ s .onLine)

theorem touches_adopted {c : Ref} (own : b.vapStation c = s) : Touches s b (adopted b s c) :=
  ((touches_setVap b s c .onLine own).trans (touches_store _ s c)).trans
    (touches_setWorking _ s (some c))

theorem create_own (s a : Ref) (ssid : Text) : (b.create s a ssid).vapStation b.nextVap = s :=
  Function.update_self _ _ _

theorem touches_joined (s a : Ref) (ssid : Text) : Touches s b (joined b s a ssid) :=
  ((touches_create b s s a ssid).trans (touches_adopted (create_own s a ssid))).trans
    (touches_hold _ s a b.nextVap)

theorem touches_added (s a : Ref) (ssid : Text) : Touches s b (added b s a ssid) :=
  ((touches_create b s s a ssid).trans (touches_hold _ s a b.nextVap)).trans
    (touches_store _ s b.nextVap)

theorem hold_frame (b : Bindings) (a c : Ref) : ∃ held, b.hold a c = { b with held := held } := by
  unfold Bindings.hold
  split
  · exact ⟨b.held, rfl⟩
  · exact ⟨_, rfl⟩

theorem joined_working (s a : Ref) (ssid : Text) :
    (joined b s a ssid).working s = some b.nextVap := by
  obtain ⟨held, frame⟩ := hold_frame (adopted (b.create s a ssid) s b.nextVap) a b.nextVap
  unfold joined
  rw [frame]
  exact Function.update_self _ _ _

theorem joined_status (s a : Ref) (ssid : Text) : (joined b s a ssid).status = b.status := by
  obtain ⟨held, frame⟩ := hold_frame (adopted (b.create s a ssid) s b.nextVap) a b.nextVap
  unfold joined
  rw [frame]
  rfl

theorem resumed_sound (sound : Sound b) (c : Ref) : Sound (resumed b s c) :=
  ((sound.setVap c .onLine).setWorking (some c)).setStatus .onLine

theorem adopted_sound (sound : Sound b) {c : Ref} (old : c < b.nextVap) (own : b.vapStation c = s) :
    Sound (adopted b s c) :=
  ((sound.setVap c .onLine).store old own).setWorking (some c)

theorem joined_sound (sound : Sound b) {a : Ref} (ssid : Text) (agent : a < b.nextAgent)
    (station : s < b.nextStation) :
    Sound (joined b s a ssid) := by
  have created := sound.create ssid agent station
  exact (adopted_sound created (Nat.lt_succ_self _) (create_own s a ssid)).hold (Nat.lt_succ_self _)

theorem added_sound (sound : Sound b) {a : Ref} (ssid : Text) (agent : a < b.nextAgent)
    (station : s < b.nextStation) :
    Sound (added b s a ssid) := by
  have created := (sound.create ssid agent station).hold (a := a) (Nat.lt_succ_self _)
  refine created.store ?_ ?_
  · obtain ⟨held, frame⟩ := hold_frame (b.create s a ssid) a b.nextVap
    rw [frame]
    exact Nat.lt_succ_self _
  · obtain ⟨held, frame⟩ := hold_frame (b.create s a ssid) a b.nextVap
    rw [frame]
    exact create_own s a ssid

/-! The three-way agreement after each outcome. -/

theorem resumed_coherent (sound : Sound b) {c : Ref} {key : Text}
    (found : (b.stored s).lookup key = some c) :
    Coherent (resumed b s c) s := by
  obtain ⟨-, own, same⟩ := sound.stored s key c found
  constructor
  · simp [resumed, Bindings.setStatus, Bindings.setWorking]
  · intro w working
    simp only [resumed, Bindings.setStatus, Bindings.setWorking, Function.update_self] at working
    cases working
    exact ⟨Function.update_self _ _ _, own, same ▸ found⟩

theorem adopted_coherent {c : Ref} (own : b.vapStation c = s) (online : b.status s = .onLine) :
    Coherent (adopted b s c) s := by
  constructor
  · simp [adopted, Bindings.setWorking, Bindings.store, Bindings.setVap, online]
  · intro w working
    simp only [adopted, Bindings.setWorking, Function.update_self] at working
    cases working
    refine ⟨Function.update_self _ _ _, own, ?_⟩
    simp only [adopted, Bindings.setWorking, Bindings.store, Function.update_self]
    exact AList.lookup_insert _

theorem hold_coherent (coherent : Coherent b s) (a c : Ref) : Coherent (b.hold a c) s := by
  obtain ⟨held, frame⟩ := hold_frame b a c
  rw [frame]
  exact { coherent with }

theorem joined_coherent (a : Ref) (ssid : Text) (online : b.status s = .onLine) :
    Coherent (joined b s a ssid) s :=
  hold_coherent (adopted_coherent (create_own s a ssid) online) a b.nextVap

theorem create_key (s a : Ref) (ssid : Text) :
    (b.create s a ssid).key b.nextVap = b.agentMac a ++ b.stationMac s ++ ssid := by
  simp [Bindings.key, Bindings.create]

theorem added_coherent (sound : Sound b) (a : Ref) (ssid : Text) (coherent : Coherent b s)
    (spared : ∀ w, (b.stored s).lookup (b.agentMac a ++ b.stationMac s ++ ssid) = some w →
      b.working s ≠ some w) : Coherent (added b s a ssid) s := by
  have touches := touches_create b s s a ssid
  have created : Coherent (b.create s a ssid) s := by
    refine ⟨coherent.online, fun w working => ?_⟩
    obtain ⟨online, own, found⟩ := coherent.working w working
    have old := (sound.stored s _ w found).1
    rw [touches.key sound old, touches.vapStation w old]
    exact ⟨(Function.update_of_ne old.ne _ _).trans online, own, found⟩
  obtain ⟨held, frame⟩ := hold_frame (b.create s a ssid) a b.nextVap
  rw [added, frame]
  refine ⟨created.online, fun w working => ?_⟩
  obtain ⟨online, own, found⟩ := created.working w working
  refine ⟨online, own, ?_⟩
  simp only [Bindings.store, Function.update_self]
  refine (AList.lookup_insert_ne ?_).trans found
  intro same
  have hit : (b.create s a ssid).key w = b.agentMac a ++ b.stationMac s ++ ssid :=
    same.trans (create_key s a ssid)
  exact spared w (hit ▸ found) working

/-! At most one container on line after each outcome. -/

theorem resumed_single {c : Ref}
    (only : ∀ key c', (b.stored s).lookup key = some c' → b.vapStatus c' = .onLine → c' = c) :
    Single (resumed b s c) s := by
  have target (key : Text) (c' : Ref) (stored : (b.stored s).lookup key = some c')
      (online : (resumed b s c).vapStatus c' = .onLine) : c' = c := by
    by_contra different
    exact different (only key c' stored ((Function.update_of_ne different _ _).symm.trans online))
  intro key key' c₁ c₂ found₁ found₂ online₁ online₂
  rw [target key c₁ found₁ online₁, target key' c₂ found₂ online₂]

theorem adopted_single {c : Ref}
    (none : ∀ key c', (b.stored s).lookup key = some c' → b.vapStatus c' ≠ .onLine) :
    Single (adopted b s c) s := by
  have target (key : Text) (c' : Ref) (stored : ((adopted b s c).stored s).lookup key = some c')
      (online : (adopted b s c).vapStatus c' = .onLine) : c' = c := by
    by_contra different
    simp only [adopted, Bindings.setWorking, Bindings.store, Function.update_self] at stored
    by_cases hit : key = (b.setVap c .onLine).key c
    · rw [hit, AList.lookup_insert] at stored
      exact different (Option.some.inj stored).symm
    · rw [AList.lookup_insert_ne hit] at stored
      exact none key c' stored ((Function.update_of_ne different _ _).symm.trans online)
  intro key key' c₁ c₂ found₁ found₂ online₁ online₂
  rw [target key c₁ found₁ online₁, target key' c₂ found₂ online₂]

theorem hold_single (single : Single b s) (a c : Ref) : Single (b.hold a c) s := by
  obtain ⟨held, frame⟩ := hold_frame b a c
  rw [frame]
  exact single

theorem create_status (sound : Sound b) {t a c : Ref} {ssid key : Text}
    (found : (b.stored s).lookup key = some c) :
    (b.create t a ssid).vapStatus c = b.vapStatus c :=
  Function.update_of_ne (sound.stored s key c found).1.ne _ _

theorem create_single (sound : Sound b) (single : Single b s) (t a : Ref) (ssid : Text) :
    Single (b.create t a ssid) s := by
  intro key key' c c' found found' online online'
  rw [create_status sound found] at online
  rw [create_status sound found'] at online'
  exact single key key' c c' found found' online online'

theorem joined_single (sound : Sound b) (a : Ref) (ssid : Text)
    (none : ∀ key c, (b.stored s).lookup key = some c → b.vapStatus c ≠ .onLine) :
    Single (joined b s a ssid) s := by
  refine hold_single (adopted_single ?_) a b.nextVap
  intro key c found
  rw [create_status sound found]
  exact none key c found

theorem added_single (sound : Sound b) (a : Ref) (ssid : Text) (single : Single b s) :
    Single (added b s a ssid) s := by
  have created := hold_single (create_single sound single s a ssid) a b.nextVap
  obtain ⟨held, frame⟩ := hold_frame (b.create s a ssid) a b.nextVap
  have off : (b.create s a ssid).vapStatus b.nextVap ≠ .onLine := by simp [Bindings.create]
  rw [frame] at created
  rw [added, frame]
  have before (key : Text) (c : Ref) (online : (b.create s a ssid).vapStatus c = .onLine)
      (found : (((b.create s a ssid).stored s).insert ((b.create s a ssid).key b.nextVap)
        b.nextVap).lookup key = some c) : ((b.create s a ssid).stored s).lookup key = some c := by
    by_cases hit : key = (b.create s a ssid).key b.nextVap
    · rw [hit, AList.lookup_insert] at found
      cases found
      exact absurd online off
    · rwa [AList.lookup_insert_ne hit] at found
  intro key key' c c' found found' online online'
  simp only [Bindings.store, Function.update_self] at found found'
  exact created key key' c c' (before key c online found) (before key' c' online' found')
    online online'

theorem stray_single (sound : Sound b) (a : Ref) (ssid : Text) (single : Single b s) :
    Single (resumed (b.create s a ssid) s b.nextVap) s := by
  have created := create_single sound single s a ssid
  have same (key : Text) (c : Ref) (found : (b.stored s).lookup key = some c) :
      (resumed (b.create s a ssid) s b.nextVap).vapStatus c = (b.create s a ssid).vapStatus c :=
    Function.update_of_ne (sound.stored s key c found).1.ne _ _
  intro key key' c c' found found' online online'
  rw [same key c found] at online
  rw [same key' c' found'] at online'
  exact created key key' c c' found found' online online'

end Outcomes

/-- The report switches on a container that is, or gets, stored with the station. -/
def SwitchesOn (v : View) (s a : Ref) (ssid : Text) : Prop :=
  if isLinked v s a then
    if (v.stations s).status = .onLine then
      ∃ w, (v.stations s).workingVapContainer = some w ∧ (v.vaps w).agent ≠ a
    else stationVap v s a ssid ≠ none
  else stationVap v s a ssid = none

inductive Admits (v : View) (s a : Ref) (ssid : Text) : Bindings → Prop where
  | unchanged : Admits v s a ssid (bindings v)
  | resume (c : Ref) (stored : stationVap v s a ssid = some c) (switches : SwitchesOn v s a ssid) :
      Admits v s a ssid (resumed (bindings v) s c)
  | join (absent : stationVap v s a ssid = none) (switches : SwitchesOn v s a ssid) :
      Admits v s a ssid (joined (bindings v) s a ssid)
  | adopt (c : Ref) (absent : stationVap v s a ssid = none) (switches : SwitchesOn v s a ssid)
      (unlinked : isLinked v s a = false) (held : agentVap v a s ssid = some c) :
      Admits v s a ssid (adopted (bindings v) s c)
  | stray (absent : stationVap v s a ssid = none) (off : (v.stations s).status = .offLine)
      (after : Bindings) (shape : after = (bindings v).create s a ssid ∨
        after = resumed ((bindings v).create s a ssid) s v.nextVap) :
      Admits v s a ssid after

inductive Decided (v : View) (s a : Ref) (ssid : Text) : Bindings → Prop where
  | keep (stays : ¬ SwitchesOn v s a ssid) : Decided v s a ssid (bindings v)
  | resume (c : Ref) (stored : stationVap v s a ssid = some c) (switches : SwitchesOn v s a ssid) :
      Decided v s a ssid (resumed (bindings v) s c)
  | join (absent : stationVap v s a ssid = none) (switches : SwitchesOn v s a ssid)
      (free : isLinked v s a = true ∨ agentVap v a s ssid = none) :
      Decided v s a ssid (joined (bindings v) s a ssid)
  | adopt (c : Ref) (absent : stationVap v s a ssid = none) (switches : SwitchesOn v s a ssid)
      (unlinked : isLinked v s a = false) (held : agentVap v a s ssid = some c) :
      Decided v s a ssid (adopted (bindings v) s c)
  | stray (absent : stationVap v s a ssid = none) (linked : isLinked v s a = true)
      (off : (v.stations s).status = .offLine) (after : Bindings)
      (shape : after = (bindings v).create s a ssid ∨
        after = resumed ((bindings v).create s a ssid) s v.nextVap) : Decided v s a ssid after

theorem Decided.admits {v : View} {s a : Ref} {ssid : Text} {after : Bindings}
    (decided : Decided v s a ssid after) :
    Admits v s a ssid after := by
  cases decided with
  | keep stays => exact .unchanged
  | resume c stored switches => exact .resume c stored switches
  | join absent switches free => exact .join absent switches
  | adopt c absent switches unlinked held => exact .adopt c absent switches unlinked held
  | stray absent linked off after shape => exact .stray absent off after shape

theorem bindings_bringOnline (v : View) (now : Int) (s c : Ref) :
    bindings (bringOnline v now s c) = ((bindings v).setVap c .onLine).setWorking s (some c) := by
  simp only [bringOnline, bindings_setWorking, bindings_setLastProbeHeard, bindings_setVapStatus]

theorem stationVap_of_bindings {v w : View} (same : bindings w = bindings v) (s a : Ref)
    (ssid : Text) :
    stationVap w s a ssid = stationVap v s a ssid :=
  congrArg (fun b => (b.stored s).lookup (b.agentMac a ++ b.stationMac s ++ ssid)) same

theorem newStationKnown_online (v : View) (now : Int) (s a : Ref) (ssid : Text)
    (linked : isLinked v s a = true) (online : (v.stations s).status = .onLine) :
    Decided v s a ssid (bindings (newStationKnown v now s a ssid).1) := by
  have heard := bindings_stationHeard v s now (v.agents a).mode
  have same : ((stationHeard v s now (v.agents a).mode).stations s).workingVapContainer =
      (v.stations s).workingVapContainer := by
    simp [stationHeard, updStation]
  have vaps : (stationHeard v s now (v.agents a).mode).vaps = v.vaps := rfl
  simp only [newStationKnown, if_pos online, same, vaps, stationVap_of_bindings heard]
  cases working : (v.stations s).workingVapContainer with
  | none =>
      simp only [heard]
      exact .keep (by simp [SwitchesOn, linked, online, working])
  | some w =>
      by_cases here : (v.vaps w).agent = a
      · simp only [if_pos here, heard]
        exact .keep (by simp [SwitchesOn, linked, online, working, here])
      · have switches : SwitchesOn v s a ssid := by simp [SwitchesOn, linked, online, working, here]
        simp only [if_neg here]
        cases stored : stationVap v s a ssid with
        | some c =>
            simp only [bindings_setStationStatus, bindings_updateSumTraffic, bindings_bringOnline,
              heard]
            exact .resume c stored switches
        | none =>
            simp only [bindings_agentAddVap, bindings_setWorking, bindings_stationAddVap,
              bindings_setVapStatus, bindings_setLastProbeHeard, bindings_newVapContainer, heard]
            exact .join stored switches (.inl linked)

theorem newStationKnown_decided (v : View) (now : Int) (s a : Ref) (ssid : Text)
    (linked : isLinked v s a = true) :
    Decided v s a ssid (bindings (newStationKnown v now s a ssid).1) := by
  cases status : (v.stations s).status with
  | onLine => exact newStationKnown_online v now s a ssid linked status
  | offLine =>
      have contains : agentSetContains v s (.agent a) = true := (Bool.and_eq_true_iff.mp linked).1
      rw [newStationKnown, if_neg (by simp [status])]
      cases stored : stationVap v s a ssid with
      | some c =>
          have switches : SwitchesOn v s a ssid := by simp [SwitchesOn, linked, status, stored]
          simp only [contains, if_true, bindings_setStationStatus, bindings_updateSumTraffic,
            bindings_bringOnline, bindings_stationHeard]
          exact .resume c stored switches
      | none =>
          dsimp only
          split
          · simp only [bindings_setStationStatus, bindings_updateSumTraffic, bindings_bringOnline,
              bindings_stationHeard, bindings_newVapContainer]
            exact .stray stored linked status _ (.inr rfl)
          · simp only [bindings_newVapContainer]
            exact .stray stored linked status _ (.inl rfl)

theorem newStationLink_decided (v : View) (now : Int) (s a : Ref) (ssid : Text)
    (unlinked : isLinked v s a = false) :
    Decided v s a ssid (bindings (newStationLink v now s a ssid)) := by
  unfold newStationLink
  simp only [bindings_stationHeard]
  cases stored : stationVap v s a ssid with
  | some c => exact .keep (by simp [SwitchesOn, unlinked, stored])
  | none =>
      have switches : SwitchesOn v s a ssid := by simp [SwitchesOn, unlinked, stored]
      cases held : agentVap v a s ssid with
      | none =>
          simp only [bindings_agentAddVap, bindings_setWorking, bindings_stationAddVap,
            bindings_setLastProbeHeard, bindings_setVapStatus, bindings_newVapContainer]
          exact .join stored switches (.inr held)
      | some c =>
          simp only [bindings_setWorking, bindings_stationAddVap, bindings_setLastProbeHeard,
            bindings_setVapStatus]
          exact .adopt c stored switches unlinked held

theorem admitStation_decided (v : View) (now : Int) (s a : Ref) (staMacAddr ssid : Text)
    (known : v.stationMap.lookup staMacAddr = some s) :
    Decided v s a ssid (bindings (admitStation v now a staMacAddr ssid).1.1) := by
  simp only [admitStation, known]
  cases linked : isLinked v s a with
  | true => exact newStationKnown_decided v now s a ssid linked
  | false => exact newStationLink_decided v now s a ssid linked

/-! A NEW_STA report of a station that is not known. -/

theorem joined_stationMap (b : Bindings) (s a : Ref) (ssid : Text) :
    (joined b s a ssid).stationMap = b.stationMap := by
  obtain ⟨held, frame⟩ := hold_frame (adopted (b.create s a ssid) s b.nextVap) a b.nextVap
  rw [joined, frame]
  rfl

theorem bindings_createStation (v : View) (now : Int) (a : Ref) (staMacAddr ssid : Text) :
    bindings (createStation v now a staMacAddr ssid) =
      { joined ((bindings v).createStation staMacAddr .onLine) v.nextStation a ssid with
        stationMap := v.stationMap.insert staMacAddr v.nextStation } := by
  have created : bindings { v with
      stations := Function.update v.stations v.nextStation
        { macAddress := staMacAddr, status := .onLine }
      nextStation := v.nextStation + 1 } = (bindings v).createStation staMacAddr .onLine := by
    simp only [bindings, Bindings.createStation, Function.comp_update]
  have track (w : View) : bindings (addStation w staMacAddr v.nextStation) =
      { bindings w with stationMap := (bindings w).stationMap.insert staMacAddr v.nextStation } :=
        rfl
  unfold createStation
  dsimp only
  rw [track, bindings_agentAddVap, bindings_stationAddVap, bindings_bringOnline,
    bindings_newVapContainer, created]
  exact congrArg (fun table : Table => { joined _ v.nextStation a ssid with
    stationMap := table.insert staMacAddr v.nextStation }) (joined_stationMap _ _ _ _)

theorem joined_stored (b : Bindings) (s a : Ref) (ssid : Text) :
    ((joined b s a ssid).stored s).lookup
      ((joined b s a ssid).agentMac a ++ (joined b s a ssid).stationMac s ++ ssid) =
        some b.nextVap := by
  obtain ⟨held, frame⟩ := hold_frame (adopted (b.create s a ssid) s b.nextVap) a b.nextVap
  rw [joined, frame]
  simp only [adopted, Bindings.setWorking, Bindings.store, Function.update_self]
  have key : ((b.create s a ssid).setVap b.nextVap .onLine).key b.nextVap =
      b.agentMac a ++ b.stationMac s ++ ssid := create_key s a ssid
  rw [key]
  exact AList.lookup_insert _

theorem createStation_stored (v : View) (now : Int) (a : Ref) (staMacAddr ssid : Text) :
    stationVap (createStation v now a staMacAddr ssid) v.nextStation a ssid = some v.nextVap := by
  change ((bindings (createStation v now a staMacAddr ssid)).stored v.nextStation).lookup
    ((bindings (createStation v now a staMacAddr ssid)).agentMac a ++
      (bindings (createStation v now a staMacAddr ssid)).stationMac v.nextStation ++ ssid) = _
  rw [bindings_createStation]
  exact joined_stored ((bindings v).createStation staMacAddr .onLine) v.nextStation a ssid

theorem createStation_safe (v : View) (now : Int) (a : Ref) (staMacAddr ssid : Text)
    (sound : Sound (bindings v)) (agent : a < v.nextAgent) :
    Safe (bindings v) (bindings (createStation v now a staMacAddr ssid)) := by
  have created := sound.createStation staMacAddr .onLine
  have grown := joined_sound created ssid agent (Nat.lt_succ_self v.nextStation)
  have touches : Touches v.nextStation (bindings v)
      (joined ((bindings v).createStation staMacAddr .onLine) v.nextStation a ssid) :=
    (touches_createStation (bindings v) staMacAddr .onLine).trans
      (touches_joined v.nextStation a ssid)
  rw [bindings_createStation]
  refine ⟨{ grown with tracked := ?_ }, fun s before => ?_, fun s before => ?_⟩
  · intro mac t found
    by_cases same : mac = staMacAddr
    · subst same
      rw [AList.lookup_insert] at found
      cases found
      exact (Nat.lt_succ_self v.nextStation).trans_le
        (touches_joined (b := (bindings v).createStation mac .onLine) v.nextStation a
          ssid).nextStation
    · rw [AList.lookup_insert_ne same] at found
      exact grown.tracked mac t (by rwa [joined_stationMap])
  · by_cases same : s = v.nextStation
    · subst same
      exact { joined_coherent a ssid (Function.update_self _ _ _) with }
    · exact { touches.coherent sound same before with }
  · by_cases same : s = v.nextStation
    · subst same
      refine joined_single created a ssid ?_
      intro key c found
      simp [Bindings.createStation, bindings] at found
    · exact touches.single sound same before

theorem newStationLink_stored (v : View) (now : Int) (s a : Ref) (ssid : Text) {c : Ref}
    (stored : stationVap v s a ssid = some c) :
    bindings (newStationLink v now s a ssid) = bindings v := by
  simp only [newStationLink, stored, bindings_stationHeard]

/-! Admission as a whole. -/

/-- A container the report takes over from the agent belongs to the station. -/
def AdoptsOwn (v : View) (s a : Ref) (ssid : Text) : Prop :=
  isLinked v s a = false → stationVap v s a ssid = none →
    ∀ c, agentVap v a s ssid = some c → (v.vaps c).station = s

theorem Admits.sound {v : View} {s a : Ref} {ssid : Text} {after : Bindings}
    (admits : Admits v s a ssid after) (sound : Sound (bindings v)) (agent : a < v.nextAgent)
    (station : s < v.nextStation) (own : AdoptsOwn v s a ssid) : Sound after := by
  cases admits with
  | unchanged => exact sound
  | resume c stored switches => exact resumed_sound sound c
  | join absent switches => exact joined_sound sound ssid agent station
  | adopt c absent switches unlinked held =>
      exact adopted_sound sound (sound.held a _ c held) (own unlinked absent c held)
  | stray absent off after shape =>
      have created := sound.create ssid agent station
      rcases shape with rfl | rfl
      · exact created
      · exact resumed_sound created v.nextVap

theorem Admits.touches {v : View} {s a : Ref} {ssid : Text} {after : Bindings}
    (admits : Admits v s a ssid after) (sound : Sound (bindings v)) (own : AdoptsOwn v s a ssid) :
    Touches s (bindings v) after := by
  cases admits with
  | unchanged => exact .refl s _
  | resume c stored switches => exact touches_resumed (sound.stored s _ c stored).2.1
  | join absent switches => exact touches_joined s a ssid
  | adopt c absent switches unlinked held => exact touches_adopted (own unlinked absent c held)
  | stray absent off after shape =>
      have created := touches_create (bindings v) s s a ssid
      rcases shape with rfl | rfl
      · exact created
      · exact created.trans (touches_resumed (create_own s a ssid))

/-- The agent, the known station and the SSID of a NEW_STA report that passes the checks. -/
def reported (v : View) (order : Order) (sc : Ref) (message : Text) :
    Option (Ref × Ref × Text) := do
  let a ← v.sc2AgentMap sc
  let (_, staMacAddr, curPos) ← takeStation message
  let s ← v.stationMap.lookup staMacAddr
  let ssid ← resolveSsid v order a message curPos
  return (a, s, ssid)

theorem processMsgNewStation_outcome (v : View) (now : Int) (order : Order) (sc : Ref)
    (message : Text) (sound : Sound (bindings v)) :
    Safe (bindings v) (bindings (processMsgNewStation v now order sc message)) ∨
    ∃ a s ssid w, reported v order sc message = some (a, s, ssid) ∧ a < v.nextAgent ∧
      s < v.nextStation ∧ Admits v s a ssid (bindings w) ∧
      (Sound (bindings w) →
        Sheds (bindings w) (bindings (processMsgNewStation v now order sc message))) := by
  -- either the report is harmless, or it admits the station it is about and then sheds
  unfold processMsgNewStation
  split
  · rename_i a msgId staMacAddr curPos registered taken
    have agent : a < v.nextAgent := sound.registered sc a registered
    cases resolved : resolveSsid v order a message curPos with
    | none => exact .inl (.of_eq sound rfl)
    | some ssid =>
        have finished (admitted : (View × Bool) × Ref) (fine : Sound (bindings admitted.1.1)) :
            Sheds (bindings admitted.1.1) (bindings (if admitted.1.2 then
              let cleaned := delOtherVaps admitted.1.1 now order admitted.2 a ssid
              { cleaned with published := cleaned.published ++ [.newSta msgId staMacAddr a] }
            else admitted.1.1)) := by
          split
          · exact delOtherVaps_sheds admitted.1.1 fine now order admitted.2 a ssid
          · exact .refl _
        cases known : v.stationMap.lookup staMacAddr with
        | none =>
            have same : bindings (admitStation v now a staMacAddr ssid).1.1 =
                bindings (createStation v now a staMacAddr ssid) := by
              simp only [admitStation, known]
              exact newStationLink_stored _ now _ a ssid
                (createStation_stored v now a staMacAddr ssid)
            have created := createStation_safe v now a staMacAddr ssid sound agent
            rw [← same] at created
            exact .inl (created.trans (.of_sheds created.sound (finished _ created.sound)))
        | some s =>
            refine .inr ⟨a, s, ssid, (admitStation v now a staMacAddr ssid).1.1, ?_, agent,
              sound.tracked staMacAddr s known, ?_, finished _⟩
            · simp [reported, registered, taken, known, resolved]
            · exact (admitStation_decided v now s a staMacAddr ssid known).admits
  · exact .inl (.of_eq sound rfl)

/-! The other operations. -/

theorem sendCommand_sheds (v : View) (now : Int) (order : Order) (a : Ref) (frame : Text → Text)
    (message : StationCtrlMessage) (written : Bool) (sound : Sound (bindings v)) :
    Sheds (bindings v) (bindings (sendCommand v now order a frame message written)) := by
  have numbered : bindings (updAgent v a fun agent =>
      { agent with currentId := nextId (v.agents a) }) = bindings v :=
    bindings_agent_frame v a _ rfl rfl rfl
  have cancelled := cancelTask_sheds (updAgent v a fun agent =>
    { agent with currentId := nextId (v.agents a) }) (numbered ▸ sound) now order message
  rw [numbered] at cancelled
  have quiet (w : View) (same : bindings w = bindings (updAgent v a fun agent =>
      { agent with currentId := nextId (v.agents a) })) : Sheds (bindings v) (bindings w) := by
    rw [same, numbered]
    exact .refl _
  unfold sendCommand
  dsimp only
  split
  · exact cancelled
  · split
    · split
      · split
        · exact quiet _ rfl
        · exact quiet _ rfl
      · exact cancelled
    · split
      · exact cancelled
      · exact quiet _ rfl

theorem runTask_sheds (v : View) (now : Int) (order : Order) (task : Task) (written : Bool)
    (sound : Sound (bindings v)) :
    Sheds (bindings v) (bindings (runTask v now order task written)) := by
  cases task with
  | add a s message =>
      rw [runTask]
      exact sendCommand_sheds v now order a _ message written sound
  | del roamType a s ssid =>
      rw [runTask]
      exact sendCommand_sheds v now order a _ _ written sound
  | putSendMsg sendMsgId message => exact .refl _
  | schedule sendMsgId => exact .refl _

theorem checkSendMsg_sheds (v : View) (now : Int) (order : Order) (sendMsgId : Text)
    (sound : Sound (bindings v)) :
    Sheds (bindings v) (bindings (checkSendMsg v now order sendMsgId)) := by
  unfold checkSendMsg
  split
  · exact .refl _
  · split
    · exact .refl _
    · exact cancelTask_sheds v sound now order _
    · exact cancelTask_sheds v sound now order _

theorem processMsgFlowInfo_bindings (v : View) (sc : Ref) (message : Text) :
    bindings (processMsgFlowInfo v sc message) = bindings v := by
  rw [processMsgFlowInfo_eq]
  split
  · rfl
  · unfold countTraffic
    simp only [bindings_setUpTraffic, bindings_setDownTraffic]
    split
    · simp only [bindings_updateSumTraffic, bindings_addSumTraffic]
    · exact bindings_addSumTraffic v _ _ _

end LazyAS.ViewGrowth

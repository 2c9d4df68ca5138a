import LazyAS.VapBindings

/-! The laws of the bindings: what every reachable view keeps without condition, the two
rules about a station, and the kinds of change that keep them. A change either sheds
containers or touches one station only. -/
namespace LazyAS.BindingLaws
open WireText ControllerView VapBindings

theorem mem_values (table : Table) (c : Ref) :
    c ∈ table.values ↔ ∃ key, table.lookup key = some c := by
  simp only [Table.values, List.mem_map, Sigma.exists, ← AList.mem_lookup_iff, Option.mem_def]
  constructor
  · rintro ⟨key, _, found, rfl⟩
    exact ⟨key, found⟩
  · rintro ⟨key, found⟩
    exact ⟨key, c, found, rfl⟩

theorem lookup_erased (tables : Ref → Table) (i j : Ref) (key text : Text) (d : Ref) :
    (Function.update tables i ((tables i).erase key) j).lookup text = some d ↔
      ¬ (j = i ∧ text = key) ∧ (tables j).lookup text = some d := by
  by_cases same : j = i
  · subst same
    rw [Function.update_self]
    by_cases hit : text = key
    · subst hit
      simp [AList.lookup_erase]
    · rw [AList.lookup_erase_ne hit]
      simp [hit]
  · rw [Function.update_of_ne same]
    simp [same]

theorem lookup_inserted (tables : Ref → Table) (i j : Ref) (key text : Text) (c d : Ref) :
    (Function.update tables i ((tables i).insert key c) j).lookup text = some d ↔
      (j = i ∧ text = key ∧ d = c) ∨
        (¬ (j = i ∧ text = key) ∧ (tables j).lookup text = some d) := by
  by_cases same : j = i
  · subst same
    rw [Function.update_self]
    by_cases hit : text = key
    · subst hit
      simp [AList.lookup_insert, eq_comm]
    · rw [AList.lookup_insert_ne hit]
      simp [hit]
  · rw [Function.update_of_ne same]
    simp [same]

theorem lookup_erase_some {table : Table} {key other : Text} {c : Ref}
    (found : (table.erase other).lookup key = some c) : table.lookup key = some c := by
  by_cases same : key = other
  · subst same
    simp at found
  · rwa [AList.lookup_erase_ne same] at found

/-- References are allocated, and a container is stored under its own key with the
station it belongs to. -/
structure Sound (b : Bindings) : Prop where
  stored : ∀ s key c, (b.stored s).lookup key = some c →
    c < b.nextVap ∧ b.vapStation c = s ∧ key = b.key c
  held : ∀ a key c, (b.held a).lookup key = some c → c < b.nextVap
  vapAgent : ∀ c, c < b.nextVap → b.vapAgent c < b.nextAgent
  vapStation : ∀ c, c < b.nextVap → b.vapStation c < b.nextStation
  tracked : ∀ mac s, b.stationMap.lookup mac = some s → s < b.nextStation
  registered : ∀ sc a, b.sc2AgentMap sc = some a → a < b.nextAgent
  connected : ∀ a sc, b.agentSc a = some sc → a < b.nextAgent

structure Coherent (b : Bindings) (s : Ref) : Prop where
  online : b.status s = .onLine ↔ b.working s ≠ none
  working : ∀ c, b.working s = some c →
    b.vapStatus c = .onLine ∧ b.vapStation c = s ∧ (b.stored s).lookup (b.key c) = some c

/-- Of the containers stored with a station at most one is on line. -/
def Single (b : Bindings) (s : Ref) : Prop :=
  ∀ key key' c c', (b.stored s).lookup key = some c → (b.stored s).lookup key' = some c' →
    b.vapStatus c = .onLine → b.vapStatus c' = .onLine → c = c'

/-! Shedding: containers and connections only disappear or go off line. -/

structure Shrinks (b b' : Bindings) : Prop where
  key : b'.key = b.key
  vapAgent : b'.vapAgent = b.vapAgent
  vapStation : b'.vapStation = b.vapStation
  nextAgent : b'.nextAgent = b.nextAgent
  nextStation : b'.nextStation = b.nextStation
  nextVap : b'.nextVap = b.nextVap
  stored : ∀ s key c, (b'.stored s).lookup key = some c → (b.stored s).lookup key = some c
  held : ∀ a key c, (b'.held a).lookup key = some c → (b.held a).lookup key = some c
  status : ∀ s, b'.status s = .onLine → b.status s = .onLine
  vapStatus : ∀ c, b'.vapStatus c = .onLine → b.vapStatus c = .onLine
  tracked : ∀ mac s, b'.stationMap.lookup mac = some s → b.stationMap.lookup mac = some s
  registered : ∀ sc a, b'.sc2AgentMap sc = some a → b.sc2AgentMap sc = some a
  connected : ∀ a sc, b'.agentSc a = some sc → b.agentSc a = some sc

theorem Shrinks.refl (b : Bindings) : Shrinks b b :=
  ⟨rfl, rfl, rfl, rfl, rfl, rfl, fun _ _ _ h => h, fun _ _ _ h => h, fun _ h => h, fun _ h => h,
    fun _ _ h => h, fun _ _ h => h, fun _ _ h => h⟩

theorem Shrinks.trans {b b' b'' : Bindings} (first : Shrinks b b') (second : Shrinks b' b'') :
    Shrinks b b'' where
  key := second.key.trans first.key
  vapAgent := second.vapAgent.trans first.vapAgent
  vapStation := second.vapStation.trans first.vapStation
  nextAgent := second.nextAgent.trans first.nextAgent
  nextStation := second.nextStation.trans first.nextStation
  nextVap := second.nextVap.trans first.nextVap
  stored := fun s key c found => first.stored s key c (second.stored s key c found)
  held := fun a key c found => first.held a key c (second.held a key c found)
  status := fun s online => first.status s (second.status s online)
  vapStatus := fun c online => first.vapStatus c (second.vapStatus c online)
  tracked := fun mac s found => first.tracked mac s (second.tracked mac s found)
  registered := fun sc a found => first.registered sc a (second.registered sc a found)
  connected := fun a sc found => first.connected a sc (second.connected a sc found)

theorem Shrinks.sound {b b' : Bindings} (sheds : Shrinks b b') (sound : Sound b) : Sound b' where
  stored := by
    intro s key c found
    rw [sheds.nextVap, sheds.vapStation, sheds.key]
    exact sound.stored s key c (sheds.stored s key c found)
  held := fun a key c found => sheds.nextVap ▸ sound.held a key c (sheds.held a key c found)
  vapAgent := by
    rw [sheds.nextVap, sheds.vapAgent, sheds.nextAgent]
    exact sound.vapAgent
  vapStation := by
    rw [sheds.nextVap, sheds.vapStation, sheds.nextStation]
    exact sound.vapStation
  tracked := fun mac s found => sheds.nextStation ▸ sound.tracked mac s (sheds.tracked mac s found)
  registered := fun sc a found =>
    sheds.nextAgent ▸ sound.registered sc a (sheds.registered sc a found)
  connected := fun a sc found => sheds.nextAgent ▸ sound.connected a sc (sheds.connected a sc found)

theorem Shrinks.single {b b' : Bindings} (sheds : Shrinks b b') {s : Ref} (single : Single b s) :
    Single b' s := by
  intro key key' c c' found found' online online'
  exact single key key' c c' (sheds.stored s key c found) (sheds.stored s key' c' found')
    (sheds.vapStatus c online) (sheds.vapStatus c' online')

theorem Shrinks.offLine {b b' : Bindings} (sheds : Shrinks b b') {s : Ref}
    (off : b.status s = .offLine) : b'.status s = .offLine := by
  cases after : b'.status s with
  | offLine => rfl
  | onLine => exact absurd (off.symm.trans (sheds.status s after)) (by decide)

structure Sheds (b b' : Bindings) : Prop where
  shrinks : Shrinks b b'
  coherent : ∀ s, Coherent b s → Coherent b' s

theorem Sheds.refl (b : Bindings) : Sheds b b := ⟨.refl b, fun _ h => h⟩

theorem Sheds.trans {b b' b'' : Bindings} (first : Sheds b b') (second : Sheds b' b'') :
    Sheds b b'' :=
  ⟨first.shrinks.trans second.shrinks, fun s h => second.coherent s (first.coherent s h)⟩

section Assignments

variable (b : Bindings)

theorem shrinks_setStatus_off (s : Ref) : Shrinks b (b.setStatus s .offLine) :=
  { Shrinks.refl b with
    status := by
      intro t online
      by_cases same : t = s
      · subst same
        simp [Bindings.setStatus] at online
      · simpa [Bindings.setStatus, same] using online }

theorem shrinks_setWorking (s : Ref) (working : Option Ref) : Shrinks b (b.setWorking s working) :=
  { Shrinks.refl b with }

theorem shrinks_setVap_off (c : Ref) : Shrinks b (b.setVap c .offLine) :=
  { Shrinks.refl b with
    vapStatus := by
      intro d online
      by_cases same : d = c
      · subst same
        simp [Bindings.setVap] at online
      · simpa [Bindings.setVap, same] using online }

theorem shrinks_drop (s c : Ref) : Shrinks b (b.drop s c) :=
  { Shrinks.refl b with
    stored := by
      intro t key d found
      by_cases same : t = s
      · subst same
        simp only [Bindings.drop, Function.update_self] at found
        exact lookup_erase_some found
      · simpa only [Bindings.drop, Function.update_of_ne same] using found }

theorem shrinks_release (a c : Ref) : Shrinks b (b.release a c) :=
  { Shrinks.refl b with
    held := by
      intro t key d found
      by_cases same : t = a
      · subst same
        simp only [Bindings.release, Function.update_self] at found
        exact lookup_erase_some found
      · simpa only [Bindings.release, Function.update_of_ne same] using found }

end Assignments

/-! Touching one station: everything else keeps its fields; new objects may appear. -/

structure Touches (s : Ref) (b b' : Bindings) : Prop where
  vapAgent : ∀ c, c < b.nextVap → b'.vapAgent c = b.vapAgent c
  vapStation : ∀ c, c < b.nextVap → b'.vapStation c = b.vapStation c
  vapSsid : ∀ c, c < b.nextVap → b'.vapSsid c = b.vapSsid c
  agentMac : ∀ a, a < b.nextAgent → b'.agentMac a = b.agentMac a
  stationMac : ∀ t, t < b.nextStation → b'.stationMac t = b.stationMac t
  nextVap : b.nextVap ≤ b'.nextVap
  nextAgent : b.nextAgent ≤ b'.nextAgent
  nextStation : b.nextStation ≤ b'.nextStation
  status : ∀ t, t ≠ s → b'.status t = b.status t
  working : ∀ t, t ≠ s → b'.working t = b.working t
  stored : ∀ t, t ≠ s → b'.stored t = b.stored t
  vapStatus : ∀ c, c < b.nextVap → b.vapStation c ≠ s → b'.vapStatus c = b.vapStatus c

theorem Touches.refl (s : Ref) (b : Bindings) : Touches s b b :=
  ⟨fun _ _ => rfl, fun _ _ => rfl, fun _ _ => rfl, fun _ _ => rfl, fun _ _ => rfl, le_rfl, le_rfl,
    le_rfl, fun _ _ => rfl, fun _ _ => rfl, fun _ _ => rfl, fun _ _ _ => rfl⟩

theorem Touches.trans {s : Ref} {b b' b'' : Bindings} (first : Touches s b b')
    (second : Touches s b' b'') : Touches s b b'' where
  vapAgent := fun c old =>
    (second.vapAgent c (old.trans_le first.nextVap)).trans (first.vapAgent c old)
  vapStation := fun c old =>
    (second.vapStation c (old.trans_le first.nextVap)).trans (first.vapStation c old)
  vapSsid := fun c old => (second.vapSsid c (old.trans_le first.nextVap)).trans
    (first.vapSsid c old)
  agentMac := fun a old =>
    (second.agentMac a (old.trans_le first.nextAgent)).trans (first.agentMac a old)
  stationMac := fun t old =>
    (second.stationMac t (old.trans_le first.nextStation)).trans (first.stationMac t old)
  nextVap := first.nextVap.trans second.nextVap
  nextAgent := first.nextAgent.trans second.nextAgent
  nextStation := first.nextStation.trans second.nextStation
  status := fun t other => (second.status t other).trans (first.status t other)
  working := fun t other => (second.working t other).trans (first.working t other)
  stored := fun t other => (second.stored t other).trans (first.stored t other)
  vapStatus := by
    intro c old other
    have kept : b'.vapStation c ≠ s := by rwa [first.vapStation c old]
    exact (second.vapStatus c (old.trans_le first.nextVap) kept).trans (first.vapStatus c old other)

theorem Touches.key {s : Ref} {b b' : Bindings} (touches : Touches s b b') (sound : Sound b)
    {c : Ref} (old : c < b.nextVap) : b'.key c = b.key c := by
  simp only [Bindings.key, touches.vapAgent c old, touches.vapStation c old, touches.vapSsid c old,
    touches.agentMac _ (sound.vapAgent c old), touches.stationMac _ (sound.vapStation c old)]

theorem Touches.coherent {s t : Ref} {b b' : Bindings} (touches : Touches s b b') (sound : Sound b)
    (other : t ≠ s) (coherent : Coherent b t) : Coherent b' t where
  online := by
    rw [touches.status t other, touches.working t other]
    exact coherent.online
  working := by
    intro c working
    rw [touches.working t other] at working
    obtain ⟨online, own, found⟩ := coherent.working c working
    have old := (sound.stored t _ c found).1
    rw [touches.stored t other, touches.vapStatus c old (own ▸ other), touches.vapStation c old,
      touches.key sound old]
    exact ⟨online, own, found⟩

theorem Touches.single {s t : Ref} {b b' : Bindings} (touches : Touches s b b') (sound : Sound b)
    (other : t ≠ s) (single : Single b t) : Single b' t := by
  have same (key : Text) (c : Ref) (found : (b.stored t).lookup key = some c) :
      b'.vapStatus c = b.vapStatus c := by
    obtain ⟨old, own, -⟩ := sound.stored t key c found
    exact touches.vapStatus c old (own ▸ other)
  intro key key' c c' found found' online online'
  rw [touches.stored t other] at found found'
  rw [same key c found] at online
  rw [same key' c' found'] at online'
  exact single key key' c c' found found' online online'

section Growth

variable (b : Bindings) (s : Ref)

theorem touches_setStatus (status : Status) : Touches s b (b.setStatus s status) :=
  { Touches.refl s b with status := fun _ other => Function.update_of_ne other _ _ }

theorem touches_setWorking (working : Option Ref) : Touches s b (b.setWorking s working) :=
  { Touches.refl s b with working := fun _ other => Function.update_of_ne other _ _ }

theorem touches_setVap (c : Ref) (status : Status) (own : b.vapStation c = s) :
    Touches s b (b.setVap c status) :=
  { Touches.refl s b with
    vapStatus := by
      intro d _ other
      have different : d ≠ c := by
        rintro rfl
        exact other own
      exact Function.update_of_ne different _ _ }

theorem touches_store (c : Ref) : Touches s b (b.store s c) :=
  { Touches.refl s b with stored := fun _ other => Function.update_of_ne other _ _ }

theorem touches_hold (a c : Ref) : Touches s b (b.hold a c) := by
  unfold Bindings.hold
  split
  · exact .refl s b
  · exact { Touches.refl s b with }

theorem touches_create (t a : Ref) (ssid : Text) : Touches s b (b.create t a ssid) :=
  { Touches.refl s b with
    vapAgent := fun _ old => Function.update_of_ne old.ne _ _
    vapStation := fun _ old => Function.update_of_ne old.ne _ _
    vapSsid := fun _ old => Function.update_of_ne old.ne _ _
    vapStatus := fun _ old _ => Function.update_of_ne old.ne _ _
    nextVap := Nat.le_succ b.nextVap }

theorem touches_createStation (mac : Text) (status : Status) :
    Touches b.nextStation b (b.createStation mac status) :=
  { Touches.refl b.nextStation b with
    stationMac := fun _ old => Function.update_of_ne old.ne _ _
    status := fun _ other => Function.update_of_ne other _ _
    working := fun _ other => Function.update_of_ne other _ _
    stored := fun _ other => Function.update_of_ne other _ _
    nextStation := Nat.le_succ b.nextStation }

theorem touches_createAgent (mac : Text) (sc : Ref) : Touches s b (b.createAgent mac sc) :=
  { Touches.refl s b with
    agentMac := fun _ old => Function.update_of_ne old.ne _ _
    nextAgent := Nat.le_succ b.nextAgent }

variable {b s}

theorem Sound.setStatus (sound : Sound b) (status : Status) : Sound (b.setStatus s status) :=
  { sound with }

theorem Sound.setWorking (sound : Sound b) (working : Option Ref) :
    Sound (b.setWorking s working) :=
  { sound with }

theorem Sound.setVap (sound : Sound b) (c : Ref) (status : Status) : Sound (b.setVap c status) :=
  { sound with }

theorem Sound.store (sound : Sound b) {c : Ref} (old : c < b.nextVap) (own : b.vapStation c = s) :
    Sound (b.store s c) :=
  { sound with
    stored := by
      intro t key d found
      by_cases same : t = s
      · subst same
        simp only [Bindings.store, Function.update_self] at found
        by_cases hit : key = b.key c
        · subst hit
          rw [AList.lookup_insert] at found
          cases found
          exact ⟨old, own, rfl⟩
        · rw [AList.lookup_insert_ne hit] at found
          exact sound.stored t key d found
      · simp only [Bindings.store, Function.update_of_ne same] at found
        exact sound.stored t key d found }

theorem Sound.hold (sound : Sound b) {a c : Ref} (old : c < b.nextVap) : Sound (b.hold a c) := by
  unfold Bindings.hold
  split
  · exact sound
  · refine { sound with held := ?_ }
    intro t key d found
    by_cases same : t = a
    · subst same
      simp only [Function.update_self] at found
      by_cases hit : key = b.key c
      · subst hit
        rw [AList.lookup_insert] at found
        cases found
        exact old
      · rw [AList.lookup_insert_ne hit] at found
        exact sound.held t key d found
    · simp only [Function.update_of_ne same] at found
      exact sound.held t key d found

theorem Touches.sound {b' : Bindings} (touches : Touches s b b') (sound : Sound b)
    (stored : ∀ t key c, (b'.stored t).lookup key = some c → (b.stored t).lookup key = some c)
    (held : ∀ a key c, (b'.held a).lookup key = some c → (b.held a).lookup key = some c)
    (fresh : ∀ c, c < b'.nextVap → c < b.nextVap ∨
      b'.vapAgent c < b'.nextAgent ∧ b'.vapStation c < b'.nextStation)
    (tracked : ∀ mac t, b'.stationMap.lookup mac = some t → t < b'.nextStation)
    (registered : ∀ sc a, b'.sc2AgentMap sc = some a → a < b'.nextAgent)
    (connected : ∀ a sc, b'.agentSc a = some sc → a < b'.nextAgent) : Sound b' where
  stored := by
  -- a change that touches a station and stores nothing new keeps the bindings sound
    intro t key c found
    obtain ⟨old, own, same⟩ := sound.stored t key c (stored t key c found)
    refine ⟨old.trans_le touches.nextVap, ?_, ?_⟩
    · rw [touches.vapStation c old, own]
    · rw [touches.key sound old, same]
  held := fun a key c found => (sound.held a key c (held a key c found)).trans_le touches.nextVap
  vapAgent := by
    intro c bound
    rcases fresh c bound with old | new
    · rw [touches.vapAgent c old]
      exact (sound.vapAgent c old).trans_le touches.nextAgent
    · exact new.1
  vapStation := by
    intro c bound
    rcases fresh c bound with old | new
    · rw [touches.vapStation c old]
      exact (sound.vapStation c old).trans_le touches.nextStation
    · exact new.2
  tracked := tracked
  registered := registered
  connected := connected

theorem Sound.create (sound : Sound b) {a : Ref} (ssid : Text) (agent : a < b.nextAgent)
    (station : s < b.nextStation) : Sound (b.create s a ssid) := by
  refine (touches_create b s s a ssid).sound sound (fun _ _ _ found => found)
    (fun _ _ _ found => found) ?_ sound.tracked sound.registered sound.connected
  intro c bound
  rcases Nat.lt_succ_iff_lt_or_eq.mp bound with old | rfl
  · exact .inl old
  · right
    simp only [Bindings.create, Function.update_self]
    exact ⟨agent, station⟩

theorem Sound.createStation (sound : Sound b) (mac : Text) (status : Status) :
    Sound (b.createStation mac status) := by
  refine (touches_createStation b mac status).sound sound ?_ (fun _ _ _ found => found)
    (fun _ old => .inl old) ?_ sound.registered sound.connected
  · intro t key c found
    by_cases same : t = b.nextStation
    · subst same
      simp [Bindings.createStation] at found
    · simpa only [Bindings.createStation, Function.update_of_ne same] using found
  · intro mac t found
    exact Nat.lt_succ_of_lt (sound.tracked mac t found)

theorem Sound.createAgent (sound : Sound b) (mac : Text) (sc : Ref) :
    Sound (b.createAgent mac sc) := by
  refine (touches_createAgent b b.nextStation mac sc).sound sound (fun _ _ _ found => found) ?_
    (fun _ old => .inl old) sound.tracked ?_ ?_
  · intro a key c found
    by_cases same : a = b.nextAgent
    · subst same
      simp [Bindings.createAgent] at found
    · simpa only [Bindings.createAgent, Function.update_of_ne same] using found
  · intro sc a found
    exact Nat.lt_succ_of_lt (sound.registered sc a found)
  · intro a sc found
    by_cases same : a = b.nextAgent
    · subst same
      exact Nat.lt_succ_self _
    · simp only [Bindings.createAgent, Function.update_of_ne same] at found
      exact Nat.lt_succ_of_lt (sound.connected a sc found)

end Growth

end LazyAS.BindingLaws

import LazyAS.TrafficLedger

/-! The Redis hash of a tracked station against the station. Three assignments of the source keep
them together; creating a station that is on line and folding its counters do not, unless what the
source writes happens to be the same text. -/
namespace LazyAS.RedisMirror
open WireText ControllerView Master VapBindings BindingLaws ViewGrowth StationCoherence
  ViewGround ViewMoves
  StepEffects TrafficLedger Runs

def recorded (station : Station) : Redis.Field → Option Text
  | .staStatus => some station.status.text
  | .staSumUpTraffic => some (Redis.long station.sumUpTraffic)
  | .staSumDownTraffic => some (Redis.long station.sumDownTraffic)
  | .staUpTraffic => some (Redis.long station.upTraffic)
  | .staDownTraffic => some (Redis.long station.downTraffic)
  | _ => none

def NamesSet (field : Redis.Field) : Prop := field = .agentSsidSet ∨ field = .staVapContainerSet

structure Face where
  address : Ref → Text
  record : Ref → Redis.Field → Option Text
  stationMap : Table
  agentMap : Text → Option Ref
  redis : Redis.Hashes

def face (v : View) : Face where
  address := Station.macAddress ∘ v.stations
  record := recorded ∘ v.stations
  stationMap := v.stationMap
  agentMap := v.agentMap
  redis := v.redis

/-- Addresses have twelve characters and no station has the address of an agent, so neither a hash
nor a set that is deleted is that of a tracked station. -/
structure Mirrored (f : Face) : Prop where
  record : ∀ mac s, f.stationMap.lookup mac = some s → ∀ field text, f.record s field = some text →
    Redis.hget f.redis mac field = some text
  station : ∀ mac s, f.stationMap.lookup mac = some s →
    f.address s = mac ∧ mac.length = 12 ∧ f.agentMap mac = none
  agent : ∀ mac a, f.agentMap mac = some a → mac.length = 12
  sets : ∀ key field set, NamesSet field → Redis.hget f.redis key field = some set → set.length ≠ 12

theorem Mirrored.of_face {v w : View} (mirrored : Mirrored (face v)) (same : face w = face v) :
    Mirrored (face w) := same.symm ▸ mirrored

theorem tracked_of_face {v w : View} {s : Ref} (same : face w = face v) (tracked : Tracked v s) :
    Tracked w s := by
  change (face w).stationMap.lookup ((face w).address s) = some s
  rw [same]
  exact tracked

theorem face_alike {v w : View} (same : Alike v w) : face w = face v := same.read face

theorem face_updStation (v : View) (s : Ref) (change : Station → Station)
    (named : (change (v.stations s)).macAddress = (v.stations s).macAddress)
    (same : recorded (change (v.stations s)) = recorded (v.stations s)) :
    face (updStation v s change) = face v := by
  simp only [face, updStation]
  rw [comp_update_same Station.macAddress v.stations s _ named,
    comp_update_same recorded v.stations s _ same]

section Assignments

variable (v : View)

@[simp] theorem face_updAgent (a : Ref) (change : Agent → Agent) :
    face (updAgent v a change) = face v := rfl

@[simp] theorem face_newVapContainer (s a : Ref) (ssid : Text) :
    face (newVapContainer v s a ssid) = face v := rfl

@[simp] theorem face_setLastProbeHeard (c : Ref) (now : Int) :
    face (setLastProbeHeard v c now) = face v := rfl

@[simp] theorem face_setVapStatus (c : Ref) (status : Status) :
    face (setVapStatus v c status) = face v := by
  cases before : (v.vaps c).status <;> cases status <;> simp only [setVapStatus, before] <;> rfl

@[simp] theorem face_setWorking (s : Ref) (working : Option Ref) :
    face (setWorking v s working) = face v :=
  face_updStation v s _ rfl rfl

@[simp] theorem face_stationAddVap (s c : Ref) : face (stationAddVap v s c) = face v :=
  face_updStation v s _ rfl rfl

@[simp] theorem face_stationRemoveVap (s c : Ref) : face (stationRemoveVap v s c) = face v :=
  face_updStation v s _ rfl rfl

@[simp] theorem face_agentAddVap (a c : Ref) : face (agentAddVap v a c) = face v := by
  unfold agentAddVap
  split
  · rfl
  · rfl

@[simp] theorem face_agentRemoveVap (a c : Ref) : face (agentRemoveVap v a c) = face v := by
  unfold agentRemoveVap
  split
  · rfl
  · rfl

@[simp] theorem face_addSumTraffic (a : Ref) (up down : Int64) :
    face (addSumTraffic v a up down) = face v := rfl

end Assignments

/-! What the source writes for a tracked station. -/

/-- A change of the record of one station with the fields of its hash. -/
structure Written (f : Face) (s : Ref) (record : Redis.Field → Option Text) (redis : Redis.Hashes) :
    Prop where
  own : ∀ field text, record field = some text → Redis.hget redis (f.address s) field = some text
  others : ∀ key field, key ≠ f.address s →
    Redis.hget redis key field = Redis.hget f.redis key field
  sets : ∀ key field, NamesSet field → Redis.hget redis key field = Redis.hget f.redis key field

theorem Mirrored.write {f : Face} {s : Ref} {record : Redis.Field → Option Text}
    {redis : Redis.Hashes} (mirrored : Mirrored f)
    (tracked : f.stationMap.lookup (f.address s) = some s) (written : Written f s record redis) :
    Mirrored { f with record := Function.update f.record s record, redis := redis } where
  record := by
    intro mac t found field text
    have named : f.address t = mac := (mirrored.station mac t found).1
    subst named
    by_cases same : t = s
    · subst same
      dsimp only
      rw [Function.update_self]
      exact written.own field text
    · have other : f.address t ≠ f.address s := by
        intro here
        rw [here] at found
        exact same (Option.some.inj (found.symm.trans tracked))
      dsimp only
      rw [Function.update_of_ne same, written.others _ field other]
      exact mirrored.record _ t found field text
  station := mirrored.station
  agent := mirrored.agent
  sets := by
    intro key field set names
    dsimp only
    rw [written.sets key field names]
    exact mirrored.sets key field set names

/-! Hashes that come and go. -/

theorem Mirrored.apart {f : Face} (mirrored : Mirrored f) {mac key : Text} {s : Ref}
    {field : Redis.Field} (names : NamesSet field) (found : f.stationMap.lookup mac = some s)
    (set : Text) (named : Redis.hget f.redis key field = some set) : mac ≠ set := by
  rintro rfl
  exact mirrored.sets key field mac names named (mirrored.station mac s found).2.1

theorem Mirrored.forgetAgent {f : Face} {mac : Text} {a : Ref} (mirrored : Mirrored f)
    (registered : f.agentMap mac = some a) :
    Mirrored { f with
      agentMap := Function.update f.agentMap mac none, redis := Redis.delAgent f.redis mac } where
  record := by
    intro mac' s found field text held
    have other : mac' ≠ mac := by
      rintro rfl
      cases (mirrored.station mac' s found).2.2.symm.trans registered
    refine (Redis.hget_delWithSet_of_ne f.redis field other ?_).trans
      (mirrored.record mac' s found field text held)
    exact mirrored.apart (.inl rfl) found
  station := by
    intro mac' s found
    obtain ⟨named, length, free⟩ := mirrored.station mac' s found
    refine ⟨named, length, ?_⟩
    dsimp only
    by_cases same : mac' = mac
    · simp [same]
    · rw [Function.update_of_ne same]
      exact free
  agent := by
    intro mac' b found
    dsimp only at found
    by_cases same : mac' = mac
    · simp [same] at found
    · rw [Function.update_of_ne same] at found
      exact mirrored.agent mac' b found
  sets := fun key field set names held =>
    mirrored.sets key field set names (Redis.hget_of_delWithSet f.redis held)

theorem Mirrored.forgetStation {f : Face} (mac : Text) (mirrored : Mirrored f) :
    Mirrored { f with
      stationMap := f.stationMap.erase mac, redis := Redis.delStation f.redis mac } where
  record := by
    intro mac' s found field text held
    have before := lookup_erase_some found
    have other : mac' ≠ mac := by
      rintro rfl
      exact absurd found (by simp [AList.lookup_erase])
    refine (Redis.hget_delWithSet_of_ne f.redis field other ?_).trans
      (mirrored.record mac' s before field text held)
    exact mirrored.apart (.inr rfl) before
  station := fun mac' s found => mirrored.station mac' s (lookup_erase_some found)
  agent := mirrored.agent
  sets := fun key field set names held =>
    mirrored.sets key field set names (Redis.hget_of_delWithSet f.redis held)

theorem Mirrored.registerAgent {f : Face} {mac : Text} (a : Ref) (channel mode : Text)
    (mirrored : Mirrored f) (length : mac.length = 12) (free : f.stationMap.lookup mac = none) :
    Mirrored { f with
      agentMap := Function.update f.agentMap mac (some a)
      redis := Redis.addAgent f.redis mac channel mode } where
  record := by
    intro mac' s found field text held
    have other : mac' ≠ mac := by
      rintro rfl
      cases found.symm.trans free
    exact (Redis.hget_addAgent_of_ne f.redis channel mode field other).trans
      (mirrored.record mac' s found field text held)
  station := by
    intro mac' s found
    obtain ⟨named, long, none⟩ := mirrored.station mac' s found
    refine ⟨named, long, ?_⟩
    have other : mac' ≠ mac := by
      rintro rfl
      cases found.symm.trans free
    exact (Function.update_of_ne other _ _).trans none
  agent := by
    intro mac' b found
    dsimp only at found
    by_cases same : mac' = mac
    · exact same ▸ length
    · rw [Function.update_of_ne same] at found
      exact mirrored.agent mac' b found
  sets := by
    intro key field set names held
    by_cases same : key = mac
    · subst same
      rcases names with rfl | rfl
      · simp only [Redis.addAgent, Redis.hget_hset, and_self, if_true, Option.some.injEq] at held
        subst held
        simp [length]
      · simp [Redis.addAgent, Redis.hget_hset] at held
        exact mirrored.sets key _ set (.inr rfl) held
    · dsimp only at held
      rw [Redis.hget_addAgent_of_ne f.redis channel mode field same] at held
      exact mirrored.sets key field set names held

theorem Mirrored.trackStation {f : Face} {mac : Text} (s : Ref) (mirrored : Mirrored f)
    (unknown : ∀ mac', f.stationMap.lookup mac' ≠ some s) (length : mac.length = 12)
    (free : f.agentMap mac = none) :
    Mirrored { f with
      address := Function.update f.address s mac
      record := Function.update f.record s (recorded { macAddress := mac, status := .offLine })
      stationMap := f.stationMap.insert mac s
      redis := Redis.addStation f.redis mac Status.offLine.text } where
  record := by
  -- a new station is off line and has counted nothing, as its hash says
    intro mac' t found field text held
    dsimp only at found held ⊢
    by_cases same : mac' = mac
    · subst same
      rw [AList.lookup_insert] at found
      cases found
      rw [Function.update_self] at held
      cases field <;> cases held <;> simp [Redis.addStation, Redis.hget_hset, Redis.long_zero]
    · rw [AList.lookup_insert_ne same] at found
      have other : t ≠ s := by
        rintro rfl
        exact unknown mac' found
      rw [Function.update_of_ne other] at held
      exact (Redis.hget_addStation_of_ne f.redis _ field same).trans
        (mirrored.record mac' t found field text held)
  station := by
    intro mac' t found
    dsimp only at found ⊢
    by_cases same : mac' = mac
    · subst same
      rw [AList.lookup_insert] at found
      cases found
      exact ⟨Function.update_self _ _ _, length, free⟩
    · rw [AList.lookup_insert_ne same] at found
      have other : t ≠ s := by
        rintro rfl
        exact unknown mac' found
      rw [Function.update_of_ne other]
      exact mirrored.station mac' t found
  agent := mirrored.agent
  sets := by
    intro key field set names held
    by_cases same : key = mac
    · subst same
      rcases names with rfl | rfl
      · simp [Redis.addStation, Redis.hget_hset] at held
        exact mirrored.sets key _ set (.inl rfl) held
      · simp [Redis.addStation, Redis.hget_hset] at held
        subst held
        simp [length]
    · dsimp only at held
      rw [Redis.hget_addStation_of_ne f.redis _ field same] at held
      exact mirrored.sets key field set names held

section Station

variable {v : View} {s : Ref}

theorem Mirrored.known (mirrored : Mirrored (face v)) (tracked : Tracked v s) :
    (v.redis (v.stations s).macAddress).isSome = true :=
  Redis.isSome_of_hget v.redis (mirrored.record _ s tracked .staStatus _ rfl)

theorem setter_mirrored (change : Station → Station) (field : Redis.Field) (value : Text)
    (own : recorded (change (v.stations s)) field = some value)
    (rest : ∀ other, other ≠ field →
      recorded (change (v.stations s)) other = recorded (v.stations s) other)
    (named : (change (v.stations s)).macAddress = (v.stations s).macAddress)
    (plain : ¬ NamesSet field)
    (tracked : Tracked v s) (mirrored : Mirrored (face v)) :
    Mirrored (face (mirror (updStation v s change) fun redis =>
      Redis.hsetKnown redis (v.stations s).macAddress field value)) := by
  -- a setter that writes its field keeps the mirror
  have result : face (mirror (updStation v s change) fun redis =>
      Redis.hsetKnown redis (v.stations s).macAddress field value) = { face v with
        record := Function.update (face v).record s (recorded (change (v.stations s)))
        redis := Redis.hsetKnown v.redis (v.stations s).macAddress field value } := by
    simp only [face, mirror, updStation, Function.comp_update recorded]
    rw [comp_update_same Station.macAddress v.stations s _ named]
  rw [result]
  refine mirrored.write tracked ⟨?_, ?_, ?_⟩
  · intro other text found
    rw [Redis.hget_hsetKnown]
    by_cases same : other = field
    · subst same
      rw [if_pos ⟨⟨rfl, rfl⟩, mirrored.known tracked⟩, ← own]
      exact found
    · rw [if_neg (fun both => same both.1.2)]
      exact mirrored.record _ s tracked other text ((rest other same).symm.trans found)
  · intro key other away
    rw [Redis.hget_hsetKnown, if_neg (fun both => away both.1.1)]
    rfl
  · intro key other names
    rw [Redis.hget_hsetKnown, if_neg]
    · rfl
    · rintro ⟨⟨-, rfl⟩, -⟩
      exact plain names

theorem setStationStatus_mirrored (status : Status) (tracked : Tracked v s)
    (mirrored : Mirrored (face v)) :
    Mirrored (face (setStationStatus v s status)) := by
  refine setter_mirrored (fun station => { station with status := status }) .staStatus
    status.text rfl ?_
    rfl ?_ tracked mirrored
  · intro other away
    cases other <;> first | rfl | exact absurd rfl away
  · rintro (names | names) <;> cases names

theorem setUpTraffic_mirrored (up : Int64) (tracked : Tracked v s) (mirrored : Mirrored (face v)) :
    Mirrored (face (setUpTraffic v s up)) := by
  refine setter_mirrored (fun station => { station with upTraffic := up }) .staUpTraffic
    (Redis.long up) rfl ?_
    rfl ?_ tracked mirrored
  · intro other away
    cases other <;> first | rfl | exact absurd rfl away
  · rintro (names | names) <;> cases names

theorem setDownTraffic_mirrored (down : Int64) (tracked : Tracked v s)
    (mirrored : Mirrored (face v)) :
    Mirrored (face (setDownTraffic v s down)) := by
  refine setter_mirrored (fun station => { station with downTraffic := down }) .staDownTraffic
    (Redis.long down)
    rfl ?_ rfl ?_ tracked mirrored
  · intro other away
    cases other <;> first | rfl | exact absurd rfl away
  · rintro (names | names) <;> cases names

def Even (v : View) (s : Ref) : Prop := (accounts v).station s .up = (accounts v).station s .down

theorem Even.of_accounts {v w : View} {s : Ref} (even : Even v s) (same : accounts w = accounts v) :
    Even w s := by
  unfold Even
  rw [same]
  exact even

def folded (station : Station) : Station :=
  { station with
    sumDownTraffic := station.sumDownTraffic + station.downTraffic
    sumUpTraffic := station.sumUpTraffic + station.upTraffic
    downTraffic := 0
    upTraffic := 0 }

/-- The writes of `updateSumTraffic`: each sum stands under the name of the other. -/
def foldedHash (redis : Redis.Hashes) (station : Station) : Redis.Hashes :=
  let sumUp := Redis.hsetKnown redis station.macAddress .staSumUpTraffic
      (Redis.long station.sumDownTraffic)
  let sumDown := Redis.hsetKnown sumUp station.macAddress .staSumDownTraffic
      (Redis.long station.sumUpTraffic)
  let up := Redis.hsetKnown sumDown station.macAddress .staUpTraffic
      (Redis.long station.downTraffic)
  Redis.hsetKnown up station.macAddress .staDownTraffic (Redis.long station.upTraffic)

theorem face_updateSumTraffic : face (updateSumTraffic v s) = { face v with
    record := Function.update (face v).record s (recorded (folded (v.stations s)))
    redis := foldedHash v.redis (folded (v.stations s)) } := by
  have address : Station.macAddress ∘ Function.update v.stations s (folded (v.stations s)) =
      Station.macAddress ∘ v.stations := comp_update_same _ _ _ _ rfl
  have record : recorded ∘ Function.update v.stations s (folded (v.stations s)) =
      Function.update (recorded ∘ v.stations) s (recorded (folded (v.stations s))) :=
        Function.comp_update _ _ _ _
  have stations : (updateSumTraffic v s).stations =
      Function.update v.stations s (folded (v.stations s)) := rfl
  have redis : (updateSumTraffic v s).redis = foldedHash v.redis (folded (v.stations s)) := by
    simp only [updateSumTraffic, mirror, updStation, Function.update_self]
    rfl
  unfold face
  rw [redis, stations, address, record]
  rfl

theorem updateSumTraffic_mirrored (even : Even v s) (tracked : Tracked v s)
    (mirrored : Mirrored (face v)) :
    Mirrored (face (updateSumTraffic v s)) := by
  -- the texts are right where the sums are equal
  have known := mirrored.known tracked
  have sums : (folded (v.stations s)).sumUpTraffic = (folded (v.stations s)).sumDownTraffic := even
  have named : (folded (v.stations s)).macAddress = (v.stations s).macAddress := rfl
  rw [face_updateSumTraffic]
  refine mirrored.write tracked ⟨?_, ?_, ?_⟩
  · intro field text found
    change Redis.hget (foldedHash v.redis (folded (v.stations s))) (v.stations s).macAddress field =
      some text
    simp only [foldedHash, named, Redis.hget_hsetKnown, Redis.isSome_hsetKnown, known, and_true,
      true_and]
    cases field with
    | staStatus => exact mirrored.record _ s tracked .staStatus text found
    | staSumUpTraffic => exact (congrArg (some ∘ Redis.long) sums).symm.trans found
    | staSumDownTraffic => exact (congrArg (some ∘ Redis.long) sums).trans found
    | staUpTraffic => exact found
    | staDownTraffic => exact found
    | _ => cases found
  · intro key field away
    have other : key ≠ (v.stations s).macAddress := away
    simp only [foldedHash, named, Redis.hget_hsetKnown, other, false_and, if_false]
    rfl
  · intro key field names
    rcases names with rfl | rfl
    · simp [foldedHash, Redis.hget_hsetKnown, face]
    · simp [foldedHash, Redis.hget_hsetKnown, face]

theorem updateSumTraffic_swaps (tracked : Tracked v s) (mirrored : Mirrored (face v)) :
    let w := updateSumTraffic v s
    Redis.hget w.redis (v.stations s).macAddress .staSumUpTraffic =
      some (Redis.long (w.stations s).sumDownTraffic) ∧
    Redis.hget w.redis (v.stations s).macAddress .staSumDownTraffic =
      some (Redis.long (w.stations s).sumUpTraffic) := by
  have known := mirrored.known tracked
  have redis : (updateSumTraffic v s).redis = foldedHash v.redis (folded (v.stations s)) :=
    congrArg Face.redis face_updateSumTraffic
  have station : (updateSumTraffic v s).stations s = folded (v.stations s) :=
    Function.update_self _ _ _
  have named : (folded (v.stations s)).macAddress = (v.stations s).macAddress := rfl
  dsimp only
  rw [redis, station]
  simp [foldedHash, named, Redis.hget_hsetKnown, Redis.isSome_hsetKnown, known]

end Station

theorem createStation_off (v : View) (now : Int) (a : Ref) (mac ssid : Text) :
    ((createStation v now a mac ssid).stations v.nextStation).status = .onLine ∧
    Redis.hget (createStation v now a mac ssid).redis mac .staStatus =
      some Status.offLine.text := by
  constructor
  · have after := congrFun (congrArg Bindings.status (bindings_createStation v now a mac ssid))
        v.nextStation
    refine after.trans ?_
    dsimp only
    rw [joined_status]
    exact Function.update_self _ _ _
  · simp [createStation, addStation, mirror, Redis.addStation, Redis.hget_hset]

/-! Closing a connection folds the counters of the stations that work there. -/

def contact (agent : Agent) : Option Ref × Int := (agent.sc, agent.lastHeard)

def contacts (v : View) : Ref → Option Ref × Int := contact ∘ v.agents

/-- What losses on the way leave of the view they started from. -/
structure Fades (v w : View) : Prop where
  shrinks : Shrinks (bindings v) (bindings w)
  working : ∀ t c, (w.stations t).workingVapContainer = some c →
    (v.stations t).workingVapContainer = some c
  contact : ∀ b, (w.agents b).sc = none ∨ contacts w b = contacts v b

theorem contact_losses {v w : View} (moves : Losses v w) (b : Ref) :
    (w.agents b).sc = none ∨ contacts w b = contacts v b := by
  cases linked : (w.agents b).sc with
  | none => exact .inl rfl
  | some sc => exact .inr (losses_heard moves b sc linked)

theorem fades_losses {v w : View} (moves : Losses v w) : Fades v w :=
  ⟨losses_shrinks moves, losses_working moves, contact_losses moves⟩

section Fades

variable {v w : View}

/-- The agent and the station have the working container of the station, so closing the connection
of the agent folds the counters of the station. -/
def WorksAt (v : View) (t r : Ref) : Prop :=
  ∃ c, (v.stations t).workingVapContainer = some c ∧ (v.vaps c).station = t ∧
    c ∈ (v.stations t).vapContainerSet.values ∧ c ∈ (v.agents r).vapContainerSet.values

theorem values_shrink {before after : Table}
    (shrinks : ∀ key c, after.lookup key = some c → before.lookup key = some c)
    {c : Ref} (member : c ∈ after.values) : c ∈ before.values := by
  obtain ⟨key, found⟩ := (mem_values after c).mp member
  exact (mem_values before c).mpr ⟨key, shrinks key c found⟩

theorem Fades.worksAt (fades : Fades v w) {t r : Ref} (works : WorksAt w t r) : WorksAt v t r := by
  obtain ⟨c, working, own, stored, held⟩ := works
  have station : (w.vaps c).station = (v.vaps c).station := congrFun fades.shrinks.vapStation c
  exact ⟨c, fades.working t c working, station.symm.trans own,
    values_shrink (fades.shrinks.stored t) stored,
    values_shrink (fades.shrinks.held r) held⟩

theorem Fades.silent (fades : Fades v w) {b sc : Ref} {now : Int}
    (linked : (w.agents b).sc = some sc) (silent : agentStatus w b now = .offLine) :
    (v.agents b).sc = some sc ∧ agentStatus v b now = .offLine := by
  rcases fades.contact b with gone | same
  · cases gone.symm.trans linked
  · exact ⟨(congrArg Prod.fst same).symm.trans linked,
      (agentStatus_of_heard same now).symm.trans silent⟩

end Fades

def Balances (v : View) (sc : Ref) : Prop :=
  ∀ r t, v.sc2AgentMap sc = some r → WorksAt v t r → Even v t

theorem Balances.losses {v w : View} {sc : Ref} (balances : Balances v sc) (moves : Losses v w) :
    Balances w sc := by
  intro r t registered works
  have fades := fades_losses moves
  have before := balances r t (fades.shrinks.registered sc r registered) (fades.worksAt works)
  exact before.of_accounts (accounts_losses moves)

theorem resetVap_mirrored (v : View) (sc a c : Ref) (grounded : GroundedView v)
    (registered : v.sc2AgentMap sc = some a)
    (held : (v.agents a).vapContainerSet.lookup (vapKey v c) = some c)
    (balances : Balances v sc) (mirrored : Mirrored (face v)) :
    Mirrored (face (resetVap v a c)) := by
  rcases resetVap_cases v a c grounded with ⟨-, result⟩ | ⟨-, -, result⟩ | ⟨stored, here, result⟩
  · rw [result, face_agentRemoveVap]
    exact mirrored
  · rw [result, face_agentRemoveVap, face_stationRemoveVap]
    exact mirrored
  · have tracked : Tracked v (v.vaps c).station := (grounded.stored _ _ c stored).2.2
    have even := balances a _ registered
      ⟨c, here, rfl, (mem_values _ c).mpr ⟨_, stored⟩, (mem_values _ c).mpr ⟨_, held⟩⟩
    generalize (v.vaps c).station = s at tracked even result
    have removed : Mirrored (face (stationRemoveVap v s c)) :=
      mirrored.of_face (face_stationRemoveVap v s c)
    have off := setStationStatus_mirrored .offLine
        (tracked_of_face (face_stationRemoveVap v s c) tracked) removed
    have steady : Steady (bindings v)
        (bindings (setWorking (setStationStatus (stationRemoveVap v s c) s .offLine) s none)) := by
      rw [bindings_setWorking, bindings_setStationStatus, bindings_stationRemoveVap]
      exact ⟨rfl, rfl, rfl, rfl, rfl, rfl⟩
    rw [result, face_agentRemoveVap]
    refine updateSumTraffic_mirrored (even.of_accounts ?_) (steady.tracked tracked)
      (off.of_face (face_setWorking _ s none))
    rw [accounts_setWorking, accounts_setStationStatus, accounts_stationRemoveVap]

theorem face_shut (v : View) (sc a : Ref) : face (shut v sc a) = { face v with
    agentMap := Function.update v.agentMap (v.agents a).macAddress none
    redis := Redis.delAgent v.redis (v.agents a).macAddress } := by
  simp only [face, shut, removeAgent, mirror, updAgent, Function.update_self]

theorem closeSocket_mirrored (v : View) (order : Order) (sc : Ref) (grounded : GroundedView v)
    (balances : Balances v sc) (mirrored : Mirrored (face v)) :
    Mirrored (face (closeSocket v order sc)) := by
  refine (closeSocket_induct v order sc (fun w => Mirrored (face w) ∧ Losses v w) grounded
    ⟨mirrored, .refl⟩
    ?_ ?_ ?_ ?_).1
  · rintro w x same ⟨held, losses⟩
    exact ⟨held.of_face (face_alike same), losses.tail (.alike same)⟩
  · rintro w a c ground registered found ⟨held, losses⟩
    exact ⟨resetVap_mirrored w sc a c ground registered found (balances.losses losses) held,
      losses.trans (losses_resetVap w a c ground)⟩
  · rintro w a ground registered - ⟨held, losses⟩
    refine ⟨?_, losses.tail (.shut w sc a)⟩
    rw [face_shut]
    exact held.forgetAgent (ground.connected sc a registered).2.2
  · intro _
    exact ⟨mirrored, .single (.closed v sc)⟩

theorem upkeeps_mirrored {who : Ref → Prop} {now : Int} {v w : View} (moves : Upkeeps who now v w)
    (grounded : GroundedView v)
    (balances : ∀ b sc, who b → (v.agents b).sc = some sc → agentStatus v b now = .offLine →
      Balances v sc)
    (mirrored : Mirrored (face v)) : Mirrored (face w) := by
  refine (moves.invariant (fun x => Mirrored (face x) ∧ Losses v x) grounded
    ⟨mirrored, .refl⟩ ?_).2.1
  rintro x y ground move ⟨held, losses⟩
  refine ⟨?_, losses.trans (losses_upkeep move ground)⟩
  cases move with
  | alike same => exact held.of_face (face_alike same)
  | close order sc b linked silent asked =>
      obtain ⟨before, off⟩ := (fades_losses losses).silent linked silent
      exact closeSocket_mirrored x order sc ground ((balances b sc asked before off).losses losses)
        held

theorem ages_mirrored {now : Int} {v w : View} (moves : Ages now v w) (grounded : GroundedView v)
    (balances : ∀ b sc, (v.agents b).sc = some sc → agentStatus v b now = .offLine → Balances v sc)
    (mirrored : Mirrored (face v)) : Mirrored (face w) := by
  refine (Ages.invariant (fun x => Mirrored (face x) ∧ Losses v x) grounded ⟨mirrored, .refl⟩ ?_
    moves).2.1
  rintro x y ground move ⟨held, losses⟩
  refine ⟨?_, losses.trans (losses_ages (.single move) ground)⟩
  cases move with
  | upkeep move =>
      refine upkeeps_mirrored (.single move) ground (fun b sc _ linked silent => ?_) held
      obtain ⟨before, off⟩ := (fades_losses losses).silent linked silent
      exact (balances b sc before off).losses losses
  | drop s c tracked off own listed =>
      refine held.of_face ?_
      rw [removeVap, face_stationRemoveVap, face_agentRemoveVap]
  | untrack s tracked off idle => exact held.forgetStation (x.stations s).macAddress

/-! The other effects. -/

theorem Mirrored.note {f : Face} {mac : Text} {a : Ref} (field : Redis.Field) (value : Text)
    (mirrored : Mirrored f) (registered : f.agentMap mac = some a) (plain : ¬ NamesSet field) :
    Mirrored { f with redis := Redis.hsetKnown f.redis mac field value } where
  record := by
    intro mac' s found field' text held
    have other : mac' ≠ mac := by
      rintro rfl
      cases (mirrored.station mac' s found).2.2.symm.trans registered
    refine Eq.trans ?_ (mirrored.record mac' s found field' text held)
    rw [Redis.hget_hsetKnown, if_neg (fun both => other both.1.1)]
  station := mirrored.station
  agent := mirrored.agent
  sets := by
    intro key field' set names held
    rw [Redis.hget_hsetKnown, if_neg] at held
    · exact mirrored.sets key field' set names held
    · rintro ⟨⟨-, rfl⟩, -⟩
      exact plain names

theorem informAgent_mirrored (v : View) (a : Ref) (totStaSize channel : Int) (mode message : Text)
    (curPos : Int) (registered : v.agentMap (v.agents a).macAddress = some a)
    (mirrored : Mirrored (face v)) :
    Mirrored (face (informAgent v a totStaSize channel mode message curPos)) := by
  have modeSet := mirrored.note .agentMode mode registered
      (by rintro (names | names) <;> cases names)
  exact modeSet.note .agentChannel (Redis.decimal channel) registered
    (by rintro (names | names) <;> cases names)

theorem registerAgent_mirrored (v : View) (now : Int) (sc : Ref) (mac : Text)
    (length : mac.length = 12) (free : v.stationMap.lookup mac = none)
    (mirrored : Mirrored (face v)) :
    Mirrored (face (registerAgent v now sc mac)) := by
  unfold registerAgent
  dsimp only
  split
  · exact mirrored.registerAgent v.nextAgent _ _ length free
  · exact mirrored

theorem probeStation_mirrored (v : View) (mac : Text) (grounded : GroundedView v)
    (unknown : v.stationMap.lookup mac = none) (length : mac.length = 12)
    (free : v.agentMap mac = none)
    (mirrored : Mirrored (face v)) : Mirrored (face (probeStation v mac).1) := by
  have result : face (probeStation v mac).1 = { face v with
      address := Function.update (face v).address v.nextStation mac
      record := Function.update (face v).record v.nextStation
        (recorded { macAddress := mac, status := .offLine })
      stationMap := v.stationMap.insert mac v.nextStation
      redis := Redis.addStation v.redis mac Status.offLine.text } := by
    simp only [probeStation, unknown, addStation, mirror, face, Function.comp_update]
  rw [result]
  refine mirrored.trackStation v.nextStation (fun mac' found => ?_) length free
  exact absurd (grounded.tracked mac' _ found).1 (Nat.lt_irrefl _)

theorem face_createVap (v : View) (now : Int) (s a : Ref) (ssid : Text) :
    face (createVap v now s a ssid) = face v := by
  simp [createVap]

theorem resumeVap_mirrored (v : View) (now : Int) (s c : Ref) (even : Even v s)
    (tracked : Tracked v s) (mirrored : Mirrored (face v)) :
    Mirrored (face (resumeVap v now s c)) := by
  have online : face (bringOnline v now s c) = face v := by simp [bringOnline]
  have totals : accounts (bringOnline v now s c) = accounts v := by simp [bringOnline]
  have steady : Steady (bindings v) (bindings (updateSumTraffic (bringOnline v now s c) s)) := by
    rw [bindings_updateSumTraffic, bindings_bringOnline]
    exact ⟨rfl, rfl, rfl, rfl, rfl, rfl⟩
  have folds := updateSumTraffic_mirrored (even.of_accounts totals) (tracked_of_face online tracked)
    (mirrored.of_face online)
  exact setStationStatus_mirrored .onLine (steady.tracked tracked) folds

def Folding (v : View) (s a : Ref) (ssid : Text) : Prop :=
  (stationVap v s a ssid ≠ none ∧ SwitchesOn v s a ssid) ∨
  (stationVap v s a ssid = none ∧ isLinked v s a = true ∧ (v.stations s).status = .offLine)

theorem Admission.mirrored {v w : View} {now : Int} {s a : Ref} {ssid : Text}
    (admission : Admission v now s a ssid w) (tracked : Tracked v s)
    (even : Folding v s a ssid → Even v s)
    (mirrored : Mirrored (face v)) : Mirrored (face w) := by
  cases admission with
  | unchanged same => exact mirrored.of_face (face_alike same)
  | @resume u c same stored switches =>
      have here := even (.inl ⟨by simp [stored], switches⟩)
      exact resumeVap_mirrored u now s c (here.of_accounts (accounts_alike same))
        (tracked_of_face (face_alike same) tracked) (mirrored.of_face (face_alike same))
  | @join u same absent switches free =>
      refine mirrored.of_face (Eq.trans ?_ (face_alike same))
      simp [joinVap]
  | adopt c absent unlinked held =>
      refine mirrored.of_face ?_
      simp [adoptVap]
  | @stray u same linked absent off =>
      have here := even (.inr ⟨absent, linked, off⟩)
      have before : face u = face v := (face_alike same).trans (face_newVapContainer v s a ssid)
      have totals : accounts u = accounts v :=
        (accounts_alike same).trans (accounts_newVapContainer v s a ssid)
      exact resumeVap_mirrored u now s _ (here.of_accounts totals) (tracked_of_face before tracked)
        (mirrored.of_face before)

/-! After an admission the report may close connections of other agents. -/

/-- A change after which only the station and the agent of a report have anything new. -/
structure Placed (b b' : Bindings) (s a : Ref) : Prop where
  vapAgent : ∀ c, c < b.nextVap → b'.vapAgent c = b.vapAgent c
  vapStation : ∀ c, c < b.nextVap → b'.vapStation c = b.vapStation c
  vapSsid : ∀ c, c < b.nextVap → b'.vapSsid c = b.vapSsid c
  working : ∀ t, t ≠ s → b'.working t = b.working t
  stored : ∀ t key c, (b'.stored t).lookup key = some c →
    (b.stored t).lookup key = some c ∨ (t = s ∧ b'.vapAgent c = a)
  held : ∀ r key c, (b'.held r).lookup key = some c →
    (b.held r).lookup key = some c ∨ (r = a ∧ b'.vapStation c = s)
  sc2AgentMap : b'.sc2AgentMap = b.sc2AgentMap

section Placed

variable {b : Bindings} {s a : Ref}

theorem placed_refl (b : Bindings) (s a : Ref) : Placed b b s a :=
  ⟨fun _ _ => rfl, fun _ _ => rfl, fun _ _ => rfl, fun _ _ => rfl, fun _ _ _ found => .inl found,
    fun _ _ _ found => .inl found, rfl⟩

theorem placed_resumed (b : Bindings) (s a c : Ref) : Placed b (resumed b s c) s a :=
  { placed_refl b s a with working := fun _ other => Function.update_of_ne other _ _ }

theorem placed_adopted (b : Bindings) {s a c : Ref} (own : b.vapAgent c = a) :
    Placed b (adopted b s c) s a :=
  { placed_refl b s a with
    working := fun _ other => Function.update_of_ne other _ _
    stored := by
      intro t key d found
      rcases (lookup_inserted b.stored s t (b.key c) key c d).mp found with ⟨here, -, rfl⟩ |
          ⟨-, before⟩
      · exact .inr ⟨here, own⟩
      · exact .inl before }

theorem placed_create (b : Bindings) (s a : Ref) (ssid : Text) : Placed b (b.create s a ssid) s a :=
  { placed_refl b s a with
    vapAgent := fun _ old => Function.update_of_ne old.ne _ _
    vapStation := fun _ old => Function.update_of_ne old.ne _ _
    vapSsid := fun _ old => Function.update_of_ne old.ne _ _
    stored := fun _ _ _ found => .inl found
    held := fun _ _ _ found => .inl found }

theorem placed_hold (b : Bindings) {s a c : Ref} (own : b.vapStation c = s) :
    Placed b (b.hold a c) s a := by
  unfold Bindings.hold
  split
  · exact placed_refl b s a
  · refine { placed_refl b s a with held := ?_ }
    intro r key d found
    rcases (lookup_inserted b.held a r (b.key c) key c d).mp found with ⟨here, -, rfl⟩ | ⟨-, before⟩
    · exact .inr ⟨here, own⟩
    · exact .inl before

theorem Placed.trans {b' b'' : Bindings} (first : Placed b b' s a) (second : Placed b' b'' s a)
    (agents : b''.vapAgent = b'.vapAgent) (stations : b''.vapStation = b'.vapStation)
    (names : b''.vapSsid = b'.vapSsid) : Placed b b'' s a where
  vapAgent := fun c old => (congrFun agents c).trans (first.vapAgent c old)
  vapStation := fun c old => (congrFun stations c).trans (first.vapStation c old)
  vapSsid := fun c old => (congrFun names c).trans (first.vapSsid c old)
  working := fun t other => (second.working t other).trans (first.working t other)
  stored := by
    intro t key c found
    rcases second.stored t key c found with before | new
    · rw [agents]
      exact first.stored t key c before
    · exact .inr new
  held := by
    intro r key c found
    rcases second.held r key c found with before | new
    · rw [stations]
      exact first.held r key c before
    · exact .inr new
  sc2AgentMap := second.sc2AgentMap.trans first.sc2AgentMap

theorem placed_joined (b : Bindings) (s a : Ref) (ssid : Text) :
    Placed b (joined b s a ssid) s a := by
  have created := placed_create b s a ssid
  have agent : (b.create s a ssid).vapAgent b.nextVap = a := Function.update_self _ _ _
  have adopts := created.trans (placed_adopted _ agent) rfl rfl rfl
  have station : (adopted (b.create s a ssid) s b.nextVap).vapStation b.nextVap = s :=
    Function.update_self _ _ _
  have holds := placed_hold (a := a) (adopted (b.create s a ssid) s b.nextVap) station
  obtain ⟨held, frame⟩ := hold_frame (adopted (b.create s a ssid) s b.nextVap) a b.nextVap
  unfold joined
  rw [frame] at holds ⊢
  exact adopts.trans holds rfl rfl rfl

end Placed

section Admissions

variable {v w : View} {now : Int} {s a : Ref} {ssid : Text}

theorem Admission.placed (admission : Admission v now s a ssid w) (grounded : GroundedView v) :
    Placed (bindings v) (bindings w) s a := by
  cases admission with
  | unchanged same => exact same.bindings ▸ placed_refl _ s a
  | @resume u c same stored switches =>
      rw [bindings_resumeVap, same.bindings]
      exact placed_resumed _ s a c
  | @join u same absent switches free =>
      rw [bindings_joinVap, same.bindings]
      exact placed_joined _ s a ssid
  | adopt c absent unlinked held =>
      rw [bindings_adoptVap]
      exact placed_adopted _ (grounded.held a _ c held).2.1
  | @stray u same linked absent off =>
      rw [bindings_resumeVap, same.bindings, bindings_newVapContainer]
      exact (placed_create _ s a ssid).trans (placed_resumed _ s a _) rfl rfl rfl

theorem Admission.stores (admission : Admission v now s a ssid w) (grounded : GroundedView v)
    (goesOn : ¬ Folding v s a ssid) {r : Ref} (works : WorksAt w s r) : WorksAt v s r ∨ r = a := by
  -- the working container a report stores is one of the reporting agent
  have placed := Admission.placed admission grounded
  obtain ⟨c, working, own, stored, held⟩ := works
  obtain ⟨name, inAgent⟩ := (mem_values _ c).mp held
  rcases placed.held r name c inAgent with before | ⟨here, -⟩
  · obtain ⟨old, agent, -⟩ := grounded.held r name c before
    cases admission with
    | unchanged same =>
        have read : WorksAt w s r = WorksAt v s r := same.read fun x => WorksAt x s r
        exact .inl (read ▸ ⟨c, working, own, stored, held⟩)
    | resume d same found switches => exact absurd (.inl ⟨by simp [found], switches⟩) goesOn
    | @join u same absent switches free =>
        -- the working container is new, so the agent did not have it before
        have new : c = (bindings v).nextVap := by
          have joins := congrFun (congrArg Bindings.working (bindings_joinVap u now s a ssid)) s
          rw [joined_working, same.bindings] at joins
          exact Option.some.inj (working.symm.trans joins)
        exact absurd new old.ne
    | adopt d absent unlinked found =>
        have adopts := congrFun (congrArg Bindings.working (bindings_adoptVap v now s d)) s
        have same : c = d := Option.some.inj
            (working.symm.trans (adopts.trans (Function.update_self _ _ _)))
        subst same
        exact .inr (agent.symm.trans (grounded.held a _ c found).2.1)
    | stray same linked absent off => exact absurd (.inr ⟨absent, linked, off⟩) goesOn
  · exact .inr here

theorem Admission.worksAt (admission : Admission v now s a ssid w) (grounded : GroundedView v)
    {t r : Ref} (works : WorksAt w t r) : WorksAt v t r ∨ t = s ∧ (r = a ∨ Folding v s a ssid) := by
  have placed := Admission.placed admission grounded
  obtain ⟨c, working, own, stored, held⟩ := works
  obtain ⟨key, inStation⟩ := (mem_values _ c).mp stored
  obtain ⟨name, inAgent⟩ := (mem_values _ c).mp held
  by_cases same : t = s
  · subst same
    by_cases folding : Folding v t a ssid
    · exact .inr ⟨rfl, .inr folding⟩
    · rcases Admission.stores admission grounded folding
          ⟨c, working, own, stored, held⟩ with before | here
      · exact .inl before
      · exact .inr ⟨rfl, .inl here⟩
  · have station := (placed.stored t key c inStation).resolve_right (fun new => same new.1)
    have old : c < v.nextVap := (grounded.stored t key c station).1
    have before : (v.vaps c).station = t := (placed.vapStation c old).symm.trans own
    have agent := (placed.held r name c inAgent).resolve_right
        (fun new => same (own.symm.trans new.2))
    exact .inl ⟨c, (placed.working t same).symm.trans working, before,
      (mem_values _ c).mpr ⟨key, station⟩,
      (mem_values _ c).mpr ⟨name, agent⟩⟩

theorem Admission.rival (admission : Admission v now s a ssid w) (grounded : GroundedView v)
    {b : Ref} (rival : Rival w s a ssid b) : Rival v s a ssid b := by
  have placed := Admission.placed admission grounded
  obtain ⟨c, stored, agent, other, name⟩ := rival
  obtain ⟨key, found⟩ := (mem_values _ c).mp stored
  rcases placed.stored s key c found with before | ⟨-, new⟩
  · have old : c < v.nextVap := (grounded.stored s key c before).1
    exact ⟨c, (mem_values _ c).mpr ⟨key, before⟩, (placed.vapAgent c old).symm.trans agent, other,
      (placed.vapSsid c old).symm.trans name⟩
  · exact absurd (agent.symm.trans new) other

theorem contacts_admission (admission : Admission v now s a ssid w) : contacts w = contacts v :=
  funext fun b => admission_heard admission b

end Admissions

theorem leaveVap_mirrored (v : View) (now : Int) (s c : Ref) (tracked : Tracked v s)
    (mirrored : Mirrored (face v)) :
    Mirrored (face (leaveVap v now s c)) := by
  have left : Mirrored (face (leftStation v s c)) := by
    unfold leftStation
    split
    · exact (setStationStatus_mirrored .offLine tracked mirrored).of_face (face_setWorking _ s none)
    · exact mirrored
  rw [leaveVap_eq, face_setLastProbeHeard]
  split
  · exact left.of_face (face_setVapStatus _ c .offLine)
  · exact left

theorem Acknowledgement.mirrored {v w : View} {a s c : Ref} (done : Acknowledgement v a s c w)
    (tracked : Tracked v s) (mirrored : Mirrored (face v)) : Mirrored (face w) := by
  have off : Mirrored (face (switchOff v s c)) :=
    (setStationStatus_mirrored .offLine tracked mirrored).of_face (face_setVapStatus _ c .offLine)
  have removed (x : View) : face (removeVap x a s c) = face x := by
    rw [removeVap, face_stationRemoveVap, face_agentRemoveVap]
  cases done with
  | idle on free => exact off
  | cleared on here => exact off.of_face (face_setWorking _ s none)
  | elsewhere d on working other result =>
      rcases result with rfl | rfl
      · exact off
      · exact off.of_face (removed _)
  | offLine status result =>
      rcases result with rfl | rfl
      · exact mirrored
      · exact mirrored.of_face (removed v)

theorem countTraffic_mirrored (v : View) (a s : Ref) (up down : Int64) (tracked : Tracked v s)
    (even : Restarted v s up down → Even v s) (mirrored : Mirrored (face v)) :
    Mirrored (face (countTraffic v a s up down)) := by
  have write (w : View) (same : bindings w = bindings v) (before : Mirrored (face w)) :
      Mirrored (face (setUpTraffic (setDownTraffic w s down) s up)) := by
    have first : Steady (bindings v) (bindings w) := same ▸ .refl _
    have second : Steady (bindings v) (bindings (setDownTraffic w s down)) := by
      rw [bindings_setDownTraffic]
      exact first
    exact setUpTraffic_mirrored up (second.tracked tracked)
      (setDownTraffic_mirrored down (first.tracked tracked) before)
  unfold countTraffic
  dsimp only
  split
  · rename_i smaller
    refine write _ (by simp) (updateSumTraffic_mirrored ?_ tracked mirrored)
    exact even smaller
  · exact write _ (by simp) mirrored

/-! Whole runs. -/

inductive Closes (v : View) (now : Int) (order : Order) : Op → Ref → Prop where
  | asked (sc : Ref) : Closes v now order (.closeSocket sc) sc
  | former (sc old agentSc : Ref) (message mac : Text) (rest : Int)
      (taken : takeSized message bodyStart = some (mac, rest)) (found : v.agentMap mac = some old)
      (linked : (v.agents old).sc = some agentSc) (other : agentSc ≠ sc) :
      Closes v now order (.localMac sc message) agentSc
  | silent {op : Op} (b sc : Ref) (asks : Asks v order op b) (linked : (v.agents b).sc = some sc)
      (off : agentStatus v b now = .offLine) : Closes v now order op sc

/-- The stations whose counters an operation may fold: that of a report, those of a connection that
is closed, and the station of a report that moves to a connection the report closes. -/
inductive Folded (v : View) (now : Int) (order : Order) : Op → Ref → Prop where
  | admitted (sc a s : Ref) (message mac ssid : Text)
      (report : newReport v order sc message = some (a, mac, ssid))
      (known : v.stationMap.lookup mac = some s)
      (folding : Folding v s a ssid) : Folded v now order (.newStation sc message) s
  | restarted (sc a s : Ref) (message : Text) (up down : Int64)
      (report : flowReport v sc message = some (s, a, up, down)) (smaller : Restarted v s up down) :
      Folded v now order (.flowInfo sc message) s
  | closed {op : Op} (sc r t : Ref) (closes : Closes v now order op sc)
      (registered : v.sc2AgentMap sc = some r)
      (works : WorksAt v t r) : Folded v now order op t
  | moved (sc channel a s : Ref) (message mac ssid : Text)
      (report : newReport v order sc message = some (a, mac, ssid))
      (known : v.stationMap.lookup mac = some s)
      (closes : Closes v now order (.newStation sc message) channel)
      (registered : v.sc2AgentMap channel = some a) :
      Folded v now order (.newStation sc message) s

/-- The steps that keep the mirror: no unknown station comes on line, counters are folded where both
directions count the same, addresses have twelve characters and are those of a station or of an
agent. An agent that gets a container by a command has a mode, which Redis is sent. -/
structure KeepsMirror (v : View) (event : Event) : Prop where
  joins : ∀ sc message a mac ssid, event.op = .newStation sc message →
    newReport v event.order sc message = some (a, mac, ssid) → v.stationMap.lookup mac ≠ none
  folds : ∀ s, Folded v event.now event.order event.op s → Even v s
  agent : ∀ sc message mac rest, event.op = .localMac sc message →
    takeSized message bodyStart = some (mac, rest) → mac.length = 12 ∧
      v.stationMap.lookup mac = none
  station : ∀ sc message info, event.op = .probeInfo sc message → takeProbe message = some info →
    v.stationMap.lookup info.staMacAddr = none → info.staMacAddr.length = 12 ∧
      v.agentMap info.staMacAddr = none
  mode : ∀ isRoam message s, Adds v event.op isRoam message →
    Accepted v event.now event.order isRoam message s → (v.agents message.agent).mode ≠ none

theorem closeFormer_mirrored (v : View) (order : Order) (sc : Ref) (mac : Text)
    (grounded : GroundedView v)
    (balances : ∀ old agentSc, v.agentMap mac = some old → (v.agents old).sc = some agentSc →
      agentSc ≠ sc →
      Balances v agentSc)
    (mirrored : Mirrored (face v)) : Mirrored (face (closeFormer v order sc mac)) := by
  unfold closeFormer
  split
  · exact mirrored
  · rename_i old found
    split
    · exact mirrored
    · rename_i agentSc linked
      split
      · rename_i other
        exact closeSocket_mirrored v order agentSc grounded
          (balances old agentSc found linked other) mirrored
      · exact mirrored

theorem next_mirrored (v : View) (event : Event) (fits : KeepsMirror v event)
    (holds : GroundedView v ∧ Mirrored (face v)) :
    GroundedView (next v event) ∧ Mirrored (face (next v event)) := by
  obtain ⟨op, now, order⟩ := event
  obtain ⟨grounded, mirrored⟩ := holds
  refine ⟨next_grounded v ⟨op, now, order⟩ grounded, ?_⟩
  have effect := step_effect v now order op grounded
  have closing {sc : Ref} (closes : Closes v now order op sc) : Balances v sc :=
    fun r t registered works => fits.folds t (.closed sc r t closes registered works)
  have tracked {mac : Text} {s : Ref} (known : v.stationMap.lookup mac = some s) : Tracked v s := by
    have named : (v.stations s).macAddress = mac := (grounded.tracked mac s known).2
    subst named
    exact known
  change Mirrored (face (step v now order op))
  generalize step v now order op = w at effect
  cases effect with
  | upkeep moves =>
      exact upkeeps_mirrored moves grounded
        (fun b sc asks linked off => closing (.silent b sc asks linked off)) mirrored
  | accept => exact mirrored
  | heard sc a registered => exact mirrored
  | close sc => exact closeSocket_mirrored v order sc grounded (closing (.asked sc)) mirrored
  | displace sc message mac rest taken =>
      exact closeFormer_mirrored v order sc mac grounded
        (fun old agentSc found linked other => closing
          (.former sc old agentSc message mac rest taken found linked other))
        mirrored
  | register sc message mac rest taken opened =>
      obtain ⟨length, free⟩ := fits.agent sc message mac rest rfl taken
      have closed := closeFormer_mirrored v order sc mac grounded
        (fun old agentSc found linked other => closing
          (.former sc old agentSc message mac rest taken found linked other))
        mirrored
      have shrinks := losses_shrinks (losses_closeFormer v order sc mac grounded)
      exact registerAgent_mirrored _ now sc mac length (lookup_none (shrinks.tracked mac) free)
        closed
  | create sc a message mac ssid report unknown moves =>
      exact absurd unknown (fits.joins sc message a mac ssid rfl report)
  | @admitted u w sc a s message mac ssid report known admission moves =>
      have registered := newReport_registered v order report
      have agent := registered_lt grounded registered
      have here := tracked known
      have ground := Admission.grounded admission grounded agent here
      have folding (folds : Folding v s a ssid) : Even v s :=
        fits.folds s (.admitted sc a s message mac ssid report known folds)
      have admitted := Admission.mirrored admission here folding mirrored
      refine upkeeps_mirrored moves ground (fun b channel rival linked off r t found works => ?_)
        admitted
      -- what the report closes afterwards is judged in the view before it
      have contact := contacts_admission admission
      have link : (v.agents b).sc = some channel :=
        (congrArg Prod.fst (congrFun contact b)).symm.trans linked
      have silent : agentStatus v b now = .offLine :=
        (agentStatus_of_heard (congrFun contact b) now).symm.trans off
      have closes : Closes v now order (.newStation sc message) channel :=
        .silent b channel (.report sc a s b message mac ssid report known
          (Admission.rival admission grounded rival))
          link silent
      have before : v.sc2AgentMap channel = some r :=
        (congrFun (Admission.placed admission grounded).sc2AgentMap channel).symm.trans found
      refine Even.of_accounts ?_ (accounts_admission admission)
      rcases Admission.worksAt admission grounded works with still | ⟨rfl, rfl | folds⟩
      · exact fits.folds t (.closed channel r t closes before still)
      · exact fits.folds t (.moved sc channel r t message mac ssid report known closes before)
      · exact folding folds
  | leave sc a s c message mac ssid registered known stored left =>
      exact leaveVap_mirrored v now s c (tracked known) mirrored
  | flow sc s a message up down report =>
      obtain ⟨⟨mac, known⟩, -⟩ := flowReport_known report
      exact countTraffic_mirrored v a s up down (tracked known)
        (fun smaller => fits.folds s (.restarted sc a s message up down report smaller)) mirrored
  | probe sc message info taken unknown same =>
      obtain ⟨length, free⟩ := fits.station sc message info rfl taken unknown
      exact (probeStation_mirrored v info.staMacAddr grounded unknown length free mirrored).of_face
        (face_alike same)
  | inform sc a message mode totStaSize channel curPos registered taken =>
      exact informAgent_mirrored v a totStaSize channel mode message curPos
        (grounded.connected sc a registered).2.2
        mirrored
  | acknowledge sc a s c message mac ssid same registered known stored listed done =>
      exact Acknowledgement.mirrored done (tracked_of_face (face_alike same) (tracked known))
        (mirrored.of_face (face_alike same))
  | add isRoam message s adds accepted same =>
      exact mirrored.of_face ((face_alike same).trans
        (face_createVap v now s message.agent message.ssid))
  | age moves =>
      exact ages_mirrored moves grounded
        (fun b sc linked off => closing (.silent b sc (.age b) linked off)) mirrored

theorem mirrored_empty : Mirrored (face View.empty) where
  record := fun _ _ found => by cases found
  station := fun _ _ found => by cases found
  agent := fun _ _ found => by cases found
  sets := fun _ _ _ _ found => by cases found

/-- In every run whose steps meet the condition, the hash of every tracked station says what the
station says. -/
theorem redis_mirrors_view (v : View) (reached : Reaches next KeepsMirror View.empty v) (mac : Text)
    (s : Ref) (tracked : v.stationMap.lookup mac = some s) :
    Redis.hget v.redis mac .staStatus = some (v.stations s).status.text ∧
    Redis.hget v.redis mac .staSumUpTraffic = some (Redis.long (v.stations s).sumUpTraffic) ∧
    Redis.hget v.redis mac .staSumDownTraffic = some (Redis.long (v.stations s).sumDownTraffic) ∧
    Redis.hget v.redis mac .staUpTraffic = some (Redis.long (v.stations s).upTraffic) ∧
    Redis.hget v.redis mac .staDownTraffic = some (Redis.long (v.stations s).downTraffic) := by
  obtain ⟨-, mirrored⟩ := reached.invariant (fun v => GroundedView v ∧ Mirrored (face v))
    ⟨grounded_empty, mirrored_empty⟩ next_mirrored
  have record := mirrored.record mac s tracked
  exact ⟨record .staStatus _ rfl, record .staSumUpTraffic _ rfl, record .staSumDownTraffic _ rfl,
    record .staUpTraffic _ rfl, record .staDownTraffic _ rfl⟩

theorem folded_report {v : View} {now : Int} {order : Order} {op : Op} {s : Ref}
    (folded : Folded v now order op s) (keeps : ∀ sc, ¬ Closes v now order op sc) :
    (∃ sc a message mac ssid, op = .newStation sc message ∧
      newReport v order sc message = some (a, mac, ssid) ∧
      v.stationMap.lookup mac = some s) ∨
    ∃ sc a message up down, op = .flowInfo sc message ∧
      flowReport v sc message = some (s, a, up, down) ∧
      Restarted v s up down := by
  cases folded with
  | admitted sc a s message mac ssid report known folding =>
      exact .inl ⟨sc, a, message, mac, ssid, rfl, report, known⟩
  | restarted sc a s message up down report smaller =>
      exact .inr ⟨sc, a, message, up, down, rfl, report, smaller⟩
  | closed sc r t closes registered works => exact absurd closes (keeps sc)
  | moved sc channel a s message mac ssid report known closes registered =>
      exact absurd closes (keeps channel)

theorem not_closes {v : View} {now : Int} {order : Order} {op : Op}
    (asked : ∀ b, Asks v order op b → agentStatus v b now = .onLine)
    (other : ∀ sc, op ≠ .closeSocket sc)
    (former : ∀ sc message mac rest, op = .localMac sc message →
      takeSized message bodyStart = some (mac, rest) →
      v.agentMap mac = none) (sc : Ref) : ¬ Closes v now order op sc := by
  intro closes
  cases closes with
  | asked => exact other sc rfl
  | former channel old agentSc message mac rest taken found =>
      cases (former channel message mac rest rfl taken).symm.trans found
  | silent b channel asks linked off => cases (asked b asks).symm.trans off

def flowMessage : Text := "000510605012".toList ++ staMac ++ "031000240".toList

def roamCommand : StationCtrlMessage :=
  { msgType := .addVapRoam, staMacAddr := staMac, ssid := "w".toList, mode := none, agent := 0 }

def mirroredRun : List Event :=
  hello 0 apMac ++
    [probe 0, ⟨.addVap true roamCommand, 400, .stored⟩, join 0 apMac 500,
      ⟨.flowInfo 0 flowMessage, 600, .stored⟩]

def mirroredAt (index : Nat) : View := run next View.empty (mirroredRun.take index)

theorem probed_allowed : Allowed next KeepsMirror View.empty (mirroredRun.take 4) := by
  -- the AP connects and the station is probed: no agent is asked and no counter folded
  have idle {v : View} {now : Int} {order : Order} {op : Op} (asked : ∀ b, ¬ Asks v order op b)
      (other : ∀ sc, op ≠ .closeSocket sc)
      (former : ∀ sc message mac rest, op = .localMac sc message →
      takeSized message bodyStart = some (mac, rest) →
        v.agentMap mac = none)
      (report : ∀ sc message, op ≠ .newStation sc message)
      (flow : ∀ sc message, op ≠ .flowInfo sc message)
      (s : Ref) (folded : Folded v now order op s) : Even v s := by
    rcases folded_report folded (not_closes (fun b asks => absurd asks (asked b)) other former) with
      ⟨sc, a, message, mac, ssid, same, -⟩ | ⟨sc, a, message, up, down, same, -⟩
    · exact absurd same (report sc message)
    · exact absurd same (flow sc message)
  have address : takeSized ("000110901412".toList ++ apMac) bodyStart =
      some (apMac, 24) := by decide +kernel
  refine ⟨⟨nofun, idle ?_ nofun nofun nofun nofun, nofun, nofun, nofun⟩,
    ⟨nofun, idle ?_ nofun ?_ nofun nofun, ?_, nofun, nofun⟩,
    ⟨nofun, idle ?_ nofun nofun nofun nofun, nofun, nofun, nofun⟩,
    ⟨nofun, idle ?_ nofun nofun nofun nofun, nofun, ?_, nofun⟩, trivial⟩
  · rintro b ⟨isRoam, message, ⟨⟩⟩
  · rintro b ⟨isRoam, message, ⟨⟩⟩
  · intro sc message mac rest same taken
    cases same
    cases address.symm.trans taken
    rfl
  · intro sc message mac rest same taken
    cases same
    cases address.symm.trans taken
    exact ⟨by decide, rfl⟩
  · rintro b ⟨isRoam, message, ⟨⟩⟩
  · rintro b ⟨isRoam, message, ⟨⟩⟩
  · intro sc message info same taken unknown
    cases same
    have station : (takeProbe ("000410703212".toList ++ staMac ++ "03-60030100300601".toList ++
        ['0'])).map
        ProbeInfo.staMacAddr = some staMac := by decide +kernel
    have named : info.staMacAddr = staMac :=
      Option.some.inj ((congrArg (Option.map ProbeInfo.staMacAddr) taken).symm.trans station)
    rw [named]
    exact ⟨by decide, by decide +kernel⟩

theorem command_keeps : KeepsMirror (mirroredAt 4) ⟨.addVap true roamCommand, 400, .stored⟩ where
  joins := nofun
  agent := nofun
  station := nofun
  mode := by
    intro isRoam message s adds accepted
    cases adds
    decide +kernel
  folds := by
    intro s folded
    have asked (b : Ref) (asks : Asks (mirroredAt 4) .stored (.addVap true roamCommand) b) :
        agentStatus (mirroredAt 4) b 400 = .onLine := by
      cases asks with
      | add isRoam message adds =>
          cases adds
          decide +kernel
    rcases folded_report folded (not_closes asked nofun nofun) with
      ⟨sc, a, message, mac, ssid, same, -⟩ | ⟨sc, a, message, up, down, same, -⟩
    · cases same
    · cases same

theorem join_keeps : KeepsMirror (mirroredAt 5) (join 0 apMac 500) := by
  have fields : newReport (mirroredAt 5) .stored 0 (joinReport apMac) =
      some (0, staMac, "w".toList) := by
    decide +kernel
  have tracked : (mirroredAt 5).stationMap.lookup staMac = some 0 := by decide +kernel
  refine ⟨?_, ?_, nofun, nofun, nofun⟩
  · intro sc message a mac ssid same report absent
    cases same
    cases fields.symm.trans report
    cases tracked.symm.trans absent
  · intro s folded
    have asked (b : Ref) (asks : Asks (mirroredAt 5) .stored (.newStation 0 (joinReport apMac)) b) :
        agentStatus (mirroredAt 5) b 500 = .onLine := by
      cases asks with
      | add isRoam message adds => cases adds
      | report sc a s b message mac ssid report known rival =>
          -- the only container is the one of the reporting agent
          cases fields.symm.trans report
          cases tracked.symm.trans known
          obtain ⟨c, stored, agent, other, -⟩ := rival
          have values : ((mirroredAt 5).stations 0).vapContainerSet.values =
              [0] := by decide +kernel
          rw [values, List.mem_singleton] at stored
          subst stored
          have own : ((mirroredAt 5).vaps 0).agent = 0 := by decide +kernel
          exact absurd (agent.symm.trans own) other
    rcases folded_report folded (not_closes asked nofun nofun) with
      ⟨sc, a, message, mac, ssid, same, report, known⟩ | ⟨sc, a, message, up, down, same, -⟩
    · cases same
      cases fields.symm.trans report
      cases tracked.symm.trans known
      have even : (accounts (mirroredAt 5)).station 0 .up =
          (accounts (mirroredAt 5)).station 0 .down := by
        decide +kernel
      exact even
    · cases same

theorem flow_keeps : KeepsMirror (mirroredAt 6) ⟨.flowInfo 0 flowMessage, 600, .stored⟩ := by
  refine ⟨nofun, ?_, nofun, nofun, nofun⟩
  intro s folded
  have asked (b : Ref) (asks : Asks (mirroredAt 6) .stored (.flowInfo 0 flowMessage) b) :
      agentStatus (mirroredAt 6) b 600 = .onLine := by
    cases asks with
    | add isRoam message adds => cases adds
  rcases folded_report folded (not_closes asked nofun nofun) with
    ⟨sc, a, message, mac, ssid, same, -⟩ | ⟨sc, a, message, up, down, same, report, smaller⟩
  · cases same
  · cases same
    have fields : flowReport (mirroredAt 6) 0 flowMessage =
        some (0, 0, 100, 40) := by decide +kernel
    cases fields.symm.trans report
    have rises : ¬ Restarted (mirroredAt 6) 0 100 40 := by decide +kernel
    exact absurd smaller rises

theorem mirroredRun_reached :
    Reaches next KeepsMirror View.empty (run next View.empty mirroredRun) := by
  have probed : Reaches next KeepsMirror View.empty (mirroredAt 4) :=
    Reaches.append _ .start probed_allowed
  have commanded : Reaches next KeepsMirror View.empty (mirroredAt 5) :=
    probed.concat _ _ command_keeps
  have joined : Reaches next KeepsMirror View.empty (mirroredAt 6) :=
    commanded.concat _ _ join_keeps
  exact joined.concat _ _ flow_keeps

/-- A run that meets the condition: the hash has the status and the counters. -/
theorem traffic_mirrored :
    let v := run next View.empty mirroredRun
    Redis.hget v.redis staMac .staStatus = some "online".toList ∧
    Redis.hget v.redis staMac .staSumUpTraffic = some "0".toList ∧
    Redis.hget v.redis staMac .staSumDownTraffic = some "0".toList ∧
    Redis.hget v.redis staMac .staUpTraffic = some "100".toList ∧
    Redis.hget v.redis staMac .staDownTraffic = some "40".toList := by
  obtain ⟨status, sumUp, sumDown, up, down⟩ :=
    redis_mirrors_view _ mirroredRun_reached staMac 0 (by decide +kernel)
  refine ⟨status.trans ?_, sumUp.trans ?_, sumDown.trans ?_, up.trans ?_, down.trans ?_⟩ <;>
    decide +kernel

/-- A station that joins before it was probed: it is on line and Redis says that it is off line. -/
theorem joined_mirrored_off :
    ¬ ∀ events mac s, (run next View.empty events).stationMap.lookup mac = some s →
      Redis.hget (run next View.empty events).redis mac .staStatus =
        some ((run next View.empty events).stations s).status.text := by
  intro all
  have same := all (hello 0 apMac ++ [join 0 apMac 400]) staMac 0 (by decide +kernel)
  revert same
  decide +kernel

end LazyAS.RedisMirror

import LazyAS.AgentCapacity

/-! The counters of an agent against its table. The idle count is kept by adding and removing
containers, the online count by the status of containers, whether or not they are in the table;
the recount goes over the table. The two agree in every run in which a container that changes its
status, or is removed while on line, is where the count looks for it. -/
namespace LazyAS.AgentCounters
open WireText ControllerView Master VapBindings BindingLaws ViewGrowth StationCoherence
  ViewGround ViewMoves
  StepEffects AgentCapacity Runs

/-! Counting the entries of a table. -/

theorem mem_erase_values {table : Table} {key : Text} {d : Ref}
    (member : d ∈ Table.values (table.erase key)) :
    ∃ key', key' ≠ key ∧ table.lookup key' = some d := by
  obtain ⟨key', found⟩ := (mem_values _ d).mp member
  refine ⟨key', ?_, lookup_erase_some found⟩
  rintro rfl
  rw [AList.lookup_erase] at found
  cases found

theorem countP_erase (table : Table) (p : Ref → Bool) {key : Text} {c : Ref}
    (found : table.lookup key = some c) :
    table.values.countP p = (Table.values (table.erase key)).countP p + if p c then 1 else 0 := by
  have present : key ∈ table.entries.keys := AList.lookup_isSome.mp (by rw [found]; rfl)
  obtain ⟨d, front, back, -, split, erased⟩ := List.exists_of_kerase present
  have same : d = c := by
    have member : (⟨key, d⟩ : Sigma fun _ : Text => Ref) ∈ table.entries := by
      rw [split]
      exact List.mem_append_right _ List.mem_cons_self
    have hit : table.lookup key = some d := AList.mem_lookup_iff.mpr member
    exact Option.some.inj (hit.symm.trans found)
  subst same
  have rest : (table.erase key).entries = front ++ back := erased
  simp only [Table.values, rest, split, List.map_append, List.map_cons, List.countP_append,
    List.countP_cons]
  omega

theorem length_erase (table : Table) {key : Text} {c : Ref} (found : table.lookup key = some c) :
    table.values.length = (Table.values (table.erase key)).length + 1 := by
  have counted := countP_erase table (fun _ => true) found
  simpa using counted

theorem countP_switch (table : Table) (key : Ref → Text)
    (named : ∀ text d, table.lookup text = some d → text = key d) (p q : Ref → Bool) {c : Ref}
    (found : table.lookup (key c) = some c) (same : ∀ d, d ≠ c → q d = p d)
    (off : p c = false) (on : q c = true) : table.values.countP q = table.values.countP p + 1 := by
  have rest : (Table.values (table.erase (key c))).countP q =
      (Table.values (table.erase (key c))).countP p := by
    refine List.countP_congr fun d member => ?_
    obtain ⟨text, other, hit⟩ := mem_erase_values member
    rw [same d]
    rintro rfl
    exact other (named text d hit)
  rw [countP_erase table q found, countP_erase table p found, rest, off, on]
  simp

theorem countP_outside (table : Table) (p q : Ref → Bool) {c : Ref}
    (outside : ∀ text, table.lookup text ≠ some c) (same : ∀ d, d ≠ c → q d = p d) :
    table.values.countP q = table.values.countP p := by
  refine List.countP_congr fun d member => ?_
  obtain ⟨text, hit⟩ := (mem_values _ d).mp member
  rw [same d]
  rintro rfl
  exact outside text hit

/-! How far the counters of an agent are from a recount. -/

def isOnline (v : View) (c : Ref) : Bool := (v.vaps c).status = .onLine

def gap (v : View) (a : Ref) : Int × Int :=
  ((v.agents a).staCountIdle - ((v.agents a).statCountSum - size v a),
    (v.agents a).staCountOnline - getVapContainerOnline v a)

theorem gap_alike {v w : View} (same : Alike v w) (a : Ref) : gap w a = gap v a :=
  same.read fun x => gap x a

theorem gap_congr {v w : View} (a : Ref) (agents : w.agents a = v.agents a)
    (status : isOnline w = isOnline v) :
    gap w a = gap v a := by
  have online : getVapContainerOnline w a = getVapContainerOnline v a := by
    change (w.agents a).vapContainerSet.values.countP (isOnline w) = _
    rw [agents, status]
    rfl
  simp only [gap, size, agents, online]

theorem isOnline_setVapStatus (v : View) (c : Ref) (status : Status) :
    isOnline (setVapStatus v c status) = Function.update (isOnline v) c (status = .onLine) := by
  funext d
  have bound : ((setVapStatus v c status).vaps d).status =
      Function.update (bindings v).vapStatus c status d :=
    congrFun (congrArg Bindings.vapStatus (bindings_setVapStatus v c status)) d
  unfold isOnline
  rw [bound]
  by_cases same : d = c
  · subst same
    simp
  · simp only [Function.update_of_ne same]
    rfl

theorem isOnline_agentAddVap (v : View) (a c : Ref) :
    isOnline (agentAddVap v a c) = isOnline v := by
  unfold agentAddVap
  split
  · rfl
  · rfl

theorem isOnline_agentRemoveVap (v : View) (a c : Ref) :
    isOnline (agentRemoveVap v a c) = isOnline v := by
  unfold agentRemoveVap
  split
  · rfl
  · rfl

def weight : Status → Int
  | .onLine => 1
  | .offLine => 0

theorem setVapStatus_agents (v : View) (c : Ref) (status : Status) :
    (setVapStatus v c status).agents = Function.update v.agents (v.vaps c).agent
      { v.agents (v.vaps c).agent with
        staCountOnline := (v.agents (v.vaps c).agent).staCountOnline +
          (weight status - weight (v.vaps c).status) } := by
  cases before : (v.vaps c).status <;> cases status <;>
    simp [setVapStatus, before, weight, updVap, updAgent, Int.sub_eq_add_neg]

theorem gap_setVapStatus_other (v : View) (c : Ref) (status : Status) (grounded : GroundedView v)
    {b : Ref} (other : b ≠ (v.vaps c).agent) : gap (setVapStatus v c status) b = gap v b := by
  have agents : (setVapStatus v c status).agents b = v.agents b := by
    rw [setVapStatus_agents, Function.update_of_ne other]
  have online : getVapContainerOnline (setVapStatus v c status) b = getVapContainerOnline v b := by
    change ((setVapStatus v c status).agents b).vapContainerSet.values.countP
      (isOnline (setVapStatus v c status)) = _
    rw [agents, isOnline_setVapStatus]
    refine countP_outside _ _ _ (c := c) (fun text found => ?_)
      (fun d away => Function.update_of_ne away _ _)
    exact other (grounded.held b text c found).2.1.symm
  simp only [gap, size, agents, online]

theorem gap_setVapStatus_held (v : View) (c : Ref) (status : Status) (grounded : GroundedView v)
    (held : (v.agents (v.vaps c).agent).vapContainerSet.lookup (vapKey v c) = some c) (b : Ref) :
    gap (setVapStatus v c status) b = gap v b := by
  -- the counter follows a container of the table
  by_cases other : b = (v.vaps c).agent
  · subst other
    have table : ((setVapStatus v c status).agents (v.vaps c).agent).vapContainerSet =
        (v.agents (v.vaps c).agent).vapContainerSet := by rw [setVapStatus_agents,
          Function.update_self]
    have named (text : Text) (d : Ref)
        (found : (v.agents (v.vaps c).agent).vapContainerSet.lookup text = some d) :
        text = vapKey v d :=
      (grounded.held _ text d found).2.2
    have online : (getVapContainerOnline (setVapStatus v c status) (v.vaps c).agent : Int) =
        getVapContainerOnline v (v.vaps c).agent + (weight status - weight (v.vaps c).status) := by
      change (((setVapStatus v c status).agents (v.vaps c).agent).vapContainerSet.values.countP
        (isOnline (setVapStatus v c status)) : Int) = _
      rw [table, isOnline_setVapStatus]
      change _ = ((v.agents (v.vaps c).agent).vapContainerSet.values.countP (isOnline v) : Int) + _
      have away (on : Bool) (d : Ref) (other : d ≠ c) : Function.update (isOnline v) c on d =
          isOnline v d :=
        Function.update_of_ne other _ _
      have unchanged (same : decide (status = .onLine) = isOnline v c) :
          Function.update (isOnline v) c (decide (status = .onLine)) = isOnline v := by
        rw [same]
        exact Function.update_eq_self c _
      cases before : (v.vaps c).status with
      | onLine =>
          cases status with
          | onLine =>
              rw [unchanged (by simp [isOnline, before])]
              simp
          | offLine =>
              have counted := countP_switch _ (vapKey v) named
                  (Function.update (isOnline v) c false) (isOnline v)
                held (fun d other => (away false d other).symm) (Function.update_self _ _ _)
                (by simp [isOnline, before])
              simp [counted, weight]
      | offLine =>
          cases status with
          | onLine =>
              have counted := countP_switch _ (vapKey v) named (isOnline v)
                  (Function.update (isOnline v) c true)
                held (away true) (by simp [isOnline, before]) (Function.update_self _ _ _)
              simp [counted, weight]
          | offLine =>
              rw [unchanged (by simp [isOnline, before])]
              simp
    have agents := congrFun (setVapStatus_agents v c status) (v.vaps c).agent
    rw [Function.update_self] at agents
    simp only [gap, size, online, agents]
    refine Prod.ext rfl ?_
    dsimp only
    omega
  · exact gap_setVapStatus_other v c status grounded other

theorem gap_agentRemoveVap (v : View) (a c : Ref)
    (fits : ∀ d, (v.agents a).vapContainerSet.lookup (vapKey v c) = some d →
      (v.vaps d).status = .offLine)
    (b : Ref) : gap (agentRemoveVap v a c) b = gap v b := by
  -- removing an entry that is off line, or none at all
  by_cases present : vapKey v c ∈ (v.agents a).vapContainerSet
  · by_cases same : b = a
    · subst same
      obtain ⟨d, found⟩ := Option.isSome_iff_exists.mp (AList.lookup_isSome.mpr present)
      have length := length_erase _ found
      have counted := countP_erase _ (isOnline v) found
      have off : isOnline v d = false := by simp [isOnline, fits d found]
      rw [off] at counted
      have agents : (agentRemoveVap v b c).agents b = { v.agents b with
          staCountIdle := (v.agents b).staCountIdle + 1
          vapContainerSet := (v.agents b).vapContainerSet.erase (vapKey v c) } := by
        rw [agentRemoveVap, if_pos present]
        exact Function.update_self _ _ _
      have online : getVapContainerOnline (agentRemoveVap v b c) b = getVapContainerOnline v b := by
        change ((agentRemoveVap v b c).agents b).vapContainerSet.values.countP
          (isOnline (agentRemoveVap v b c)) =
          (v.agents b).vapContainerSet.values.countP (isOnline v)
        rw [isOnline_agentRemoveVap, agents, counted]
        simp
      simp only [gap, size, online, agents, length]
      refine Prod.ext ?_ rfl
      push_cast
      omega
    · refine gap_congr b ?_ (isOnline_agentRemoveVap v a c)
      rw [agentRemoveVap, if_pos present]
      exact Function.update_of_ne same _ _
  · rw [agentRemoveVap, if_neg present]

theorem gap_agentRemoveVap_other (v : View) (a c : Ref) {b : Ref} (other : b ≠ a) :
    gap (agentRemoveVap v a c) b = gap v b := by
  refine gap_congr b ?_ (isOnline_agentRemoveVap v a c)
  unfold agentRemoveVap
  split
  · exact Function.update_of_ne other _ _
  · rfl

theorem gap_agentAddVap (v : View) (a c : Ref) (free : vapKey v c ∉ (v.agents a).vapContainerSet)
    (b : Ref) :
    gap (agentAddVap v a c) b =
      if b = a then ((gap v b).1, (gap v b).2 - weight (v.vaps c).status) else gap v b := by
  -- a container that is on line counts when it is added
  by_cases same : b = a
  · subst same
    rw [if_pos rfl]
    have agents : (agentAddVap v b c).agents b = { v.agents b with
        staCountIdle := (v.agents b).staCountIdle - 1
        vapContainerSet := (v.agents b).vapContainerSet.insert (vapKey v c) c } := by
      rw [agentAddVap, if_neg free]
      exact Function.update_self _ _ _
    have length := insert_length _ _ c free
    have online : (getVapContainerOnline (agentAddVap v b c) b : Int) =
        getVapContainerOnline v b + weight (v.vaps c).status := by
      change (((agentAddVap v b c).agents b).vapContainerSet.values.countP
        (isOnline (agentAddVap v b c)) : Int) =
        ((v.agents b).vapContainerSet.values.countP (isOnline v) : Int) + _
      rw [isOnline_agentAddVap, agents]
      simp only [Table.values]
      rw [AList.entries_insert_of_notMem free, List.map_cons, List.countP_cons]
      cases status : (v.vaps c).status with
      | onLine => simp [isOnline, status, weight]
      | offLine => simp [isOnline, status, weight]
    simp only [gap, size, online, agents, length]
    refine Prod.ext ?_ ?_
    · push_cast
      omega
    · dsimp only
      omega
  · rw [if_neg same]
    refine gap_congr b ?_ (isOnline_agentAddVap v a c)
    rw [agentAddVap, if_neg free]
    exact Function.update_of_ne same _ _

theorem gap_setVapStatus_outside (v : View) (c : Ref) (status : Status)
    (outside : ∀ b text, (v.agents b).vapContainerSet.lookup text ≠ some c) (b : Ref) :
    gap (setVapStatus v c status) b =
      if b = (v.vaps c).agent then
        ((gap v b).1, (gap v b).2 + (weight status - weight (v.vaps c).status))
      else gap v b := by
  -- a container that no table has changes the online count of its agent only
  have table : ((setVapStatus v c status).agents b).vapContainerSet =
      (v.agents b).vapContainerSet :=
    congrFun (congrArg Bindings.held (bindings_setVapStatus v c status)) b
  have online : getVapContainerOnline (setVapStatus v c status) b = getVapContainerOnline v b := by
    change ((setVapStatus v c status).agents b).vapContainerSet.values.countP
      (isOnline (setVapStatus v c status)) = _
    rw [table, isOnline_setVapStatus]
    exact countP_outside _ _ _ (outside b) (fun d away => Function.update_of_ne away _ _)
  have agents := congrFun (setVapStatus_agents v c status) b
  by_cases same : b = (v.vaps c).agent
  · subst same
    rw [Function.update_self] at agents
    simp only [if_true, gap, size, online, agents]
    refine Prod.ext rfl ?_
    dsimp only
    omega
  · rw [Function.update_of_ne same] at agents
    simp only [if_neg same, gap, size, online, agents]

theorem gap_joinNew (v w : View) (a c : Ref) (off : (v.vaps c).status = .offLine)
    (agent : (v.vaps c).agent = a)
    (outside : ∀ b text, (v.agents b).vapContainerSet.lookup text ≠ some c)
    (agents : w.agents = (setVapStatus v c .onLine).agents)
    (status : isOnline w = isOnline (setVapStatus v c .onLine))
    (free : vapKey w c ∉ (w.agents a).vapContainerSet) (b : Ref) :
    gap (agentAddVap w a c) b = gap v b := by
  have on : (w.vaps c).status = .onLine := by
    have here := congrFun status c
    rw [isOnline_setVapStatus, Function.update_self] at here
    simpa [isOnline] using here
  have middle : gap w b = gap (setVapStatus v c .onLine) b := gap_congr b (congrFun agents b) status
  rw [gap_agentAddVap w a c free b, middle, gap_setVapStatus_outside v c .onLine outside b, on,
    off, agent]
  by_cases same : b = a
  · simp [same, weight]
  · simp [same]

/-! The invariant, and what each change of the view needs to keep it. -/

def Recounted (v : View) : Prop := ∀ mac a, v.agentMap mac = some a → gap v a = (0, 0)

/-- The agent of a container, if it is tracked, has the container in its table. -/
def Counts (v : View) (c : Ref) : Prop :=
  v.agentMap (v.agents (v.vaps c).agent).macAddress = some (v.vaps c).agent →
    (v.agents (v.vaps c).agent).vapContainerSet.lookup (vapKey v c) = some c

theorem Recounted.congr {v w : View} (recounted : Recounted v) (maps : w.agentMap = v.agentMap)
    (same : ∀ a, gap w a = gap v a) : Recounted w := by
  intro mac a found
  rw [maps] at found
  exact (same a).trans (recounted mac a found)

theorem Recounted.alike {v w : View} (recounted : Recounted v) (same : Alike v w) : Recounted w :=
  recounted.congr (same.read View.agentMap) (gap_alike same)

theorem agentMap_setVapStatus (v : View) (c : Ref) (status : Status) :
    (setVapStatus v c status).agentMap = v.agentMap :=
  congrArg Prod.fst (channels_setVapStatus v c status)

theorem agentMap_agentRemoveVap (v : View) (a c : Ref) :
    (agentRemoveVap v a c).agentMap = v.agentMap :=
  congrArg Prod.fst (channels_agentRemoveVap v a c)

theorem agentMap_agentAddVap (v : View) (a c : Ref) : (agentAddVap v a c).agentMap = v.agentMap :=
  congrArg Prod.fst (channels_agentAddVap v a c)

theorem setVapStatus_recounted (v : View) (c : Ref) (status : Status) (grounded : GroundedView v)
    (counts : (v.vaps c).status ≠ status → Counts v c) (recounted : Recounted v) :
    Recounted (setVapStatus v c status) := by
  intro mac a found
  rw [agentMap_setVapStatus] at found
  rw [← recounted mac a found]
  by_cases other : a = (v.vaps c).agent
  · by_cases changes : (v.vaps c).status = status
    · subst changes
      refine gap_congr a ?_ ?_
      · rw [setVapStatus_agents, other]
        simp
      · rw [isOnline_setVapStatus]
        exact Function.update_eq_self c _
    · have named : (v.agents a).macAddress = mac := (grounded.registered mac a found).2
      refine gap_setVapStatus_held v c status grounded (counts changes ?_) a
      rw [← other, named]
      exact found
  · exact gap_setVapStatus_other v c status grounded other

theorem agentRemoveVap_recounted (v : View) (a c : Ref) (grounded : GroundedView v)
    (fits : v.agentMap (v.agents a).macAddress = some a →
      ∀ d, (v.agents a).vapContainerSet.lookup (vapKey v c) = some d → (v.vaps d).status = .offLine)
    (recounted : Recounted v) : Recounted (agentRemoveVap v a c) := by
  intro mac b found
  rw [agentMap_agentRemoveVap] at found
  rw [← recounted mac b found]
  by_cases other : b = a
  · subst other
    have named : (v.agents b).macAddress = mac := (grounded.registered mac b found).2
    exact gap_agentRemoveVap v b c (fits (by rw [named]; exact found)) b
  · exact gap_agentRemoveVap_other v a c other

theorem recounted_of {v w : View} (recounted : Recounted v) (agents : w.agents = v.agents)
    (vaps : w.vaps = v.vaps) (maps : w.agentMap = v.agentMap) : Recounted w :=
  recounted.congr maps fun a => gap_congr a (congrFun agents a) (by unfold isOnline; rw [vaps])

theorem closeSocket_recounted (v : View) (order : Order) (sc : Ref) (grounded : GroundedView v)
    (recounted : Recounted v) : Recounted (closeSocket v order sc) := by
  -- the containers of a closed connection are no longer counted, as its agent is not tracked
  cases opened : v.isOpen sc with
  | false =>
      have result : closeSocket v order sc = v := by simp [closeSocket, opened]
      rw [result]
      exact recounted
  | true =>
      have others : ∀ mac b, (closeSocket v order sc).agentMap mac = some b →
          (closeSocket v order sc).sc2AgentMap sc ≠ some b → gap (closeSocket v order sc) b =
              (0, 0) := by
        refine closeSocket_induct v order sc (fun w => ∀ mac b, w.agentMap mac = some b →
          w.sc2AgentMap sc ≠ some b → gap w b = (0, 0)) grounded
            (fun mac b found _ => recounted mac b found)
          ?_ ?_ ?_ (fun _ mac b found _ => recounted mac b found)
        · intro w x same before mac b found away
          have maps : x.agentMap = w.agentMap := same.read View.agentMap
          have connections : x.sc2AgentMap = w.sc2AgentMap := same.read View.sc2AgentMap
          rw [maps] at found
          rw [connections] at away
          exact (gap_alike same b).trans (before mac b found away)
        · intro w a c ground named held before mac b found away
          have maps : (resetVap w a c).agentMap = w.agentMap :=
            congrArg Prod.fst (channels_resetVap w a c)
          rw [maps] at found
          rw [resetVap_sc2AgentMap] at away
          have other : b ≠ a := fun same => away (same ▸ named)
          rw [← before mac b found away]
          rcases resetVap_cases w a c ground with ⟨-, result⟩ | ⟨-, -, result⟩ | ⟨-, -, result⟩
          · rw [result]
            exact gap_agentRemoveVap_other w a c other
          · rw [result]
            exact gap_agentRemoveVap_other _ a c other
          · rw [result]
            exact gap_agentRemoveVap_other _ a c other
        · intro w a ground named empty before mac b found away
          rw [shut_agentMap] at found
          have address : mac ≠ (w.agents a).macAddress := by
            rintro rfl
            simp at found
          rw [Function.update_of_ne address] at found
          have other : b ≠ a := by
            rintro rfl
            exact address (ground.registered mac b found).2.symm
          have agents : (shut w sc a).agents b = w.agents b := Function.update_of_ne other _ _
          rw [gap_congr b agents rfl]
          refine before mac b found ?_
          rw [named]
          exact fun same => other (Option.some.inj same).symm
      intro mac b found
      refine others mac b found ?_
      rw [(closeSocket_frees v order sc opened).1]
      simp

/-! Aging. -/

/-- What a tracked agent has on line under the key of a container of a station is the working
container of the station. -/
def AgeFits (b : Bindings) (agentMap : Text → Option Ref) : Prop :=
  ∀ s c d, b.stationMap.lookup (b.stationMac s) = some s → b.vapStation c = s →
    (b.stored s).lookup (b.key c) = some c →
      agentMap (b.agentMac (b.vapAgent c)) = some (b.vapAgent c) →
    (b.held (b.vapAgent c)).lookup (b.key c) = some d → b.vapStatus d = .onLine →
    b.status s = .onLine ∧ b.working s = some d

theorem AgeFits.shrinks {b b' : Bindings} {agentMap agentMap' : Text → Option Ref}
    (fits : AgeFits b agentMap) (steady : Steady b b')
    (removes : ∀ s key c, (b'.stored s).lookup key = some c → (b.stored s).lookup key = some c)
    (releases : ∀ a key c, (b'.held a).lookup key = some c → (b.held a).lookup key = some c)
    (maps : ∀ mac a, agentMap' mac = some a → agentMap mac = some a)
    (statuses : b'.vapStatus = b.vapStatus)
    (stays : ∀ s c d, (b'.stored s).lookup (b.key c) = some c →
      (b.held (b.vapAgent c)).lookup (b.key c) = some d →
      b.status s = .onLine → b.working s = some d → b'.status s = .onLine ∧ b'.working s = some d) :
    AgeFits b' agentMap' := by
  intro s c d tracked own stored agent held on
  rw [steady.stationMap, steady.stationMac] at tracked
  rw [steady.vapStation] at own
  rw [steady.key] at stored held
  rw [steady.agentMac, steady.vapAgent] at agent
  rw [steady.vapAgent] at held
  rw [statuses] at on
  have before := releases _ _ _ held
  obtain ⟨online, working⟩ :=
    fits s c d tracked own (removes s _ c stored) (maps _ _ agent) before on
  exact stays s c d stored before online working

theorem resetVap_ageFits (v : View) (a c : Ref) (grounded : GroundedView v)
    (fits : AgeFits (bindings v) v.agentMap) :
    AgeFits (bindings (resetVap v a c)) (resetVap v a c).agentMap := by
  have maps : (resetVap v a c).agentMap = v.agentMap := congrArg Prod.fst (channels_resetVap v a c)
  have steady := resetVap_steady v a c
  have shrinks := resetVap_shrinks v a c
  rw [maps]
  rcases resetVap_cases v a c grounded with ⟨-, result⟩ | ⟨-, -, result⟩ | ⟨found, working, result⟩
  · have after : bindings (resetVap v a c) =
        (bindings v).release a c := by rw [result, bindings_agentRemoveVap]
    rw [after] at steady shrinks ⊢
    exact fits.shrinks steady shrinks.stored shrinks.held (fun _ _ known => known) rfl
      (fun _ _ _ _ _ online here => ⟨online, here⟩)
  · have after : bindings (resetVap v a c) =
        ((bindings v).drop (v.vaps c).station c).release a c := by
      rw [result, bindings_agentRemoveVap, bindings_stationRemoveVap]
    rw [after] at steady shrinks ⊢
    exact fits.shrinks steady shrinks.stored shrinks.held (fun _ _ known => known) rfl
      (fun _ _ _ _ _ online here => ⟨online, here⟩)
  · have after : bindings (resetVap v a c) = ((((bindings v).drop (v.vaps c).station c).setStatus
        (v.vaps c).station .offLine).setWorking (v.vaps c).station none).release a c := by
      rw [result, bindings_agentRemoveVap, bindings_updateSumTraffic, bindings_setWorking,
        bindings_setStationStatus, bindings_stationRemoveVap]
    rw [after] at steady shrinks ⊢
    refine fits.shrinks steady shrinks.stored shrinks.held (fun _ _ known => known) rfl ?_
    intro s e d stored held online here
    by_cases same : s = (v.vaps c).station
    · -- the station loses its working container, so nothing of it is left under the key
      subst same
      cases here.symm.trans working
      have key : (bindings v).key e = (bindings v).key c := (grounded.held _ _ c held).2.2
      rw [key] at stored
      have gone : (Function.update (bindings v).stored (v.vaps c).station
          (((bindings v).stored (v.vaps c).station).erase ((bindings v).key c))
            (v.vaps c).station).lookup
          ((bindings v).key c) = some e := stored
      rw [Function.update_self, AList.lookup_erase] at gone
      cases gone
    · exact ⟨(Function.update_of_ne same _ _).trans online,
        (Function.update_of_ne same _ _).trans here⟩

theorem closeSocket_ageFits (v : View) (order : Order) (sc : Ref) (grounded : GroundedView v)
    (fits : AgeFits (bindings v) v.agentMap) :
    AgeFits (bindings (closeSocket v order sc)) (closeSocket v order sc).agentMap := by
  refine closeSocket_induct v order sc (fun w => AgeFits (bindings w) w.agentMap) grounded fits ?_
    (fun w a c ground _ _ before => resetVap_ageFits w a c ground before) ?_ (fun _ => fits)
  · intro w x same before
    rw [same.bindings, show x.agentMap = w.agentMap from same.read View.agentMap]
    exact before
  · intro w a _ _ _ before
    rw [bindings_shut, shut_agentMap]
    refine before.shrinks ⟨rfl, rfl, rfl, rfl, rfl, rfl⟩ (fun _ _ _ found => found)
      (fun _ _ _ found => found) ?_ rfl
      (fun _ _ _ _ _ online here => ⟨online, here⟩)
    intro mac b found
    by_cases same : mac = (w.agents a).macAddress
    · subst same
      simp at found
    · rwa [Function.update_of_ne same] at found

theorem Upkeep.ageFits {who : Ref → Prop} {now : Int} {v w : View} (move : Upkeep who now v w)
    (grounded : GroundedView v) (fits : AgeFits (bindings v) v.agentMap) :
    AgeFits (bindings w) w.agentMap := by
  cases move with
  | alike same =>
      rw [same.bindings, show w.agentMap = v.agentMap from same.read View.agentMap]
      exact fits
  | close order sc b linked silent asked => exact closeSocket_ageFits v order sc grounded fits

theorem Upkeep.recounted {who : Ref → Prop} {now : Int} {v w : View} (move : Upkeep who now v w)
    (grounded : GroundedView v) (recounted : Recounted v) : Recounted w := by
  cases move with
  | alike same => exact recounted.alike same
  | close order sc b linked silent asked =>
      exact closeSocket_recounted v order sc grounded recounted

theorem Upkeeps.recounted {who : Ref → Prop} {now : Int} {v w : View} (moves : Upkeeps who now v w)
    (grounded : GroundedView v) (recounted : Recounted v) : Recounted w :=
  (moves.invariant Recounted grounded recounted fun _ _ ground move before => Upkeep.recounted move
    ground before).2

theorem removeVap_recounted (v : View) (a s c : Ref) (grounded : GroundedView v)
    (fits : v.agentMap (v.agents a).macAddress = some a →
      ∀ d, (v.agents a).vapContainerSet.lookup (vapKey v c) = some d → (v.vaps d).status = .offLine)
    (recounted : Recounted v) : Recounted (removeVap v a s c) :=
  recounted_of (agentRemoveVap_recounted v a c grounded fits recounted) rfl rfl rfl

theorem ages_recounted {now : Int} {v w : View} (moves : Ages now v w) (grounded : GroundedView v)
    (fits : AgeFits (bindings v) v.agentMap) (recounted : Recounted v) : Recounted w := by
  refine (Ages.invariant (fun x => Recounted x ∧ AgeFits (bindings x) x.agentMap) grounded
    ⟨recounted, fits⟩
    ?_ moves).2.1
  rintro x y ground move ⟨counted, ageFits⟩
  cases move with
  | upkeep move => exact ⟨Upkeep.recounted move ground counted, Upkeep.ageFits move ground ageFits⟩
  | drop s c tracked off own listed =>
      constructor
      · refine removeVap_recounted x (x.vaps c).agent s c ground (fun known d held => ?_) counted
        cases status : (x.vaps d).status with
        | offLine => rfl
        | onLine =>
            -- an entry that is on line would make the station on line
            rcases listed with stored | ⟨-, empty⟩
            · have online := (ageFits s c d tracked own stored known held status).1
              exact absurd (off.symm.trans online) (by simp)
            · exact absurd (empty.symm.trans held) (by simp)
      · have steady := removeVap_steady x (x.vaps c).agent s c
        have shrinks := removeVap_shrinks x (x.vaps c).agent s c
        have maps : (removeVap x (x.vaps c).agent s c).agentMap = x.agentMap :=
          agentMap_agentRemoveVap x _ c
        rw [maps]
        rw [bindings_removeVap] at steady shrinks ⊢
        exact ageFits.shrinks steady shrinks.stored shrinks.held (fun _ _ known => known) rfl
          (fun _ _ _ _ _ online here => ⟨online, here⟩)
  | untrack s tracked off idle =>
      refine ⟨recounted_of counted rfl rfl rfl, ?_⟩
      intro t c d known
      exact ageFits t c d (lookup_erase_some known)

/-! Reports and acknowledgements. -/

theorem registerAgent_recounted (v : View) (now : Int) (sc : Ref) (mac : Text)
    (recounted : Recounted v) : Recounted (registerAgent v now sc mac) := by
  have agents := registerAgent_agents v now sc mac
  have status : isOnline (registerAgent v now sc mac) = isOnline v := by
    unfold registerAgent
    dsimp only
    split
    · rfl
    · rfl
  have maps (address : Text) (a : Ref)
      (found : (registerAgent v now sc mac).agentMap address = some a) :
      a = v.nextAgent ∨ v.agentMap address = some a := by
    unfold registerAgent at found
    dsimp only at found
    split at found
    · by_cases same : address = mac
      · subst same
        exact .inl (by simpa [mirror] using found.symm)
      · exact .inr (by simpa [mirror, same] using found)
    · exact .inr found
  intro address a found
  by_cases new : a = v.nextAgent
  · subst new
    have fresh : (registerAgent v now sc mac).agents v.nextAgent =
        { macAddress := mac, sc := some sc, lastHeard := now } := by rw [agents,
          Function.update_self]
    have none_held : getVapContainerOnline (registerAgent v now sc mac) v.nextAgent = 0 := by
      unfold getVapContainerOnline
      rw [fresh]
      rfl
    simp only [gap, none_held, size, fresh]
    rfl
  · have before := (maps address a found).resolve_left new
    rw [← recounted address a before]
    exact gap_congr a (by rw [agents, Function.update_of_ne new]) status

theorem informAgent_recounted (v : View) (a : Ref) (totStaSize channel : Int) (mode message : Text)
    (curPos : Int) (empty : size v a = 0) (recounted : Recounted v) :
    Recounted (informAgent v a totStaSize channel mode message curPos) := by
  intro mac b found
  have before : gap v b = (0, 0) := recounted mac b found
  rw [← before]
  by_cases same : b = a
  · subst same
    have held : ((informAgent v b totStaSize channel mode message curPos).agents
        b).vapContainerSet =
        (v.agents b).vapContainerSet := by simp [informAgent, mirror, updAgent]
    have online : getVapContainerOnline (informAgent v b totStaSize channel mode message curPos) b =
        getVapContainerOnline v b := by
      unfold getVapContainerOnline
      rw [held]
      rfl
    have table : size (informAgent v b totStaSize channel mode message curPos) b = size v b := by
      unfold size
      rw [held]
    have idle := congrArg Prod.fst before
    simp only [gap] at idle ⊢
    rw [online, table, idle, empty]
    simp [informAgent, mirror, updAgent]
  · exact gap_congr b (by simp [informAgent, mirror, updAgent, same]) rfl

theorem resumeVap_recounted (v : View) (now : Int) (s c : Ref) (grounded : GroundedView v)
    (counts : (v.vaps c).status = .offLine → Counts v c) (recounted : Recounted v) :
    Recounted (resumeVap v now s c) := by
  have switched := setVapStatus_recounted v c .onLine grounded (fun changes => counts (by
    cases status : (v.vaps c).status with
    | onLine => exact absurd status changes
    | offLine => rfl)) recounted
  have heard := switched.alike (alike_setLastProbeHeard _ c now)
  exact recounted_of heard rfl rfl rfl

theorem adoptVap_recounted (v : View) (now : Int) (s c : Ref) (grounded : GroundedView v)
    (counts : Counts v c) (recounted : Recounted v) : Recounted (adoptVap v now s c) := by
  have switched := setVapStatus_recounted v c .onLine grounded (fun _ => counts) recounted
  have heard := switched.alike (alike_setLastProbeHeard _ c now)
  exact recounted_of heard rfl rfl rfl

theorem new_outside (v : View) (grounded : GroundedView v) (b : Ref) (text : Text) :
    (v.agents b).vapContainerSet.lookup text ≠ some v.nextVap := by
  intro found
  exact absurd (grounded.held b text v.nextVap found).1 (Nat.lt_irrefl _)

theorem gap_newVapContainer (v : View) (s a : Ref) (ssid : Text)
    (outside : ∀ b text, (v.agents b).vapContainerSet.lookup text ≠ some v.nextVap) (b : Ref) :
    gap (newVapContainer v s a ssid) b = gap v b := by
  have online : getVapContainerOnline (newVapContainer v s a ssid) b =
      getVapContainerOnline v b := by
    change (v.agents b).vapContainerSet.values.countP (isOnline (newVapContainer v s a ssid)) =
      (v.agents b).vapContainerSet.values.countP (isOnline v)
    refine countP_outside _ _ _ (outside b) (fun d other => ?_)
    simp [isOnline, newVapContainer, other]
  simp only [gap, online]
  rfl

def broughtNew (v : View) (now : Int) (s a : Ref) (ssid : Text) : View :=
  setLastProbeHeard (setVapStatus (newVapContainer v s a ssid) v.nextVap .onLine) v.nextVap now

theorem gap_broughtNew (v w : View) (now : Int) (s a : Ref) (ssid : Text)
    (outside : ∀ b text, (v.agents b).vapContainerSet.lookup text ≠ some v.nextVap)
    (agents : w.agents = (broughtNew v now s a ssid).agents)
    (vaps : w.vaps = (broughtNew v now s a ssid).vaps)
    (address : (w.stations s).macAddress = (v.stations s).macAddress)
    (free : (v.agents a).macAddress ++ (v.stations s).macAddress ++
      ssid ∉ (v.agents a).vapContainerSet) (b : Ref) :
    gap (agentAddVap w a v.nextVap) b = gap v b := by
  -- the new container is added to the table of its agent, after changes of stations only
  let created := newVapContainer v s a ssid
  have bound := bindings_setVapStatus created v.nextVap .onLine
  have brought : bindings (broughtNew v now s a ssid) =
      ((bindings v).create s a ssid).setVap v.nextVap .onLine := by
    simp only [broughtNew, bindings_setLastProbeHeard, bindings_setVapStatus,
      bindings_newVapContainer]
  have table : (w.agents a).vapContainerSet = (v.agents a).vapContainerSet := by
    rw [agents]
    exact congrFun (congrArg Bindings.held brought) a
  have key : vapKey w v.nextVap = (v.agents a).macAddress ++ (v.stations s).macAddress ++ ssid := by
    have agent : (w.vaps v.nextVap).agent = a := by
      rw [vaps]
      exact (congrFun (congrArg Bindings.vapAgent brought) v.nextVap).trans
        (Function.update_self _ _ _)
    have station : (w.vaps v.nextVap).station = s := by
      rw [vaps]
      exact (congrFun (congrArg Bindings.vapStation brought) v.nextVap).trans
        (Function.update_self _ _ _)
    have name : (w.vaps v.nextVap).ssid = ssid := by
      rw [vaps]
      exact (congrFun (congrArg Bindings.vapSsid brought) v.nextVap).trans
        (Function.update_self _ _ _)
    have mac : (w.agents a).macAddress = (v.agents a).macAddress := by
      rw [agents]
      exact congrFun (congrArg Bindings.agentMac brought) a
    rw [vapKey, agent, station, name, mac, address]
  have status : isOnline w = isOnline (setVapStatus created v.nextVap .onLine) := by
    unfold isOnline
    rw [vaps]
    funext d
    exact congrArg (fun status : Status => decide (status = .onLine))
      (congrFun (congrArg Bindings.vapStatus (bindings_setLastProbeHeard _ v.nextVap now)) d)
  have joined := gap_joinNew created w a v.nextVap (by simp [created, newVapContainer])
    (by simp [created, newVapContainer]) outside agents status (by rw [key, table]; exact free) b
  exact joined.trans (gap_newVapContainer v s a ssid outside b)

theorem joinVap_recounted (v : View) (now : Int) (s a : Ref) (ssid : Text)
    (grounded : GroundedView v) (free : agentVap v a s ssid = none) (recounted : Recounted v) :
    Recounted (joinVap v now s a ssid) := by
  have maps : (joinVap v now s a ssid).agentMap = v.agentMap :=
    congrArg Prod.fst (channels_joinVap v now s a ssid)
  refine recounted.congr maps (gap_broughtNew v _ now s a ssid (new_outside v grounded) rfl rfl ?_
    (AList.lookup_eq_none.mp free))
  simp [setWorking, stationAddVap, setLastProbeHeard, updStation, updVap, newVapContainer]

theorem createStation_recounted (v : View) (now : Int) (a : Ref) (mac ssid : Text)
    (grounded : GroundedView v)
    (free : (v.agents a).macAddress ++ mac ++ ssid ∉ (v.agents a).vapContainerSet)
    (recounted : Recounted v) :
    Recounted (createStation v now a mac ssid) := by
  let seen : View := { v with
    stations := Function.update v.stations v.nextStation { macAddress := mac, status := .onLine }
    nextStation := v.nextStation + 1 }
  have named : (seen.stations v.nextStation).macAddress = mac := by simp [seen]
  have maps : (createStation v now a mac ssid).agentMap = v.agentMap :=
    (agentMap_agentAddVap _ a v.nextVap).trans
      (agentMap_setVapStatus (newVapContainer seen v.nextStation a ssid) v.nextVap .onLine)
  have before : Recounted seen := recounted_of recounted rfl rfl rfl
  refine before.congr maps
    (gap_broughtNew seen _ now v.nextStation a ssid (new_outside v grounded) rfl rfl ?_ ?_)
  · simp [seen, bringOnline, setWorking, stationAddVap, setLastProbeHeard, updStation, updVap,
      newVapContainer]
  · rw [named]
    exact free

theorem leaveVap_recounted (v : View) (now : Int) (s c : Ref) (grounded : GroundedView v)
    (counts : (v.vaps c).status = .onLine → Counts v c) (recounted : Recounted v) :
    Recounted (leaveVap v now s c) := by
  have agents : (leftStation v s c).agents = v.agents := by
    unfold leftStation
    split
    · rfl
    · rfl
  have vaps : (leftStation v s c).vaps = v.vaps := by
    unfold leftStation
    split
    · rfl
    · rfl
  have maps : (leftStation v s c).agentMap = v.agentMap := by
    unfold leftStation
    split
    · rfl
    · rfl
  have left : Recounted (leftStation v s c) := recounted_of recounted agents vaps maps
  rw [leaveVap_eq]
  refine Recounted.alike ?_ (alike_setLastProbeHeard _ c now)
  split
  · rename_i on
    refine setVapStatus_recounted _ c .offLine ?_ (fun _ => ?_) left
    · unfold leftStation
      split
      · exact setWorking_grounded _ s none (setStationStatus_grounded v s .offLine grounded)
      · exact grounded
    · have key : vapKey (leftStation v s c) c = vapKey v c := by
        unfold leftStation
        split
        · have bound : bindings (setWorking (setStationStatus v s .offLine) s none) =
              ((bindings v).setStatus s .offLine).setWorking s none := by
            rw [bindings_setWorking, bindings_setStationStatus]
          exact congrFun (congrArg Bindings.key bound) c
        · rfl
      unfold Counts
      rw [agents, vaps, maps, key]
      exact counts on
  · exact left

theorem counts_setStationStatus (v : View) (s c : Ref) (status : Status) (counts : Counts v c) :
    Counts (setStationStatus v s status) c := by
  have key : vapKey (setStationStatus v s status) c = vapKey v c :=
    congrFun (congrArg Bindings.key (bindings_setStationStatus v s status)) c
  unfold Counts
  rw [key]
  exact counts

theorem switchOff_recounted (v : View) (s c : Ref) (grounded : GroundedView v)
    (counts : (v.vaps c).status = .onLine → Counts v c) (recounted : Recounted v) :
    Recounted (switchOff v s c) := by
  refine setVapStatus_recounted _ c .offLine (setStationStatus_grounded v s .offLine grounded)
    (fun changes => ?_)
    (recounted_of recounted rfl rfl rfl)
  refine counts_setStationStatus v s c .offLine (counts ?_)
  cases status : (v.vaps c).status with
  | onLine => rfl
  | offLine => exact absurd status changes

/-- What an acknowledged deletion may find: the container counts, and where the entry under its
key is removed, this is the container itself or off line. -/
structure DelCounts (v : View) (a s c : Ref) : Prop where
  counts : (v.vaps c).status = .onLine → Counts v c
  entry : (v.vaps c).status = .offLine ∨
    (∃ d, (v.stations s).workingVapContainer = some d ∧ d ≠ c) →
    ∀ d, (v.agents a).vapContainerSet.lookup (vapKey v c) = some d → d = c ∨
      (v.vaps d).status = .offLine

theorem DelCounts.alike {v u : View} {a s c : Ref} (fits : DelCounts v a s c) (same : Alike v u) :
    DelCounts u a s c where
  counts := by
    have read : ((u.vaps c).status = .onLine → Counts u c) =
        ((v.vaps c).status = .onLine → Counts v c) :=
      same.read fun x => (x.vaps c).status = .onLine → Counts x c
    rw [read]
    exact fits.counts
  entry := by
    have status (d : Ref) : (u.vaps d).status = (v.vaps d).status := same.read fun x =>
        (x.vaps d).status
    have working : (u.stations s).workingVapContainer = (v.stations s).workingVapContainer :=
      same.read fun x => (x.stations s).workingVapContainer
    have found : (u.agents a).vapContainerSet.lookup (vapKey u c) =
        (v.agents a).vapContainerSet.lookup (vapKey v c) :=
      same.read fun x => (x.agents a).vapContainerSet.lookup (vapKey x c)
    intro removes d held
    rw [status, working] at removes
    rw [found] at held
    rw [status]
    exact fits.entry removes d held

theorem Acknowledgement.recounted {v w : View} {a s c : Ref} (done : Acknowledgement v a s c w)
    (grounded : GroundedView v) (fits : DelCounts v a s c) (recounted : Recounted v) :
    Recounted w := by
  have off := switchOff_recounted v s c grounded fits.counts recounted
  have ground := switchOff_grounded v s c grounded
  cases done with
  | idle on free => exact off
  | cleared on here => exact recounted_of off rfl rfl rfl
  | elsewhere d on working other removed =>
      rcases removed with rfl | rfl
      · exact off
      · have bound := bindings_switchOff v s c
        refine removeVap_recounted _ a s c ground (fun _ e held => ?_) off
        have key : vapKey (switchOff v s c) c = vapKey v c :=
          congrFun (congrArg Bindings.key bound) c
        have table : ((switchOff v s c).agents a).vapContainerSet = (v.agents a).vapContainerSet :=
          congrFun (congrArg Bindings.held bound) a
        have status : ((switchOff v s c).vaps e).status =
            Function.update (bindings v).vapStatus c .offLine e :=
          congrFun (congrArg Bindings.vapStatus bound) e
        rw [key, table] at held
        rw [status]
        by_cases same : e = c
        · rw [same, Function.update_self]
        · rw [Function.update_of_ne same]
          exact (fits.entry (.inr ⟨d, working, other⟩) e held).resolve_left same
  | offLine status removed =>
      rcases removed with rfl | rfl
      · exact recounted
      · refine removeVap_recounted v a s c grounded (fun _ e held => ?_) recounted
        rcases fits.entry (.inl status) e held with rfl | entry
        · exact status
        · exact entry

theorem createVap_recounted (v : View) (now : Int) (order : Order) (isRoam : Bool)
    (message : StationCtrlMessage) (s : Ref) (grounded : GroundedView v)
    (accepted : Accepted v now order isRoam message s) (recounted : Recounted v) :
    Recounted (createVap v now s message.agent message.ssid) := by
  let created := setLastProbeHeard (newVapContainer v s message.agent message.ssid) v.nextVap now
  have off : (created.vaps v.nextVap).status = .offLine := by
    simp [created, setLastProbeHeard, newVapContainer, updVap]
  refine recounted.congr (agentMap_agentAddVap created message.agent v.nextVap) fun b => ?_
  have heard : gap created b = gap v b :=
    (gap_alike (alike_setLastProbeHeard _ v.nextVap now) b).trans
      (gap_newVapContainer v s message.agent message.ssid (new_outside v grounded) b)
  change gap (agentAddVap created message.agent v.nextVap) b = gap v b
  rw [gap_agentAddVap created message.agent v.nextVap accepted.free b, heard, off]
  split
  · simp [weight]
  · rfl

/-- What a report for a known station may find: a stored container that comes on line counts, and
a new one is made only where the agent has room for its key. -/
structure JoinCounts (v : View) (s a : Ref) (ssid : Text) : Prop where
  stored : ∀ c, stationVap v s a ssid = some c → (v.vaps c).status = .offLine →
    SwitchesOn v s a ssid → Counts v c
  absent : stationVap v s a ssid = none → isLinked v s a = true →
    (v.stations s).status = .onLine ∧ (SwitchesOn v s a ssid → agentVap v a s ssid = none)

theorem Admission.recounted {v w : View} {now : Int} {s a : Ref} {ssid : Text}
    (admission : Admission v now s a ssid w) (grounded : GroundedView v)
    (fits : JoinCounts v s a ssid)
    (recounted : Recounted v) : Recounted w := by
  cases admission with
  | unchanged same => exact recounted.alike same
  | @resume u c same stored switches =>
      refine resumeVap_recounted u now s c (same.grounded grounded) (fun off => ?_)
        (recounted.alike same)
      have status : (u.vaps c).status = (v.vaps c).status := same.read fun x => (x.vaps c).status
      have read : Counts u c = Counts v c := same.read fun x => Counts x c
      rw [read]
      exact fits.stored c stored (status ▸ off) switches
  | @join u same absent switches free =>
      have read : agentVap u a s ssid = agentVap v a s ssid := same.read fun x =>
          agentVap x a s ssid
      refine joinVap_recounted u now s a ssid (same.grounded grounded) ?_ (recounted.alike same)
      rw [read]
      rcases free with linked | free
      · exact (fits.absent absent linked).2 switches
      · exact free
  | adopt c absent unlinked held =>
      obtain ⟨-, own, named⟩ := grounded.held a _ c held
      refine adoptVap_recounted v now s c grounded (fun _ => ?_) recounted
      have agent : (v.vaps c).agent = a := own
      have key : vapKey v c = (v.agents a).macAddress ++ (v.stations s).macAddress ++ ssid :=
        named.symm
      rw [agent, key]
      exact held
  | stray same linked absent off =>
      exact absurd (off.symm.trans (fits.absent absent linked).1) (by simp)

theorem gap_updAgent (v : View) (a : Ref) (change : Agent → Agent)
    (idle : (change (v.agents a)).staCountIdle = (v.agents a).staCountIdle)
    (online : (change (v.agents a)).staCountOnline = (v.agents a).staCountOnline)
    (sum : (change (v.agents a)).statCountSum = (v.agents a).statCountSum)
    (held : (change (v.agents a)).vapContainerSet = (v.agents a).vapContainerSet) (b : Ref) :
    gap (updAgent v a change) b = gap v b := by
  by_cases same : b = a
  · subst same
    have here : (updAgent v b change).agents b = change (v.agents b) := Function.update_self _ _ _
    have recount : getVapContainerOnline (updAgent v b change) b = getVapContainerOnline v b := by
      unfold getVapContainerOnline
      rw [here, held]
      rfl
    simp only [gap, size, recount, here, idle, online, sum, held]
  · exact gap_congr b (Function.update_of_ne same _ _) rfl

theorem countTraffic_recounted (v : View) (a s : Ref) (up down : Int64) (recounted : Recounted v) :
    Recounted (countTraffic v a s up down) := by
  have added (up' down' : Int64) : Recounted (addSumTraffic v a up' down') :=
    recounted.congr rfl (gap_updAgent v a _ rfl rfl rfl rfl)
  unfold countTraffic
  dsimp only
  refine recounted_of (v := if _ then _ else _) ?_ rfl rfl rfl
  split
  · exact recounted_of (added up down) rfl rfl rfl
  · exact added _ _

/-- The steps after which the counters are still those of a recount. -/
def KeepsCount (v : View) (event : Event) : Prop :=
  match event.op with
  | .newStation sc message =>
      ∀ a mac ssid, newReport v event.order sc message = some (a, mac, ssid) →
      (v.stationMap.lookup mac = none →
        (v.agents a).macAddress ++ mac ++ ssid ∉ (v.agents a).vapContainerSet) ∧
      ∀ s, v.stationMap.lookup mac = some s → JoinCounts v s a ssid
  | .delStation sc message => ∀ s c, departed v event.order sc message = some (s, c) →
      (v.vaps c).status = .onLine → Counts v c
  | .interfaceNum sc message =>
      ∀ a fields, v.sc2AgentMap sc = some a → takeInterface message = some fields →
      size v a = 0
  | .ok sc message => ∀ a s c, v.sc2AgentMap sc = some a → acknowledged v sc message = some (s, c) →
      DelCounts v a s c
  | .age => AgeFits (bindings v) v.agentMap
  | _ => True

theorem closeFormer_recounted (v : View) (order : Order) (sc : Ref) (mac : Text)
    (grounded : GroundedView v) (recounted : Recounted v) :
    Recounted (closeFormer v order sc mac) := by
  unfold closeFormer
  split
  · exact recounted
  · split
    · exact recounted
    · split
      · exact closeSocket_recounted v order _ grounded recounted
      · exact recounted

theorem next_recounted (v : View) (event : Event) (fits : KeepsCount v event)
    (holds : GroundedView v ∧ Recounted v) :
    GroundedView (next v event) ∧ Recounted (next v event) := by
  obtain ⟨op, now, order⟩ := event
  obtain ⟨grounded, recounted⟩ := holds
  refine ⟨next_grounded v ⟨op, now, order⟩ grounded, ?_⟩
  have effect := step_effect v now order op grounded
  change Recounted (step v now order op)
  generalize step v now order op = w at effect
  cases effect with
  | upkeep moves => exact Upkeeps.recounted moves grounded recounted
  | accept => exact recounted
  | heard sc a registered => exact recounted.congr rfl (gap_updAgent v a _ rfl rfl rfl rfl)
  | close sc => exact closeSocket_recounted v order sc grounded recounted
  | displace sc message mac after taken =>
      exact closeFormer_recounted v order sc mac grounded recounted
  | register sc message mac after taken opened =>
      exact registerAgent_recounted _ now sc mac
        (closeFormer_recounted v order sc mac grounded recounted)
  | create sc a message mac ssid report unknown moves =>
      have agent := registered_lt grounded (newReport_registered v order report)
      exact Upkeeps.recounted moves (createStation_grounded v now a mac ssid grounded agent unknown)
        (createStation_recounted v now a mac ssid grounded ((fits a mac ssid report).1 unknown)
          recounted)
  | admitted sc a s message mac ssid report known admission moves =>
      have agent := registered_lt grounded (newReport_registered v order report)
      have joins := (fits a mac ssid report).2 s known
      have named : (v.stations s).macAddress = mac := (grounded.tracked mac s known).2
      subst named
      exact Upkeeps.recounted moves (Admission.grounded admission grounded agent known)
        (Admission.recounted admission grounded joins recounted)
  | leave sc a s c message mac ssid registered known stored left =>
      exact leaveVap_recounted v now s c grounded (fits s c left) recounted
  | flow sc s a message up down report => exact countTraffic_recounted v a s up down recounted
  | probe sc message info taken unknown same =>
      have seen : Recounted (probeStation v info.staMacAddr).1 := by
        simp only [probeStation, unknown]
        exact recounted_of recounted rfl rfl rfl
      exact seen.alike same
  | inform sc a message mode totStaSize channel curPos registered taken =>
      exact informAgent_recounted v a totStaSize channel mode message curPos
        (fits a _ registered taken) recounted
  | acknowledge sc a s c message mac ssid same registered known stored listed done =>
      exact Acknowledgement.recounted done (same.grounded grounded)
        ((fits a s c registered listed).alike same) (recounted.alike same)
  | add isRoam message s adds accepted same =>
      exact (createVap_recounted v now order isRoam message s grounded accepted recounted).alike
        same
  | age moves => exact ages_recounted moves grounded fits recounted

/-- In every run whose steps meet the condition, the idle and the online count of every tracked
agent are those of a recount of its table. -/
theorem counters_recounted (v : View) (reached : Reaches next KeepsCount View.empty v) (mac : Text)
    (a : Ref) (tracked : v.agentMap mac = some a) :
    (v.agents a).staCountIdle =
      (v.agents a).statCountSum - (v.agents a).vapContainerSet.values.length ∧
    (v.agents a).staCountOnline = getVapContainerOnline v a := by
  have start : GroundedView View.empty ∧ Recounted View.empty :=
    ⟨grounded_empty, fun _ _ found => by cases found⟩
  have holds := reached.invariant (fun v => GroundedView v ∧ Recounted v) start next_recounted
  have gaps := holds.2 mac a tracked
  have idle := congrArg Prod.fst gaps
  have online := congrArg Prod.snd gaps
  dsimp only [gap, size] at idle online
  constructor
  · omega
  · omega

theorem joined_recounted :
    let v := run next View.empty (hello 0 apMac ++ [join 0 apMac 400])
    (v.agents 0).staCountIdle = 7 ∧
      (v.agents 0).staCountIdle =
        (v.agents 0).statCountSum - (v.agents 0).vapContainerSet.values.length ∧
      (v.agents 0).staCountOnline = getVapContainerOnline v 0 := by
  have fits : Allowed next KeepsCount View.empty (hello 0 apMac ++ [join 0 apMac 400]) := by
    refine ⟨trivial, trivial, ?_, ?_, trivial⟩
    · intro a fields registered _
      have agent : (run next View.empty ((hello 0 apMac).take 2)).sc2AgentMap 0 =
          some 0 := by decide +kernel
      cases agent.symm.trans registered
      change size (run next View.empty ((hello 0 apMac).take 2)) 0 = 0
      decide +kernel
    · intro a mac ssid report
      have fields : newReport (run next View.empty (hello 0 apMac)) .stored 0 (joinReport apMac) =
          some (0, staMac, "w".toList) := by decide +kernel
      cases fields.symm.trans report
      have unknown : (run next View.empty (hello 0 apMac)).stationMap.lookup staMac =
          none := by decide +kernel
      refine ⟨fun _ => ?_, fun s known => absurd (unknown.symm.trans known) (by simp)⟩
      change ((run next View.empty (hello 0 apMac)).agents 0).macAddress ++ staMac ++ "w".toList ∉
        ((run next View.empty (hello 0 apMac)).agents 0).vapContainerSet
      decide +kernel
  have reached : Reaches next KeepsCount View.empty _ := Reaches.append _ .start fits
  exact ⟨by decide +kernel, counters_recounted _ reached apMac 0 (by decide +kernel)⟩

/-- An interface report that comes again sets the idle count to the whole capacity. -/
theorem idle_count_reset :
    ¬ ∀ events mac a, (run next View.empty events).agentMap mac = some a →
      ((run next View.empty events).agents a).staCountIdle =
        ((run next View.empty events).agents a).statCountSum -
          ((run next View.empty events).agents a).vapContainerSet.values.length := by
  intro all
  let events := hello 0 apMac ++
      [join 0 apMac 400, ⟨.interfaceNum 0 "000211101502080300601001w".toList, 500, .stored⟩]
  have count := all events apMac 0 (by decide +kernel)
  exact absurd count (by decide +kernel)

end LazyAS.AgentCounters

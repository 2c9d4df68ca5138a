import LazyAS.StepEffects

/-! What a NEW_STA report leaves behind: the station on line, working with a container of the
reporting agent and the reported SSID that both sides have. Each leaf of the handler sets other
fields, so each needs something else for it, and the deletions at the end may still close the
connection of the reporting agent itself. -/
namespace LazyAS.JoinOutcome
open WireText ControllerView Master VapBindings BindingLaws ViewGrowth ViewGround ViewMoves
  StepEffects
open StationCoherence Runs

/-- The station works with the container, which is the agent's, has the SSID and is stored on both
sides. -/
structure WorksWith (v : View) (s a : Ref) (ssid : Text) (c : Ref) : Prop where
  status : (v.stations s).status = .onLine
  working : (v.stations s).workingVapContainer = some c
  agent : (v.vaps c).agent = a
  ssid : (v.vaps c).ssid = ssid
  online : (v.vaps c).status = .onLine
  stored : c ∈ (v.stations s).vapContainerSet.values
  held : c ∈ (v.agents a).vapContainerSet.values

/-- The station of the address is tracked and on line at the agent. -/
def OnlineAt (v : View) (a : Ref) (staMacAddr ssid : Text) : Prop :=
  ∃ s c, v.stationMap.lookup staMacAddr = some s ∧ WorksWith v s a ssid c

/-- The same of the bindings, where a container is found under its own key. -/
structure Settled (b : Bindings) (s a : Ref) (ssid : Text) (c : Ref) : Prop where
  status : b.status s = .onLine
  working : b.working s = some c
  agent : b.vapAgent c = a
  ssid : b.vapSsid c = ssid
  online : b.vapStatus c = .onLine
  stored : (b.stored s).lookup (b.key c) = some c
  held : (b.held a).lookup (b.key c) = some c

theorem worksWith_iff {v : View} (grounded : GroundedView v) (s a : Ref) (ssid : Text) (c : Ref) :
    WorksWith v s a ssid c ↔ Settled (bindings v) s a ssid c := by
  constructor
  · rintro ⟨status, working, agent, name, online, stored, held⟩
    exact ⟨status, working, agent, name, online, (stored_iff grounded s c).mp stored,
      (held_iff grounded a c).mp held⟩
  · rintro ⟨status, working, agent, name, online, stored, held⟩
    exact ⟨status, working, agent, name, online, (stored_iff grounded s c).mpr stored,
      (held_iff grounded a c).mpr held⟩

/-! The outcomes of the handler. -/

section Outcomes

variable {b : Bindings} {agentMap : Text → Option Ref} {isOpen : Ref → Bool} {s a : Ref}
    {ssid : Text}

theorem resumed_settled {c : Ref} (stored : (b.stored s).lookup (b.key c) = some c) :
    (∃ d, Settled (resumed b s c) s a ssid d) ↔
      b.vapAgent c = a ∧ b.vapSsid c = ssid ∧ (b.held a).lookup (b.key c) = some c := by
  constructor
  · rintro ⟨d, settled⟩
    have here : some c = some d := (Function.update_self s _ _).symm.trans settled.working
    cases here
    exact ⟨settled.agent, settled.ssid, settled.held⟩
  · rintro ⟨agent, name, held⟩
    exact ⟨c, Function.update_self _ _ _, Function.update_self _ _ _, agent, name,
      Function.update_self _ _ _,
      stored, held⟩

theorem adopted_settled {c : Ref} (held : (b.held a).lookup (b.key c) = some c)
    (own : b.vapAgent c = a) :
    (∃ d, Settled (adopted b s c) s a ssid d) ↔ b.status s = .onLine ∧ b.vapSsid c = ssid := by
  constructor
  · rintro ⟨d, settled⟩
    have here : some c = some d := (Function.update_self s _ _).symm.trans settled.working
    cases here
    exact ⟨settled.status, settled.ssid⟩
  · rintro ⟨online, name⟩
    refine ⟨c, online, Function.update_self _ _ _, own, name, Function.update_self _ _ _, ?_, held⟩
    change (Function.update b.stored s ((b.stored s).insert (b.key c) c) s).lookup (b.key c) =
      some c
    rw [Function.update_self]
    exact AList.lookup_insert _

theorem joined_settled (grounded : Grounded b agentMap isOpen) :
    (∃ d, Settled (joined b s a ssid) s a ssid d) ↔
      b.status s = .onLine ∧ (b.held a).lookup (b.agentMac a ++ b.stationMac s ++ ssid) = none := by
  -- a new container settles it if the agent has nothing under the key yet
  have key : (adopted (b.create s a ssid) s b.nextVap).key b.nextVap = b.agentMac a ++
      b.stationMac s ++ ssid :=
    create_key s a ssid
  unfold joined Bindings.hold
  rw [key]
  split
  · -- the agent keeps what it has, which is not the new container
    rename_i taken
    have present : (b.held a).lookup (b.agentMac a ++ b.stationMac s ++ ssid) ≠ none :=
      fun absent => AList.lookup_eq_none.mp absent taken
    refine ⟨fun found => ?_, fun both => absurd both.2 present⟩
    obtain ⟨d, settled⟩ := found
    have here : some b.nextVap = some d := (Function.update_self s _ _).symm.trans settled.working
    cases here
    exact absurd (grounded.held a _ b.nextVap settled.held).1 (Nat.lt_irrefl _)
  · rename_i free
    have absent : (b.held a).lookup (b.agentMac a ++ b.stationMac s ++ ssid) = none :=
      AList.lookup_eq_none.mpr free
    refine ⟨fun ⟨d, settled⟩ => ⟨settled.status, absent⟩, fun both => ⟨b.nextVap, ?_⟩⟩
    refine ⟨both.1, Function.update_self _ _ _, Function.update_self _ _ _,
      Function.update_self _ _ _,
      Function.update_self _ _ _, ?_, ?_⟩
    · change (Function.update b.stored s
        ((b.stored s).insert ((b.create s a ssid).key b.nextVap) b.nextVap) s).lookup
        ((b.create s a ssid).key b.nextVap) = some b.nextVap
      rw [Function.update_self]
      exact AList.lookup_insert _
    · change (Function.update b.held a
        ((b.held a).insert (b.agentMac a ++ b.stationMac s ++ ssid) b.nextVap) a).lookup
        ((b.create s a ssid).key b.nextVap) = some b.nextVap
      rw [Function.update_self, create_key]
      exact AList.lookup_insert _

end Outcomes

/-- When a report leaves a known station settled. A report that switches needs a container that both
sides can have, and a station that is on line where it does not set the status itself. -/
def Welcomes (v : View) (s a : Ref) (ssid : Text) : Prop :=
  (¬ SwitchesOn v s a ssid → ∃ c, WorksWith v s a ssid c) ∧
  (SwitchesOn v s a ssid →
    match stationVap v s a ssid with
    | some c => (v.vaps c).agent = a ∧ (v.vaps c).ssid = ssid ∧
        c ∈ (v.agents a).vapContainerSet.values
    | none =>
        (v.stations s).status = .onLine ∧
        match agentVap v a s ssid with
        | none => True
        | some c => isLinked v s a = false ∧ (v.vaps c).ssid = ssid)

theorem decided_settled {v : View} (grounded : GroundedView v) {s a : Ref} {ssid : Text}
    {after : Bindings} (decided : Decided v s a ssid after) :
    (∃ c, Settled after s a ssid c) ↔ Welcomes v s a ssid := by
  -- the handler's change of a known station settles it exactly then
  unfold Welcomes
  cases decided with
  | keep stays =>
      simp only [stays, not_false_eq_true, true_implies, false_implies, and_true]
      exact exists_congr fun c => (worksWith_iff grounded s a ssid c).symm
  | resume c stored switches =>
      have own := (grounded.stored s _ c stored).2.1
      have found : ((bindings v).stored s).lookup ((bindings v).key c) = some c := own ▸ stored
      simp only [switches, not_true_eq_false, true_implies, false_implies, true_and, stored]
      rw [resumed_settled found, held_iff grounded]
      rfl
  | join absent switches free =>
      simp only [switches, not_true_eq_false, true_implies, false_implies, true_and, absent]
      rw [joined_settled grounded]
      refine and_congr_right fun online => ?_
      change agentVap v a s ssid = none ↔ _
      cases held : agentVap v a s ssid with
      | none => simp
      | some c =>
          rcases free with linked | none
          · simp [linked]
          · exact absurd (held.symm.trans none) (by simp)
  | adopt c absent switches unlinked held =>
      obtain ⟨-, own, key⟩ := grounded.held a _ c held
      have found : ((bindings v).held a).lookup ((bindings v).key c) = some c := key ▸ held
      simp only [switches, not_true_eq_false, true_implies, false_implies, true_and, absent, held,
        unlinked]
      exact adopted_settled found own
  | stray absent linked off after shape =>
      have stays : ¬ SwitchesOn v s a ssid := by simp [SwitchesOn, linked, off, absent]
      simp only [stays, not_false_eq_true, true_implies, false_implies, and_true]
      have never (c : Ref) : ¬ WorksWith v s a ssid c := fun works => by
        cases off.symm.trans works.status
      refine iff_of_false ?_ (fun found => never _ found.choose_spec)
      rintro ⟨c, settled⟩
      rcases shape with rfl | rfl
      · cases off.symm.trans settled.status
      · -- the container the station works with is new, so it is stored nowhere
        have here : some v.nextVap = some c :=
          (Function.update_self s _ _).symm.trans settled.working
        cases here
        exact absurd (grounded.stored s _ v.nextVap settled.stored).1 (Nat.lt_irrefl _)

theorem created_settled {v : View} (grounded : GroundedView v) (now : Int) (a : Ref)
    (staMacAddr ssid : Text) (unknown : v.stationMap.lookup staMacAddr = none) :
    (∃ c, Settled (bindings (createStation v now a staMacAddr ssid)) v.nextStation a ssid c) ↔
      (v.agents a).vapContainerSet.lookup ((v.agents a).macAddress ++ staMacAddr ++ ssid) =
        none := by
  have grown := Grounded.addStation grounded staMacAddr .onLine unknown
  rw [bindings_createStation, joined_track]
  refine (joined_settled grown).trans ?_
  have status : ((bindings v).createStation staMacAddr .onLine).status v.nextStation = .onLine :=
    Function.update_self _ _ _
  have address : ((bindings v).createStation staMacAddr .onLine).stationMac v.nextStation =
      staMacAddr :=
    Function.update_self _ _ _
  dsimp only
  rw [status, address]
  exact and_iff_right rfl

/-! The deletions at the end. -/

section Closing

variable {s a c : Ref} {ssid : Text}

theorem Settled.before {v w : View} (moves : Losses v w) (steady : Steady (bindings v) (bindings w))
    (settled : Settled (bindings w) s a ssid c) : Settled (bindings v) s a ssid c := by
  have shrinks := losses_shrinks moves
  obtain ⟨status, working, agent, name, online, stored, held⟩ := settled
  rw [shrinks.key] at stored held
  exact ⟨shrinks.status s status, losses_working moves s c working, steady.vapAgent ▸ agent,
    steady.vapSsid ▸ name,
    shrinks.vapStatus c online, shrinks.stored s _ c stored, shrinks.held a _ c held⟩

theorem resetVap_spares {v : View} (grounded : GroundedView v) {x d : Ref}
    (other : (bindings v).working s ≠ some d) :
    (bindings (resetVap v x d)).status s = (bindings v).status s ∧
      (bindings (resetVap v x d)).working s = (bindings v).working s ∧
      (bindings (resetVap v x d)).vapStatus = (bindings v).vapStatus := by
  rcases resetVap_cases v x d grounded with ⟨-, result⟩ | ⟨-, -, result⟩ | ⟨-, here, result⟩
  · rw [result, bindings_agentRemoveVap]
    exact ⟨rfl, rfl, rfl⟩
  · rw [result, bindings_agentRemoveVap, bindings_stationRemoveVap]
    exact ⟨rfl, rfl, rfl⟩
  · have away : s ≠ (v.vaps d).station := by
      rintro rfl
      exact other here
    rw [result, bindings_agentRemoveVap, bindings_updateSumTraffic, bindings_setWorking,
      bindings_setStationStatus, bindings_stationRemoveVap]
    exact ⟨Function.update_of_ne away _ _, Function.update_of_ne away _ _, rfl⟩

theorem resetVap_settled {v : View} (grounded : GroundedView v) {x d : Ref} (other : x ≠ a)
    (held : (v.agents x).vapContainerSet.lookup (vapKey v d) = some d)
    (settled : Settled (bindings v) s a ssid c) :
    Settled (bindings (resetVap v x d)) s a ssid c := by
  -- clearing a container of another agent leaves the station settled
  have steady := resetVap_steady v x d
  have different : c ≠ d := by
    rintro rfl
    exact other ((grounded.held x _ c held).2.1.symm.trans settled.agent)
  have elsewhere : (bindings v).working s ≠ some d := fun here =>
    different (Option.some.inj (settled.working.symm.trans here))
  obtain ⟨status, working, vapStatus⟩ := resetVap_spares (x := x) grounded elsewhere
  refine ⟨status.trans settled.status, working.trans settled.working, ?_, ?_, ?_, ?_, ?_⟩
  · rw [steady.vapAgent]
    exact settled.agent
  · rw [steady.vapSsid]
    exact settled.ssid
  · rw [vapStatus]
    exact settled.online
  · rw [steady.key, resetVap_stored v x d grounded]
    split
    · rename_i there
      by_cases same : s = (bindings v).vapStation d
      · subst same
        rw [Function.update_self]
        exact (lookup_erase_own _ (bindings v).key there).mpr ⟨different, settled.stored⟩
      · rw [Function.update_of_ne same]
        exact settled.stored
    · exact settled.stored
  · rw [steady.key, resetVap_held, Function.update_of_ne other.symm]
    exact settled.held

theorem closeSocket_settled (v : View) (order : Order) (sc : Ref) (grounded : GroundedView v)
    (other : v.sc2AgentMap sc ≠ some a) (settled : Settled (bindings v) s a ssid c) :
    Settled (bindings (closeSocket v order sc)) s a ssid c := by
  have kept := closeSocket_induct v order sc
    (fun w => Settled (bindings w) s a ssid c ∧ ((bindings w).sc2AgentMap sc) ≠ some a) grounded
      ⟨settled, other⟩ ?_ ?_ ?_ ?_
  · exact kept.1
  · rintro w x same before
    rw [same.bindings]
    exact before
  · rintro w x d ground registered held ⟨before, away⟩
    have different : x ≠ a := by
      rintro rfl
      exact away registered
    refine ⟨resetVap_settled ground different held before, ?_⟩
    change (resetVap w x d).sc2AgentMap sc ≠ some a
    rw [resetVap_sc2AgentMap]
    exact away
  · rintro w x - - - ⟨before, away⟩
    rw [bindings_shut]
    exact ⟨{ before with }, by simp⟩
  · exact fun _ => ⟨settled, other⟩

theorem closeSocket_clears (v : View) (order : Order) (sc : Ref) (grounded : GroundedView v)
    (registered : v.sc2AgentMap sc = some a) : (bindings (closeSocket v order sc)).held a = ∅ := by
  -- closing the agent's own connection clears all it holds
  have opened := (grounded.connected sc a registered).2.1
  have cleared := closeSocket_induct v order sc
    (fun w => (bindings w).sc2AgentMap sc = some a ∨ (bindings w).held a = ∅) grounded
      (.inl registered) ?_ ?_ ?_ ?_
  · refine cleared.resolve_left fun still => ?_
    cases (closeSocket_frees v order sc opened).1.symm.trans still
  · intro w x same before
    rw [same.bindings]
    exact before
  · rintro w x d ground here held (before | empty)
    · left
      change (resetVap w x d).sc2AgentMap sc = some a
      rw [resetVap_sc2AgentMap]
      exact before
    · exact .inr (shrinks_empty (resetVap_shrinks w x d) empty)
  · rintro w x ground here empty before
    right
    rw [bindings_shut]
    rcases before with still | empty'
    · cases (here : (bindings w).sc2AgentMap sc = some x).symm.trans still
      exact empty
    · exact empty'
  · intro unnamed
    cases registered.symm.trans unnamed

/-- At a silent agent that names the reporting agent's connection as its own the station has the
SSID, so deleting it there closes that connection. -/
def ClosesReporter (v : View) (now : Int) (s a : Ref) (ssid : Text) : Prop :=
  ∃ b sc, Rival v s a ssid b ∧ agentStatus v b now = .offLine ∧ (v.agents b).sc = some sc ∧
    v.sc2AgentMap sc = some a

theorem deletions_settled {v w : View} {now : Int} (grounded : GroundedView v)
    (spared : ¬ ClosesReporter v now s a ssid) (moves : Upkeeps (Rival v s a ssid) now v w)
    (settled : Settled (bindings v) s a ssid c) : Settled (bindings w) s a ssid c := by
  refine (moves.invariant (fun x => Settled (bindings x) s a ssid c ∧ Losses v x) grounded
    ⟨settled, .refl⟩ ?_).2.1
  rintro x y ground move ⟨here, lost⟩
  refine ⟨?_, lost.trans (losses_upkeep move ground)⟩
  cases move with
  | alike same =>
      rw [same.bindings]
      exact here
  | close order sc b linked silent rival =>
      refine closeSocket_settled x order sc ground (fun registered => spared ?_) here
      have same := losses_heard lost b sc linked
      exact ⟨b, sc, rival, (agentStatus_of_heard same now).symm.trans silent,
        (congrArg Prod.fst same).symm.trans linked,
          (losses_shrinks lost).registered sc a registered⟩

/-- A silent agent that still names the connection of the reporting one. -/
structure Threat (v : View) (now : Int) (a b sc : Ref) : Prop where
  silent : agentStatus v b now = .offLine
  linked : (v.agents b).sc = some sc
  registered : v.sc2AgentMap sc = some a

theorem Threat.close {v : View} {now : Int} {b sc channel : Ref} (threat : Threat v now a b sc)
    (grounded : GroundedView v) (order : Order) (away : channel ≠ sc) :
    Threat (closeSocket v order channel) now a b sc := by
  have after := AgentRegistry.closeSocket_registry v order channel
  have kept : (AgentRegistry.registry (closeSocket v order channel)).sc b = some sc ∧
      (AgentRegistry.registry (closeSocket v order channel)).sc2AgentMap sc = some a := by
    rw [after, AgentRegistry.Registry.close]
    split
    · cases named : (AgentRegistry.registry v).sc2AgentMap channel with
      | none => exact ⟨threat.linked, threat.registered⟩
      | some d =>
          -- an agent that is found by a connection has that one, so it is not the silent agent
          have different : b ≠ d := by
            rintro rfl
            exact away (Option.some.inj
              ((grounded.connected channel b named).1.symm.trans threat.linked))
          exact ⟨(Function.update_of_ne different _ _).trans threat.linked,
            (Function.update_of_ne away.symm _ _).trans threat.registered⟩
    · exact ⟨threat.linked, threat.registered⟩
  have same := losses_heard (losses_closeSocket v order channel grounded) b sc kept.1
  exact ⟨(agentStatus_of_heard same now).trans threat.silent, kept.1, kept.2⟩

theorem empty_kept {who : Ref → Prop} {v w : View} {now : Int} (moves : Upkeeps who now v w)
    (grounded : GroundedView v) (empty : (bindings v).held a = ∅) : (bindings w).held a = ∅ :=
  shrinks_empty (losses_shrinks (losses_upkeeps moves grounded)) empty

theorem Threat.upkeeps {who : Ref → Prop} {v w : View} {now : Int} {b sc : Ref}
    (threat : Threat v now a b sc) (grounded : GroundedView v) (moves : Upkeeps who now v w) :
    Threat w now a b sc ∨ (bindings w).held a = ∅ := by
  refine (moves.invariant (fun x => Threat x now a b sc ∨ (bindings x).held a = ∅) grounded
    (.inl threat) ?_).2
  rintro x y ground move (before | empty)
  · cases move with
    | alike same =>
        have still : heard y b = heard x b := same.read fun v => heard v b
        exact .inl ⟨(agentStatus_of_heard still now).trans before.silent,
          (congrArg Prod.fst still).trans before.linked,
          (congrFun (same.read View.sc2AgentMap) sc).trans before.registered⟩
    | close order channel d linked silent asked =>
        by_cases here : channel = sc
        · subst here
          exact .inr (closeSocket_clears x order channel ground before.registered)
        · exact .inl (before.close ground order here)
  · exact .inr (empty_kept (.single move) ground empty)

theorem deletions_clear (v : View) (now : Int) (order : Order) (grounded : GroundedView v)
    (closes : ClosesReporter v now s a ssid) :
    (bindings (delOtherVaps v now order s a ssid)).held a = ∅ := by
  -- closing the reporting agent's connection leaves it without containers
  obtain ⟨b, sc, ⟨c, member, agent, other, name⟩, silent, linked, registered⟩ := closes
  obtain ⟨before, after, shape⟩ := List.append_of_mem ((order.perm _).mem_iff.mpr member)
  have listed (d : Ref) (found : d ∈ before ++ c :: after) :
      d ∈ (v.stations s).vapContainerSet.values :=
    (order.perm _).mem_iff.mp (shape ▸ found)
  unfold delOtherVaps
  rw [shape, List.foldl_append]
  have early := delOtherVaps_fold v now order s a ssid before
      (fun d found => listed d (List.mem_append_left _ found)) v
    grounded (.refl _)
  generalize before.foldl _ v = w at early
  have ground : GroundedView w :=
    (early.invariant (fun _ => True) grounded trivial (fun _ _ _ _ _ => trivial)).1
  have steady : Steady (bindings v) (bindings w) := Upkeeps.steady early grounded
  have threat : Threat v now a b sc := ⟨silent, linked, registered⟩
  rcases threat.upkeeps grounded early with still | empty
  · have agent' : (w.vaps c).agent = b := (congrFun steady.vapAgent c).trans agent
    have name' : (w.vaps c).ssid = ssid := (congrFun steady.vapSsid c).trans name
    have closing : delVapContainer w now order none b s ssid = closeSocket w order sc := by
      simp [delVapContainer, still.linked, still.registered, still.silent]
    rw [List.foldl_cons, if_pos ⟨agent'.symm ▸ agent ▸ other, name'⟩, agent', name', closing]
    have cleared := closeSocket_clears w order sc ground still.registered
    exact empty_kept (delOtherVaps_fold v now order s a ssid after
      (fun d found => listed d (List.mem_append_right _ (List.mem_cons_of_mem c found)))
        _ (closeSocket_grounded w order sc ground)
      (steady.trans (closeSocket_steady w order sc ground)))
        (closeSocket_grounded w order sc ground) cleared
  · exact empty_kept (delOtherVaps_fold v now order s a ssid (c :: after)
      (fun d found => listed d (List.mem_append_right _ found)) w ground steady) ground empty

end Closing

/-! The admission neither makes nor loses a rival. -/

def Competes (b : Bindings) (s a : Ref) (ssid : Text) (x : Ref) : Prop :=
  ∃ key c, (b.stored s).lookup key = some c ∧ b.vapAgent c = x ∧ x ≠ a ∧ b.vapSsid c = ssid

theorem rival_iff (v : View) (s a : Ref) (ssid : Text) (x : Ref) :
    Rival v s a ssid x ↔ Competes (bindings v) s a ssid x := by
  constructor
  · rintro ⟨c, member, agent, other, name⟩
    obtain ⟨key, found⟩ := (mem_values _ c).mp member
    exact ⟨key, c, found, agent, other, name⟩
  · rintro ⟨key, c, found, agent, other, name⟩
    exact ⟨c, (mem_values _ c).mpr ⟨key, found⟩, agent, other, name⟩

section Competes

variable {b : Bindings} {s a x : Ref} {ssid : Text}

theorem adopted_competes {c : Ref} (own : b.vapAgent c = a)
    (free : (b.stored s).lookup (b.key c) = none) :
    Competes (adopted b s c) s a ssid x ↔ Competes b s a ssid x := by
  have stored : (adopted b s c).stored s = (b.stored s).insert (b.key c) c :=
    Function.update_self _ _ _
  constructor
  · rintro ⟨key, d, found, agent, other, name⟩
    rw [stored] at found
    by_cases same : key = b.key c
    · rw [same, AList.lookup_insert] at found
      cases found
      exact absurd (agent.symm.trans own) other
    · rw [AList.lookup_insert_ne same] at found
      exact ⟨key, d, found, agent, other, name⟩
  · rintro ⟨key, d, found, agent, other, name⟩
    have different : key ≠ b.key c := by
      rintro rfl
      cases free.symm.trans found
    refine ⟨key, d, ?_, agent, other, name⟩
    rw [stored, AList.lookup_insert_ne different]
    exact found

theorem create_competes {agentMap : Text → Option Ref} {isOpen : Ref → Bool}
    (grounded : Grounded b agentMap isOpen) :
    Competes (b.create s a ssid) s a ssid x ↔ Competes b s a ssid x := by
  have old (key : Text) (c : Ref) (found : (b.stored s).lookup key = some c) : c ≠ b.nextVap :=
    Nat.ne_of_lt (grounded.stored s key c found).1
  refine exists_congr fun key => exists_congr fun c => and_congr_right fun found => ?_
  have agent : (b.create s a ssid).vapAgent c = b.vapAgent c :=
    Function.update_of_ne (old key c found) _ _
  have name : (b.create s a ssid).vapSsid c = b.vapSsid c :=
    Function.update_of_ne (old key c found) _ _
  rw [agent, name]

theorem joined_competes {agentMap : Text → Option Ref} {isOpen : Ref → Bool}
    (grounded : Grounded b agentMap isOpen)
    (free : (b.stored s).lookup (b.agentMac a ++ b.stationMac s ++ ssid) = none) :
    Competes (joined b s a ssid) s a ssid x ↔ Competes b s a ssid x := by
  obtain ⟨held, frame⟩ := hold_frame (adopted (b.create s a ssid) s b.nextVap) a b.nextVap
  have absent : ((b.create s a ssid).stored s).lookup ((b.create s a ssid).key b.nextVap) =
      none := by
    rw [create_key]
    exact free
  have own : (b.create s a ssid).vapAgent b.nextVap = a := Function.update_self _ _ _
  rw [joined, frame]
  exact (adopted_competes own absent).trans (create_competes grounded)

theorem created_alone {v : View} (grounded : GroundedView v) {now : Int} {staMacAddr : Text}
    (unknown : v.stationMap.lookup staMacAddr = none) :
    ¬ Rival (createStation v now a staMacAddr ssid) v.nextStation a ssid x := by
  have grown := Grounded.addStation grounded staMacAddr .onLine unknown
  have empty : ((bindings v).createStation staMacAddr .onLine).stored v.nextStation = ∅ :=
    Function.update_self _ _ _
  rw [rival_iff, bindings_createStation, joined_track]
  intro competes
  have free : (((bindings v).createStation staMacAddr .onLine).stored v.nextStation).lookup
      (((bindings v).createStation staMacAddr .onLine).agentMac a ++
        ((bindings v).createStation staMacAddr .onLine).stationMac v.nextStation ++ ssid) =
            none := by
    rw [empty]
    rfl
  obtain ⟨key, c, found, -⟩ := (joined_competes grown free).mp competes
  dsimp only at found
  rw [empty] at found
  cases found

theorem decided_competes {v : View} (grounded : GroundedView v) {after : Bindings}
    (decided : Decided v s a ssid after) :
    Competes after s a ssid x ↔ Competes (bindings v) s a ssid x := by
  cases decided with
  | keep stays => exact .rfl
  | resume c stored switches => exact .rfl
  | join absent switches free => exact joined_competes grounded absent
  | adopt c absent switches unlinked held =>
      obtain ⟨-, own, key⟩ := grounded.held a _ c held
      exact adopted_competes own (key ▸ absent)
  | stray absent linked off after shape =>
      rcases shape with rfl | rfl
      · exact create_competes grounded
      · exact create_competes grounded

end Competes

/-! The report as a whole. -/

/-- When a NEW_STA report leaves its station on line where it reported. -/
def Arrives (v : View) (now : Int) (a : Ref) (staMacAddr ssid : Text) : Prop :=
  match v.stationMap.lookup staMacAddr with
  | none => (v.agents a).vapContainerSet.lookup ((v.agents a).macAddress ++ staMacAddr ++ ssid) =
      none
  | some s => Welcomes v s a ssid ∧ ¬ ClosesReporter v now s a ssid

theorem decided_tables {v : View} {s a : Ref} {ssid : Text} {after : Bindings}
    (decided : Decided v s a ssid after) :
    after.sc2AgentMap = v.sc2AgentMap ∧ after.stationMap = v.stationMap := by
  cases decided with
  | keep stays => exact ⟨rfl, rfl⟩
  | resume c stored switches => exact ⟨rfl, rfl⟩
  | join absent switches free =>
      obtain ⟨held, frame⟩ := hold_frame
          (adopted ((bindings v).create s a ssid) s (bindings v).nextVap) a v.nextVap
      rw [joined, show (bindings v).nextVap = v.nextVap from rfl] at *
      rw [frame]
      exact ⟨rfl, rfl⟩
  | adopt c absent switches unlinked held => exact ⟨rfl, rfl⟩
  | stray absent linked off after shape =>
      rcases shape with rfl | rfl
      · exact ⟨rfl, rfl⟩
      · exact ⟨rfl, rfl⟩

theorem admitStation_thrown (v : View) (now : Int) (a : Ref) (staMacAddr ssid : Text)
    (thrown : (admitStation v now a staMacAddr ssid).1.2 = false) :
    (bindings (admitStation v now a staMacAddr ssid).1.1).working
      (admitStation v now a staMacAddr ssid).2 = none := by
  -- an exception in the handler leaves an on-line station without a working container
  unfold admitStation at thrown ⊢
  cases known : v.stationMap.lookup staMacAddr with
  | none => simp [known] at thrown
  | some s =>
      simp only [known] at thrown ⊢
      cases linked : isLinked v s a with
      | false => simp [linked] at thrown
      | true =>
          simp only [linked, if_true] at thrown ⊢
          unfold newStationKnown at thrown ⊢
          cases status : (v.stations s).status with
          | onLine =>
              simp only [status, if_true] at thrown ⊢
              cases working : ((stationHeard v s now (v.agents a).mode).stations
                s).workingVapContainer with
              | none => exact working
              | some w =>
                  simp only [working] at thrown
                  split at thrown
                  · cases thrown
                  · split at thrown
                    · cases thrown
                    · cases thrown
          | offLine =>
              simp only [status, reduceCtorEq, if_false] at thrown
              split at thrown
              · split at thrown
                · cases thrown
                · cases thrown
              · split at thrown
                · cases thrown
                · cases thrown

section Report

variable {v : View} {now : Int} {order : Order} {sc a s : Ref} {message staMacAddr ssid : Text}

theorem closesReporter_iff (grounded : GroundedView v)
    (known : v.stationMap.lookup staMacAddr = some s) :
    ClosesReporter (admitStation v now a staMacAddr ssid).1.1 now s a ssid ↔
      ClosesReporter v now s a ssid := by
  have decided := admitStation_decided v now s a staMacAddr ssid known
  obtain ⟨u, admission, same⟩ := admitStation_known v now s a staMacAddr ssid grounded known
  generalize (admitStation v now a staMacAddr ssid).1.1 = w at decided same
  have last (b : Ref) : heard w b = heard v b :=
    (same.read fun x => heard x b).trans (admission_heard admission b)
  have registered : w.sc2AgentMap = v.sc2AgentMap := (decided_tables decided).1
  refine exists_congr fun b => exists_congr fun channel => ?_
  have linked : (w.agents b).sc = (v.agents b).sc := congrArg Prod.fst (last b)
  rw [rival_iff, rival_iff, decided_competes grounded decided, agentStatus_of_heard (last b),
    linked, registered]

theorem delOtherVaps_settled (grounded : GroundedView v) :
    (∃ c, Settled (bindings (delOtherVaps v now order s a ssid)) s a ssid c) ↔
      (∃ c, Settled (bindings v) s a ssid c) ∧ ¬ ClosesReporter v now s a ssid := by
  have moves := delOtherVaps_upkeep v now order s a ssid grounded
  constructor
  · rintro ⟨c, settled⟩
    refine ⟨⟨c, settled.before (losses_upkeeps moves grounded)
      (Upkeeps.steady moves grounded)⟩, fun closes => ?_⟩
    have held := settled.held
    rw [deletions_clear v now order grounded closes] at held
    cases held
  · rintro ⟨⟨c, settled⟩, spared⟩
    exact ⟨c, deletions_settled grounded spared moves settled⟩

theorem processMsgNewStation_settled
    (report : newReport v order sc message = some (a, staMacAddr, ssid))
    (grounded : GroundedView (admitStation v now a staMacAddr ssid).1.1) :
    (∃ c, Settled (bindings (processMsgNewStation v now order sc message))
        (admitStation v now a staMacAddr ssid).2 a ssid c) ↔
      (∃ c, Settled (bindings (admitStation v now a staMacAddr ssid).1.1)
        (admitStation v now a staMacAddr ssid).2 a ssid c) ∧
      ¬ ClosesReporter (admitStation v now a staMacAddr ssid).1.1 now
        (admitStation v now a staMacAddr ssid).2 a ssid := by
  rw [processMsgNewStation_eq, report]
  cases taken : takeStation message with
  | none => simp [newReport, taken] at report
  | some fields =>
      cases fine : (admitStation v now a staMacAddr ssid).1.2 with
      | true =>
          simp only [fine, if_true]
          exact delOtherVaps_settled grounded
      | false =>
          have idle := admitStation_thrown v now a staMacAddr ssid fine
          simp only [fine, Bool.false_eq_true, if_false]
          refine iff_of_false ?_ (fun both => ?_)
          · rintro ⟨c, settled⟩
            cases idle.symm.trans settled.working
          · obtain ⟨c, settled⟩ := both.1
            cases idle.symm.trans settled.working

theorem processMsgNewStation_tracked (grounded : GroundedView v)
    (report : newReport v order sc message = some (a, staMacAddr, ssid)) :
    GroundedView (admitStation v now a staMacAddr ssid).1.1 ∧
    (processMsgNewStation v now order sc message).stationMap.lookup staMacAddr =
      some (admitStation v now a staMacAddr ssid).2 := by
  -- the station the report is about is tracked afterwards, under no other object
  have agent := registered_lt grounded (newReport_registered v order report)
  have admitted : GroundedView (admitStation v now a staMacAddr ssid).1.1 ∧
      (admitStation v now a staMacAddr ssid).1.1.stationMap.lookup staMacAddr =
        some (admitStation v now a staMacAddr ssid).2 := by
    cases known : v.stationMap.lookup staMacAddr with
    | none =>
        have created := admitStation_unknown v now a staMacAddr ssid known
        refine ⟨created.grounded
          (createStation_grounded v now a staMacAddr ssid grounded agent known), ?_⟩
        have table : (bindings (admitStation v now a staMacAddr ssid).1.1).stationMap =
            v.stationMap.insert staMacAddr v.nextStation := by
          rw [created.bindings, bindings_createStation]
        rw [admitStation_new v now a staMacAddr ssid known]
        exact (congrArg (AList.lookup staMacAddr) table).trans (AList.lookup_insert _)
    | some s =>
        obtain ⟨u, admission, same⟩ := admitStation_known v now s a staMacAddr ssid grounded known
        have named : (v.stations s).macAddress = staMacAddr :=
          (grounded.tracked staMacAddr s known).2
        have tracked : Tracked v s := by
          rw [Tracked, named]
          exact known
        refine ⟨same.grounded (Admission.grounded admission grounded agent tracked), ?_⟩
        rw [admitStation_station v now a staMacAddr ssid known]
        have table := (decided_tables (admitStation_decided v now s a staMacAddr ssid known)).2
        exact (congrArg (AList.lookup staMacAddr) table).trans known
  refine ⟨admitted.1, ?_⟩
  have moves := processMsgNewStation_upkeep v now order sc message report admitted.1
  exact (congrArg (AList.lookup staMacAddr) (Upkeeps.steady moves admitted.1).stationMap).trans
    admitted.2

end Report

/-- In every reachable view a NEW_STA report of a tracked agent leaves its station on line at the
agent and the SSID exactly when the leaf it takes can: a new station if the agent has nothing
under its key, a known one as `Welcomes` says and if no deletion closes the agent's connection. -/
theorem station_online_iff (v : View) (reached : Reaches next (fun _ _ => True) View.empty v)
    (now : Int) (order : Order) (sc a : Ref) (message staMacAddr ssid : Text)
    (report : newReport v order sc message = some (a, staMacAddr, ssid)) :
    OnlineAt (processMsgNewStation v now order sc message) a staMacAddr ssid ↔
      Arrives v now a staMacAddr ssid := by
  have grounded := reached_grounded reached
  obtain ⟨admitted, tracked⟩ : GroundedView (admitStation v now a staMacAddr ssid).1.1 ∧
      (processMsgNewStation v now order sc message).stationMap.lookup staMacAddr =
        some (admitStation v now a staMacAddr ssid).2 :=
          processMsgNewStation_tracked grounded report
  have final : GroundedView (processMsgNewStation v now order sc message) :=
    next_grounded v ⟨.newStation sc message, now, order⟩ grounded
  have online : OnlineAt (processMsgNewStation v now order sc message) a staMacAddr ssid ↔
      ∃ c, Settled (bindings (processMsgNewStation v now order sc message))
        (admitStation v now a staMacAddr ssid).2 a ssid c := by
    constructor
    · rintro ⟨s, c, found, works⟩
      cases tracked.symm.trans found
      exact ⟨c, (worksWith_iff final _ a ssid c).mp works⟩
    · rintro ⟨c, settled⟩
      exact ⟨_, c, tracked, (worksWith_iff final _ a ssid c).mpr settled⟩
  rw [online, processMsgNewStation_settled report admitted]
  unfold Arrives
  cases known : v.stationMap.lookup staMacAddr with
  | none =>
      have created := admitStation_unknown v now a staMacAddr ssid known
      rw [admitStation_new v now a staMacAddr ssid known, created.bindings,
        created_settled grounded now a staMacAddr ssid known]
      refine and_iff_left ?_
      rintro ⟨b, channel, rival, -⟩
      exact created_alone grounded known (Rival.alike created rival)
  | some s =>
      have decided := admitStation_decided v now s a staMacAddr ssid known
      rw [admitStation_station v now a staMacAddr ssid known, decided_settled grounded decided,
        closesReporter_iff grounded known]

/-- A station that was not known comes on line with its first report. -/
theorem new_station_online :
    let v := run next View.empty (hello 0 apMac)
    v.stationMap.lookup staMac = none ∧
      OnlineAt (processMsgNewStation v 400 .stored 0 (joinReport apMac)) 0 staMac ['w'] := by
  have reached : Reaches next (fun _ _ => True) View.empty (run next View.empty (hello 0 apMac)) :=
    Reaches.append _ .start ⟨trivial, trivial, trivial, trivial⟩
  have unknown : (run next View.empty (hello 0 apMac)).stationMap.lookup staMac =
      none := by decide +kernel
  have arrives : Arrives (run next View.empty (hello 0 apMac)) 400 0 staMac ['w'] := by
    unfold Arrives
    rw [unknown]
    decide +kernel
  exact ⟨unknown, (station_online_iff _ reached 400 .stored 0 0 (joinReport apMac) staMac ['w']
    (by decide +kernel)).mpr
    arrives⟩

/-- A station that only probed before gets its working container and stays off line. -/
theorem probed_station_off_line :
    ¬ ∀ (events : List Event) (now : Int) (order : Order) (sc a : Ref)
    (message staMacAddr ssid : Text),
      newReport (run next View.empty events) order sc message = some (a, staMacAddr, ssid) →
      OnlineAt (processMsgNewStation (run next View.empty events) now order sc message) a staMacAddr
        ssid := by
  intro all
  obtain ⟨s, c, found, works⟩ :=
    all (hello 0 apMac ++ [probe 0]) 400 .stored 0 0 (joinReport apMac) staMac ['w']
    (by decide +kernel)
  have tracked : (processMsgNewStation (run next View.empty (hello 0 apMac ++ [probe 0])) 400
      .stored 0
      (joinReport apMac)).stationMap.lookup staMac = some 0 := by decide +kernel
  have off : ((processMsgNewStation (run next View.empty (hello 0 apMac ++ [probe 0])) 400 .stored 0
      (joinReport apMac)).stations 0).status = .offLine := by decide +kernel
  cases tracked.symm.trans found
  cases off.symm.trans works.status

end LazyAS.JoinOutcome

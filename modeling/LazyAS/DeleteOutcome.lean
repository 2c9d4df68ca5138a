import LazyAS.StepEffects

/-! What an acknowledged deletion leaves behind: its container gone from both sides, every other
container as it was, and the station off line without a working container if that was the one.
After the working container is cleared the handler goes on to print it, so the one deletion that
should change the station never removes anything. -/
namespace LazyAS.DeleteOutcome
open WireText ControllerView Master VapBindings BindingLaws ViewGround ViewMoves StepEffects
open StationCoherence Runs

/-- The agent, the station and the SSID of the deletion an acknowledgement is for. -/
def confirmedDel (v : View) (sc : Ref) (message : Text) : Option (Ref × Ref × Text) := do
  let a ← v.sc2AgentMap sc
  let msgId ← substring message 0 4
  let sendMsg ← v.sendMsgBuffer ((v.agents a).macAddress ++ msgId)
  let s ← v.stationMap.lookup sendMsg.msg.staMacAddr
  if sendMsg.msg.msgType = .delVap then some (a, s, sendMsg.msg.ssid) else none

theorem processMsgOk_delete {v : View} (now : Int) (order : Order) {sc a s : Ref}
    {message ssid : Text} (confirmed : confirmedDel v sc message = some (a, s, ssid)) :
    ∃ sendMsgId entry, v.sc2AgentMap sc = some a ∧
      processMsgOk v now order sc message =
        acknowledgeDel (putSendMsg v sendMsgId entry) now a s ssid := by
  unfold confirmedDel at confirmed
  simp only [Option.bind_eq_bind, Option.bind_eq_some_iff] at confirmed
  obtain ⟨b, registered, msgId, taken, sendMsg, buffered, t, known, asked⟩ := confirmed
  split at asked
  · rename_i deletes
    cases asked
    refine ⟨(v.agents a).macAddress ++ msgId, some { sendMsg with status := .ok }, registered, ?_⟩
    simp only [processMsgOk, registered, taken, buffered, deletes, known]
  · cases asked

/-- The container is gone, everything else is as it was, and its station is off line without a
working container if it was the working one. -/
structure Deleted (v w : View) (a s c : Ref) : Prop where
  dropped : c ∉ (w.stations s).vapContainerSet.values
  released : c ∉ (w.agents a).vapContainerSet.values
  vaps : ∀ d, d ≠ c → w.vaps d = v.vaps d
  stored : ∀ t d, d ≠ c → (d ∈ (w.stations t).vapContainerSet.values ↔
    d ∈ (v.stations t).vapContainerSet.values)
  held : ∀ b d, d ≠ c → (d ∈ (w.agents b).vapContainerSet.values ↔
    d ∈ (v.agents b).vapContainerSet.values)
  worked : (v.stations s).workingVapContainer = some c →
    (w.stations s).status = .offLine ∧ (w.stations s).workingVapContainer = none
  spared : (v.stations s).workingVapContainer ≠ some c →
    (w.stations s).status = (v.stations s).status ∧
    (w.stations s).workingVapContainer = (v.stations s).workingVapContainer

/-- When a confirmed deletion does just that: the container is not the working one, and if it is on
line the station is off line with another working container; the agent has nothing else under its
key. -/
structure Deletable (v : View) (a s c : Ref) : Prop where
  linked : agentSetContains v s (.agent a) = true
  idle : (v.stations s).workingVapContainer ≠ some c
  quiet : (v.vaps c).status = .onLine →
    (v.stations s).status = .offLine ∧ (v.stations s).workingVapContainer ≠ none
  alone : ∀ d, (v.agents a).vapContainerSet.lookup (vapKey v c) = some d → d = c

section Removal

variable {v : View} {a s c : Ref}

theorem removeVap_stored (v : View) (a s c : Ref) : (bindings (removeVap v a s c)).stored =
    Function.update (bindings v).stored s (((bindings v).stored s).erase ((bindings v).key c)) := by
  rw [bindings_removeVap]
  rfl

theorem removeVap_held (v : View) (a s c : Ref) : (bindings (removeVap v a s c)).held =
    Function.update (bindings v).held a (((bindings v).held a).erase ((bindings v).key c)) := by
  rw [bindings_removeVap]
  rfl

theorem removeVap_vaps (v : View) (a s c : Ref) : (removeVap v a s c).vaps = v.vaps := by
  unfold removeVap agentRemoveVap
  split
  · rfl
  · rfl

theorem removeVap_gone (grounded : GroundedView v) :
    c ∉ ((removeVap v a s c).stations s).vapContainerSet.values ∧
      c ∉ ((removeVap v a s c).agents a).vapContainerSet.values := by
  have after := removeVap_grounded v a s c grounded
  rw [stored_iff after, held_iff after, (removeVap_steady v a s c).key, removeVap_stored,
    removeVap_held, Function.update_self, Function.update_self, AList.lookup_erase,
    AList.lookup_erase]
  exact ⟨by simp, by simp⟩

theorem removeVap_spares_stored (grounded : GroundedView v)
    (found : ((bindings v).stored s).lookup ((bindings v).key c) = some c) (t d : Ref)
    (other : d ≠ c) :
    d ∈ ((removeVap v a s c).stations t).vapContainerSet.values ↔
      d ∈ (v.stations t).vapContainerSet.values := by
  rw [stored_iff (removeVap_grounded v a s c grounded), stored_iff grounded,
    (removeVap_steady v a s c).key, removeVap_stored]
  by_cases same : t = s
  · subst same
    rw [Function.update_self, lookup_erase_own _ (bindings v).key found]
    exact and_iff_right other
  · rw [Function.update_of_ne same]

theorem removeVap_spares_held (grounded : GroundedView v) :
    (∀ b d, d ≠ c → (d ∈ ((removeVap v a s c).agents b).vapContainerSet.values ↔
      d ∈ (v.agents b).vapContainerSet.values)) ↔
      ∀ d, (v.agents a).vapContainerSet.lookup (vapKey v c) = some d → d = c := by
  -- the tables of agents lose no other container if the agent has none under the key
  have after := removeVap_grounded v a s c grounded
  constructor
  · intro spared d found
    by_contra other
    have key : (bindings v).key c = (bindings v).key d := (grounded.held a _ d found).2.2
    have before : ((bindings v).held a).lookup ((bindings v).key d) = some d := key ▸ found
    have still := (held_iff after a d).mp
        ((spared a d other).mpr ((held_iff grounded a d).mpr before))
    rw [(removeVap_steady v a s c).key, removeVap_held, Function.update_self,
      ← key, AList.lookup_erase] at still
    cases still
  · intro alone b d other
    rw [held_iff after, held_iff grounded, (removeVap_steady v a s c).key, removeVap_held]
    by_cases same : b = a
    · subst same
      rw [Function.update_self]
      by_cases key : (bindings v).key d = (bindings v).key c
      · rw [key, AList.lookup_erase]
        refine iff_of_false (by simp) (fun found => other (alone d found))
      · rw [AList.lookup_erase_ne key]
    · rw [Function.update_of_ne same]

theorem switchOff_vaps (v : View) (s c d : Ref) (other : d ≠ c) :
    (switchOff v s c).vaps d = v.vaps d := by
  have only (w : View) (status : Status) : (setVapStatus w c status).vaps d = w.vaps d := by
    cases before : (w.vaps c).status <;> cases status <;>
      simp [setVapStatus, updVap, updAgent, before, other]
  exact only (setStationStatus v s .offLine) .offLine

theorem switchOff_tables (v : View) (s c : Ref) :
    (bindings (switchOff v s c)).stored = (bindings v).stored ∧
      (bindings (switchOff v s c)).held = (bindings v).held ∧
      (bindings (switchOff v s c)).key = (bindings v).key ∧
        (bindings (switchOff v s c)).working = (bindings v).working := by
  rw [bindings_switchOff]
  exact ⟨rfl, rfl, rfl, rfl⟩

theorem removed_deleted {u : View} (shape : u = v ∨ u = switchOff v s c) (grounded : GroundedView v)
    (found : ((bindings v).stored s).lookup ((bindings v).key c) = some c) :
    Deleted v (removeVap u a s c) a s c ↔
      (v.stations s).workingVapContainer ≠ some c ∧ (u.stations s).status = (v.stations s).status ∧
        ∀ d, (v.agents a).vapContainerSet.lookup (vapKey v c) = some d → d = c := by
  -- the removal as a whole, after the station and the container were switched off or not
  have tables : (bindings u).stored = (bindings v).stored ∧ (bindings u).held = (bindings v).held ∧
      (bindings u).key = (bindings v).key ∧ (bindings u).working = (bindings v).working := by
    rcases shape with rfl | rfl
    · exact ⟨rfl, rfl, rfl, rfl⟩
    · exact switchOff_tables v s c
  have vaps (d : Ref) (other : d ≠ c) : u.vaps d = v.vaps d := by
    rcases shape with rfl | rfl
    · rfl
    · exact switchOff_vaps v s c d other
  have ground : GroundedView u := by
    rcases shape with rfl | rfl
    · exact grounded
    · exact switchOff_grounded v s c grounded
  obtain ⟨stored, held, key, working⟩ := tables
  have setOf (t : Ref) : (u.stations t).vapContainerSet = (v.stations t).vapContainerSet :=
    congrFun stored t
  have heldBy (b : Ref) : (u.agents b).vapContainerSet = (v.agents b).vapContainerSet :=
    congrFun held b
  have keyOf : vapKey u c = vapKey v c := congrFun key c
  have status : ((removeVap u a s c).stations s).status = (u.stations s).status :=
    congrFun (congrArg Bindings.status (bindings_removeVap u a s c)) s
  have works : ((removeVap u a s c).stations s).workingVapContainer =
      (v.stations s).workingVapContainer :=
    (congrFun (congrArg Bindings.working (bindings_removeVap u a s c)) s).trans (congrFun working s)
  have spares := removeVap_spares_held (a := a) (s := s) (c := c) ground
  rw [heldBy a, keyOf] at spares
  constructor
  · intro deleted
    have idle : (v.stations s).workingVapContainer ≠ some c := by
      intro here
      have none := (deleted.worked here).2
      rw [works, here] at none
      cases none
    refine ⟨idle, status.symm.trans (deleted.spared idle).1, spares.mp fun b d other => ?_⟩
    rw [heldBy b]
    exact deleted.held b d other
  · rintro ⟨idle, same, alone⟩
    obtain ⟨dropped, released⟩ := removeVap_gone (a := a) (s := s) (c := c) ground
    refine ⟨dropped, released, fun d other => ?_, fun t d other => ?_, fun b d other =>
      ?_, fun here => absurd here idle,
      fun _ => ⟨status.trans same, works⟩⟩
    · rw [removeVap_vaps]
      exact vaps d other
    · rw [← setOf t]
      exact removeVap_spares_stored ground (by rw [stored, key]; exact found) t d other
    · rw [← heldBy b]
      exact spares.mpr alone b d other

end Removal

theorem acknowledgeDel_deleted {v : View} (grounded : GroundedView v) (now : Int) {a s c : Ref}
    {ssid : Text} (tracked : (v.agentMap (v.agents a).macAddress).isSome)
    (online : agentStatus v a now = .onLine) (stored : stationVap v s a ssid = some c) :
    Deleted v (acknowledgeDel v now a s ssid) a s c ↔ Deletable v a s c := by
  -- what an acknowledged deletion does for a tracked agent that is on line
  have own := (grounded.stored s _ c stored).2.1
  have found : ((bindings v).stored s).lookup ((bindings v).key c) = some c := own ▸ stored
  have listed : c ∈ (v.stations s).vapContainerSet.values := (stored_iff grounded s c).mpr found
  have removes (u : View) (heard : agentStatus u a now = agentStatus v a now)
      (named : u.agentMap (u.agents a).macAddress =
      v.agentMap (v.agents a).macAddress) : removeTracked u now a s c = removeVap u a s c := by
    rw [removeTracked, heard, named]
    exact if_pos ⟨tracked, online⟩
  cases linked : agentSetContains v s (.agent a) with
  | false =>
      have same : acknowledgeDel v now a s ssid = v := if_neg (by simp [linked])
      rw [same]
      refine iff_of_false (fun deleted => deleted.dropped listed) (fun fits => ?_)
      cases linked.symm.trans fits.linked
  | true =>
      rw [acknowledgeDel_eq v now linked stored]
      cases status : (v.vaps c).status with
      | onLine =>
          have off : ((switchOff v s c).stations s).status = .offLine :=
            (congrFun (congrArg Bindings.status (bindings_switchOff v s c)) s).trans
              (Function.update_self _ _ _)
          have still : c ∈ ((switchOff v s c).stations s).vapContainerSet.values := by
            rw [show ((switchOff v s c).stations s).vapContainerSet =
              (v.stations s).vapContainerSet from congrFun (switchOff_tables v s c).1 s]
            exact listed
          rw [if_pos rfl]
          cases working : (v.stations s).workingVapContainer with
          | none =>
              refine iff_of_false (fun deleted => deleted.dropped still) (fun fits => ?_)
              exact (fits.quiet status).2 working
          | some d =>
              by_cases same : d = c
              · -- the exception comes before the removal
                subst same
                simp only [if_true]
                have kept : ((setWorking (switchOff v s d) s none).stations s).vapContainerSet =
                    ((switchOff v s d).stations s).vapContainerSet := by simp [setWorking,
                      updStation]
                exact iff_of_false (fun deleted => deleted.dropped (kept ▸ still))
                  (fun fits => fits.idle working)
              · simp only [if_neg same]
                have last := agentStatus_of_heard
                    (heard_setVapStatus (setStationStatus v s .offLine) c .offLine a) now
                have mac : ((switchOff v s c).agents a).macAddress = (v.agents a).macAddress :=
                  congrFun (congrArg Bindings.agentMac (bindings_switchOff v s c)) a
                have table : (switchOff v s c).agentMap = v.agentMap :=
                  congrArg Prod.fst (channels_setVapStatus (setStationStatus v s .offLine) c
                    .offLine)
                rw [removes (switchOff v s c) last
                  (by rw [mac, table]), removed_deleted (.inr rfl) grounded found, off, working]
                constructor
                · rintro ⟨idle, down, alone⟩
                  exact ⟨linked, working ▸ idle, fun _ => ⟨down.symm, by simp [working]⟩, alone⟩
                · rintro ⟨-, idle, quiet, alone⟩
                  exact ⟨working ▸ idle, (quiet status).1.symm, alone⟩
      | offLine =>
          rw [if_neg (by simp), removes v rfl rfl, removed_deleted (.inl rfl) grounded found]
          constructor
          · rintro ⟨idle, -, alone⟩
            exact ⟨linked, idle, fun up => absurd (status.symm.trans up) (by simp), alone⟩
          · rintro ⟨-, idle, -, alone⟩
            exact ⟨idle, rfl, alone⟩

/-- In every reachable view the acknowledgement of a deletion by an agent that is on line does
exactly what it should where the container is `Deletable`. -/
theorem confirmed_delete_iff (v : View) (reached : Reaches next (fun _ _ => True) View.empty v)
    (now : Int) (order : Order) (sc a s c : Ref) (message ssid : Text)
    (confirmed : confirmedDel v sc message = some (a, s, ssid))
    (online : agentStatus v a now = .onLine) (stored : stationVap v s a ssid = some c) :
    Deleted v (processMsgOk v now order sc message) a s c ↔ Deletable v a s c := by
  have grounded := reached_grounded reached
  obtain ⟨sendMsgId, entry, registered, result⟩ := processMsgOk_delete now order confirmed
  have tracked : (v.agentMap (v.agents a).macAddress).isSome := by
    rw [show v.agentMap (v.agents a).macAddress =
      some a from (grounded.connected sc a registered).2.2]
    rfl
  have deleted := acknowledgeDel_deleted (v := putSendMsg v sendMsgId entry) grounded now tracked
      online stored
  rw [result]
  -- the send buffer is no part of what is deleted
  constructor
  · intro done
    exact { deleted.mp { done with } with }
  · intro fits
    exact { deleted.mpr { fits with } with }

/-- A station with a container at each of two APs, of which the first is asked to delete its own. -/
def moved (between : List Event) : List Event :=
  hello 0 apMac ++ [join 0 apMac 400] ++ between ++ hello 1 otherMac ++ [join 1 otherMac 500] ++
    [⟨.task 0 true, 600, .stored⟩, ⟨.task 0 true, 600, .stored⟩]

def okMessage : Text := "0001100000".toList

def departure : List Event := [⟨.delStation 0 (joinReport apMac), 450, .stored⟩]

theorem left_container_deleted :
    let v := run next View.empty (moved departure)
    confirmedDel v 0 okMessage = some (0, 0, ['w']) ∧
        Deleted v (processMsgOk v 700 .stored 0 okMessage) 0 0 0 := by
  have reached : Reaches next (fun _ _ => True) View.empty
      (run next View.empty (moved departure)) :=
    Reaches.append _ .start (by simp [moved, departure, hello, Allowed])
  have confirmed : confirmedDel (run next View.empty (moved departure)) 0 okMessage =
      some (0, 0, ['w']) := by decide +kernel
  have deletable : Deletable (run next View.empty (moved departure)) 0 0 0 := by
    refine ⟨by decide +kernel, by decide +kernel, fun up => absurd up (by decide +kernel), fun d
      found => ?_⟩
    have held : ((run next View.empty (moved departure)).agents 0).vapContainerSet.lookup
        (vapKey (run next View.empty (moved departure)) 0) = some 0 := by decide +kernel
    exact (Option.some.inj (held.symm.trans found)).symm
  exact ⟨confirmed, (confirmed_delete_iff _ reached 700 .stored 0 0 0 0 okMessage ['w'] confirmed
    (by decide +kernel)
    (by decide +kernel)).mpr deletable⟩

/-- A station that roamed is set off line by the deletion of the container it no longer works with.
-/
theorem roamed_station_set_off_line :
    ¬ ∀ (events : List Event) (now : Int) (order : Order) (sc a s c : Ref) (message ssid : Text),
      confirmedDel (run next View.empty events) sc message = some (a, s, ssid) →
      agentStatus (run next View.empty events) a now = .onLine →
        stationVap (run next View.empty events) s a ssid = some c →
      Deleted (run next View.empty events)
        (processMsgOk (run next View.empty events) now order sc message) a s c := by
  intro all
  have deleted := all (moved []) 700 .stored 0 0 0 0 okMessage ['w'] (by decide +kernel)
      (by decide +kernel)
    (by decide +kernel)
  have same := (deleted.spared (by decide +kernel)).1
  have off : ((processMsgOk (run next View.empty (moved [])) 700 .stored 0 okMessage).stations
      0).status = .offLine := by
    decide +kernel
  have on : ((run next View.empty (moved [])).stations 0).status = .onLine := by decide +kernel
  cases (off.symm.trans same).trans on

end LazyAS.DeleteOutcome

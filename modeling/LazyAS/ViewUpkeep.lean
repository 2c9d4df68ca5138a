import LazyAS.BindingLaws

/-! The operations that only take things away: resetting an agent, closing a connection,
asking for deletions, taking back a command and aging. Each sheds bindings and leaves every
station coherent, whatever the order of iteration. -/
namespace LazyAS.ViewUpkeep
open WireText ControllerView Master VapBindings BindingLaws

theorem coherent_idle {b : Bindings} {s : Ref} (off : b.status s = .offLine)
    (idle : b.working s = none) : Coherent b s where
  online := by simp [off, idle]
  working := by simp [idle]

theorem sheds_release (b : Bindings) (a c : Ref) : Sheds b (b.release a c) :=
  ⟨shrinks_release b a c, fun _ coherent => { coherent with }⟩

theorem sheds_drop (b : Bindings) (s c : Ref)
    (spared : Coherent b s → ∀ w, b.working s = some w → b.key w ≠ b.key c) :
    Sheds b (b.drop s c) := by
  refine ⟨shrinks_drop b s c, fun t coherent => ⟨coherent.online, ?_⟩⟩
  intro w working
  obtain ⟨online, own, found⟩ := coherent.working w working
  refine ⟨online, own, ?_⟩
  by_cases same : t = s
  · subst same
    simp only [Bindings.drop, Function.update_self]
    exact (AList.lookup_erase_ne (spared coherent w working)).trans found
  · simp only [Bindings.drop, Function.update_of_ne same]
    exact found

theorem stored_key_ne {b : Bindings} (sound : Sound b) {s w c : Ref} {key : Text}
    (found : (b.stored s).lookup key = some c) (stored : (b.stored s).lookup (b.key w) = some w)
    (different : w ≠ c) : b.key w ≠ b.key c := by
  intro same
  have hit := (sound.stored s key c found).2.2
  rw [same, ← hit, found] at stored
  exact different (Option.some.inj stored).symm

theorem sheds_clear (b : Bindings) (sound : Sound b) (s : Ref) :
    Sheds b ((b.setStatus s .offLine).setWorking s none) := by
  refine ⟨(shrinks_setStatus_off b s).trans (shrinks_setWorking _ s none), ?_⟩
  have touches := (touches_setStatus b s .offLine).trans (touches_setWorking _ s none)
  intro t coherent
  by_cases same : t = s
  · subst same
    exact coherent_idle (Function.update_self _ _ _) (Function.update_self _ _ _)
  · exact touches.coherent sound same coherent

theorem sheds_detach (b : Bindings) (sound : Sound b) (s c : Ref) :
    Sheds b (((b.drop s c).setStatus s .offLine).setWorking s none) := by
  -- dropping after clearing gives the same bindings
  refine (sheds_clear b sound s).trans (sheds_drop _ s c ?_)
  intro _ w working
  simp [Bindings.setWorking] at working

theorem sheds_setVap_off (b : Bindings) (c : Ref)
    (spared : ∀ s, Coherent b s → b.working s ≠ some c) : Sheds b (b.setVap c .offLine) := by
  refine ⟨shrinks_setVap_off b c, fun s coherent => ⟨coherent.online, ?_⟩⟩
  intro w working
  obtain ⟨online, own, found⟩ := coherent.working w working
  have different : w ≠ c := by
    rintro rfl
    exact spared s coherent working
  exact ⟨(Function.update_of_ne different _ _).trans online, own, found⟩

theorem resetVap_sheds (v : View) (sound : Sound (bindings v)) (a c : Ref) :
    Sheds (bindings v) (bindings (resetVap v a c)) := by
  unfold resetVap
  simp only [bindings_agentRemoveVap]
  refine Sheds.trans ?_ (sheds_release _ a c)
  by_cases present : (v.stations (v.vaps c).station).vapContainerSet.values.contains c = true
  · rw [if_pos present]
    obtain ⟨key, found⟩ := (mem_values _ c).mp (List.contains_iff_mem.mp present)
    by_cases working : (v.stations (v.vaps c).station).workingVapContainer = some c
    · rw [if_pos (by simpa [stationRemoveVap, updStation] using working)]
      simp only [bindings_updateSumTraffic, bindings_setWorking, bindings_setStationStatus,
        bindings_stationRemoveVap]
      exact sheds_detach _ sound _ c
    · rw [if_neg (by simpa [stationRemoveVap, updStation] using working), bindings_stationRemoveVap]
      apply sheds_drop
      intro coherent w hit
      have different : w ≠ c := by
        rintro rfl
        exact working hit
      exact stored_key_ne sound found (coherent.working w hit).2.2 different
  · rw [if_neg present]
    exact .refl _

section Loops

variable (ready : Bindings → Prop) (kept : ∀ b b', Sheds b b' → ready b → ready b')

include kept

theorem foldl_sheds {Item : Type} (v : View) (body : View → Item → View)
    (start : ready (bindings v))
    (each : ∀ w item, ready (bindings w) → Sheds (bindings w) (bindings (body w item)))
    (items : List Item) : Sheds (bindings v) (bindings (items.foldl body v)) := by
  induction items generalizing v with
  | nil => exact .refl _
  | cons item items ih =>
      have first := each v item start
      exact first.trans (ih (body v item) (kept _ _ first start))

theorem whileFine_sheds (v : View) (body : View → Ref → View × Bool) (start : ready (bindings v))
    (each : ∀ w item, ready (bindings w) → Sheds (bindings w) (bindings (body w item).1))
    (items : List Ref) : Sheds (bindings v) (bindings (whileFine body v items).1) := by
  induction items generalizing v with
  | nil => exact .refl _
  | cons item items ih =>
      have first := each v item start
      unfold whileFine
      dsimp only
      split
      · exact first.trans (ih _ (kept _ _ first start))
      · exact first

end Loops

theorem sound_kept (b b' : Bindings) (sheds : Sheds b b') (sound : Sound b) : Sound b' :=
  sheds.shrinks.sound sound

theorem reset_sheds (v : View) (sound : Sound (bindings v)) (order : Order) (a : Ref) :
    Sheds (bindings v) (bindings (reset v order a)) := by
  unfold reset clearVaps
  refine (foldl_sheds Sound sound_kept v (fun w c => resetVap w a c) sound
    (fun w c sound => resetVap_sheds w sound a c)
    (order.arrange (v.agents a).vapContainerSet.values)).trans ?_
  rw [bindings_agent_sc _ _ _ rfl rfl]
  refine ⟨{ Shrinks.refl _ with connected := ?_ }, fun _ coherent => { coherent with }⟩
  intro t sc found
  by_cases same : t = a
  · subst same
    simp at found
  · simpa [same] using found

theorem closeSocket_sheds (v : View) (sound : Sound (bindings v)) (order : Order) (sc : Ref) :
    Sheds (bindings v) (bindings (closeSocket v order sc)) := by
  unfold closeSocket
  by_cases isOpen : v.isOpen sc = true
  · rw [if_pos isOpen]
    dsimp only
    cases v.sc2AgentMap sc with
    | none => exact .refl _
    | some a =>
        refine (reset_sheds { v with socketMap := Function.update v.socketMap sc false } sound order
          a).trans ?_
        refine ⟨{ Shrinks.refl _ with registered := ?_ }, fun _ coherent => { coherent with }⟩
        intro channel agent found
        by_cases same : channel = sc
        · subst same
          simp [bindings, removeAgent, mirror] at found
        · simpa [bindings, removeAgent, mirror, same] using found
  · rw [if_neg isOpen]
    exact .refl _

theorem delVapContainer_sheds (v : View) (sound : Sound (bindings v)) (now : Int) (order : Order)
    (roamType : Option RoamType) (a s : Ref) (ssid : Text) :
    Sheds (bindings v) (bindings (delVapContainer v now order roamType a s ssid)) := by
  unfold delVapContainer
  split
  · exact .refl _
  · split
    · split
      · split
        · exact .refl _
        · exact .refl _
      · exact closeSocket_sheds v sound order _
    · exact .refl _

theorem cancelTask_add (v : View) (now : Int) (order : Order) (message : StationCtrlMessage)
    (add : message.msgType = .addVap ∨ message.msgType = .addVapRoam) :
    cancelTask v now order message = v := by
  unfold cancelTask
  rcases add with add | add
  · simp only [add, agentSetContains]
    grind
  · simp only [add, agentSetContains]
    grind

theorem cancelTask_sheds (v : View) (sound : Sound (bindings v)) (now : Int) (order : Order)
    (message : StationCtrlMessage) :
    Sheds (bindings v) (bindings (cancelTask v now order message)) := by
  cases type : message.msgType with
  | addVap => rw [cancelTask_add v now order message (.inl type)]; exact .refl _
  | addVapRoam => rw [cancelTask_add v now order message (.inr type)]; exact .refl _
  | offlineVap =>
      have same : cancelTask v now order message = v := by
        unfold cancelTask
        simp only [type]
        grind
      rw [same]
      exact .refl _
  | delVap =>
      unfold cancelTask
      simp only [type]
      split
      · exact .refl _
      · split
        · split
          · exact closeSocket_sheds v sound order _
          · exact .refl _
        · exact .refl _

theorem delOtherVaps_sheds (v : View) (sound : Sound (bindings v)) (now : Int) (order : Order)
    (s a : Ref) (ssid : Text) :
    Sheds (bindings v) (bindings (delOtherVaps v now order s a ssid)) := by
  unfold delOtherVaps
  apply foldl_sheds Sound sound_kept v _ sound
  intro w c sound
  split
  · exact delVapContainer_sheds w sound now order none _ s _
  · exact .refl _

/-! Aging. -/

/-- What the aging run knows of the station it works on. -/
def Idle (s : Ref) (b : Bindings) : Prop := Sound b ∧ b.status s = .offLine

theorem idle_kept (s : Ref) (b b' : Bindings) (sheds : Sheds b b') (idle : Idle s b) : Idle s b' :=
  ⟨sheds.shrinks.sound idle.1, sheds.shrinks.offLine idle.2⟩

theorem dropVap_sheds (v : View) (now : Int) (order : Order) (s c : Ref)
    (idle : Idle s (bindings v)) :
    Sheds (bindings v) (bindings (dropVap v now order s c)) := by
  unfold dropVap
  simp only [bindings_stationRemoveVap, bindings_agentRemoveVap]
  have asked := delVapContainer_sheds v idle.1 now order none (v.vaps c).agent s (v.vaps c).ssid
  have released := asked.trans (sheds_release _ (v.vaps c).agent c)
  refine released.trans (sheds_drop _ s c ?_)
  intro coherent w working
  have off := released.shrinks.offLine idle.2
  have online := coherent.online.mpr (by rw [working]; exact Option.some_ne_none w)
  exact absurd (off.symm.trans online) (by decide)

theorem ageVap_sheds (v : View) (now : Int) (order : Order) (s c : Ref)
    (idle : Idle s (bindings v)) :
    Sheds (bindings v) (bindings (ageVap v now order s c).1) := by
  unfold ageVap
  dsimp only
  split
  · split
    · exact .refl _
    · split
      · exact dropVap_sheds v now order s c idle
      · split
        · split
          · exact .refl _
          · split
            · split
              · exact dropVap_sheds v now order s c idle
              · rw [bindings_vap_frame _ _ _ rfl rfl rfl rfl]
                exact .refl _
            · exact .refl _
        · exact .refl _
  · exact .refl _

theorem ageStation_sheds (v : View) (now : Int) (order : Order) (s : Ref)
    (sound : Sound (bindings v)) :
    Sheds (bindings v) (bindings (ageStation v now order s).1) := by
  unfold ageStation
  by_cases online : (v.stations s).status = .onLine
  · rw [if_pos online]
    exact .refl _
  · have idle : Idle s (bindings v) := by
      refine ⟨sound, ?_⟩
      change (v.stations s).status = .offLine
      cases status : (v.stations s).status with
      | onLine => exact absurd status online
      | offLine => rfl
    rw [if_neg online]
    split
    · split
      · refine foldl_sheds (Idle s) (idle_kept s) v _ idle ?_ _
        intro w c idle
        split
        · exact dropVap_sheds w now order s c idle
        · exact .refl _
      · refine ⟨{ Shrinks.refl _ with tracked := ?_ }, fun _ coherent => { coherent with }⟩
        intro mac t found
        exact lookup_erase_some found
    · exact whileFine_sheds (Idle s) (idle_kept s) v _ idle
        (fun w c idle => ageVap_sheds w now order s c idle) _

theorem ageTask_sheds (v : View) (now : Int) (order : Order) (sound : Sound (bindings v)) :
    Sheds (bindings v) (bindings (ageTask v now order)) :=
  whileFine_sheds Sound sound_kept v _ sound
    (fun w s sound => ageStation_sheds w now order s sound) _

/-! Leaving. -/

theorem sheds_leave (b : Bindings) (sound : Sound b) {s c : Ref} {key : Text}
    (found : (b.stored s).lookup key = some c) :
    Sheds b ((if b.working s = some c then (b.setStatus s .offLine).setWorking s none
      else b).setVap c
      .offLine) := by
  have own : b.vapStation c = s := (sound.stored s key c found).2.1
  split
  · refine (sheds_clear b sound s).trans (sheds_setVap_off _ c ?_)
    intro t coherent working
    have here : t = s := (coherent.working c working).2.1.symm.trans own
    subst here
    simp [Bindings.setWorking] at working
  · rename_i spared
    refine sheds_setVap_off b c ?_
    intro t coherent working
    have here : t = s := (coherent.working c working).2.1.symm.trans own
    subst here
    exact spared working

theorem bindings_switch_off (v : View) (c : Ref) :
    bindings (if (v.vaps c).status = .onLine then setVapStatus v c .offLine else v) =
      (bindings v).setVap c .offLine := by
  cases status : (v.vaps c).status with
  | onLine => rw [if_pos rfl, bindings_setVapStatus]
  | offLine =>
      rw [if_neg (by decide), Bindings.setVap, ← status]
      exact congrArg (fun f => { bindings v with vapStatus := f })
        (Function.update_eq_self c (bindings v).vapStatus).symm

theorem leaveVap_sheds (v : View) (now : Int) (sound : Sound (bindings v)) {s c : Ref} {key : Text}
    (found : ((bindings v).stored s).lookup key = some c) :
    Sheds (bindings v) (bindings (leaveVap v now s c)) := by
  have left : bindings (if (v.stations s).workingVapContainer = some c then
      setWorking (setStationStatus v s .offLine) s none else v) =
      if (bindings v).working s = some c then
        ((bindings v).setStatus s .offLine).setWorking s none else bindings v := by
    rw [apply_ite bindings, bindings_setWorking, bindings_setStationStatus]
    rfl
  unfold leaveVap
  dsimp only
  rw [bindings_setLastProbeHeard, bindings_switch_off, left]
  exact sheds_leave (bindings v) sound found

theorem processMsgDelStation_sheds (v : View) (now : Int) (order : Order) (sc : Ref)
    (message : Text) (sound : Sound (bindings v)) :
    Sheds (bindings v) (bindings (processMsgDelStation v now order sc message)) := by
  unfold processMsgDelStation
  split
  · split
    · split
      · exact .refl _
      · rename_i found
        exact leaveVap_sheds v now sound found
    · exact .refl _
  · exact .refl _

end LazyAS.ViewUpkeep

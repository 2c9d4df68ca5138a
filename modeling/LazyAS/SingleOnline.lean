import LazyAS.StationCoherence

/-! At most one container of a station is on line, the rule of the `Station` class. A NEW_STA
report switches the container of the reporting agent on and leaves switching off the others
to the deletions it asks for, so the rule fails while a station roams. In runs where a report
finds no other container on line it holds throughout. -/
namespace LazyAS.SingleOnline
open WireText ControllerView Master VapBindings BindingLaws ViewUpkeep ViewGrowth
  StationCoherence Runs

/-- A container is switched on only where every container of the station that is on line is
that very container. -/
def KeepsSingle (v : View) (event : Event) : Prop :=
  match event.op with
  | .newStation sc message =>
      ∀ a s ssid, reported v event.order sc message = some (a, s, ssid) → AdoptsOwn v s a ssid ∧
        (SwitchesOn v s a ssid → ∀ c ∈ (v.stations s).vapContainerSet.values,
          (v.vaps c).status = .onLine → stationVap v s a ssid = some c)
  | _ => True

structure SingleView (b : Bindings) : Prop where
  sound : Sound b
  single : ∀ s, Single b s

theorem SingleView.safe {b b' : Bindings} (holds : SingleView b) (safe : Safe b b') :
    SingleView b' :=
  ⟨safe.sound, fun s => safe.single s (holds.single s)⟩

theorem SingleView.shrinks {b b' : Bindings} (holds : SingleView b) (shrinks : Shrinks b b') :
    SingleView b' :=
  ⟨shrinks.sound holds.sound, fun s => shrinks.single (holds.single s)⟩

theorem processMsgNewStation_single (v : View) (now : Int) (order : Order) (sc : Ref)
    (message : Text) (holds : SingleView (bindings v))
    (fits : ∀ a s ssid, reported v order sc message = some (a, s, ssid) → AdoptsOwn v s a ssid ∧
      (SwitchesOn v s a ssid → ∀ c ∈ (v.stations s).vapContainerSet.values,
        (v.vaps c).status = .onLine → stationVap v s a ssid = some c)) :
    SingleView (bindings (processMsgNewStation v now order sc message)) := by
  rcases processMsgNewStation_outcome v now order sc message holds.sound with
    safe | ⟨a, s, ssid, w, report, agent, station, admits, finished⟩
  · exact holds.safe safe
  · obtain ⟨own, only⟩ := fits a s ssid report
    have sound := admits.sound holds.sound agent station own
    have touches := admits.touches holds.sound own
    have target (switches : SwitchesOn v s a ssid) (key : Text) (c : Ref)
        (found : ((bindings v).stored s).lookup key = some c)
        (online : (bindings v).vapStatus c = .onLine) : stationVap v s a ssid = some c :=
      only switches c ((mem_values _ c).mpr ⟨key, found⟩) online
    have none (absent : stationVap v s a ssid = none) (switches : SwitchesOn v s a ssid)
        (key : Text)
        (c : Ref) (found : ((bindings v).stored s).lookup key = some c) :
        (bindings v).vapStatus c ≠ .onLine := by
      intro online
      exact absurd (absent.symm.trans (target switches key c found online)) (by simp)
    have here : Single (bindings w) s := by
      generalize bindings w = after at admits
      cases admits with
      | unchanged => exact holds.single s
      | resume c stored switches =>
          refine resumed_single ?_
          intro key c' found online
          exact (Option.some.inj (stored.symm.trans (target switches key c' found online))).symm
      | join absent switches => exact joined_single holds.sound a ssid (none absent switches)
      | adopt c absent switches unlinked held => exact adopted_single (none absent switches)
      | stray absent off after shape =>
          rcases shape with rfl | rfl
          · exact create_single holds.sound (holds.single s) s a ssid
          · exact stray_single holds.sound a ssid (holds.single s)
    have admitted : SingleView (bindings w) := by
      refine ⟨sound, fun t => ?_⟩
      by_cases same : t = s
      · subst same
        exact here
      · exact touches.single holds.sound same (holds.single t)
    exact admitted.safe (.of_sheds sound (finished sound))

theorem excuteAddVap_single (v : View) (now : Int) (order : Order) (isRoam : Bool)
    (message : StationCtrlMessage) (holds : SingleView (bindings v)) :
    SingleView (bindings (excuteAddVap v now order isRoam message).1) := by
  rcases excuteAddVap_bindings v now order isRoam message holds.sound with
    ⟨s, -, agent, station, after⟩ | same | safe
  · rw [after]
    refine ⟨added_sound holds.sound message.ssid agent station, fun t => ?_⟩
    by_cases same : t = s
    · subst same
      exact added_single holds.sound message.agent message.ssid (holds.single t)
    · exact (touches_added s message.agent message.ssid).single holds.sound same (holds.single t)
  · rw [same]
    exact holds
  · exact holds.safe safe

theorem next_single (v : View) (event : Event) (fits : KeepsSingle v event)
    (holds : SingleView (bindings v)) : SingleView (bindings (next v event)) := by
  obtain ⟨op, now, order⟩ := event
  cases free : guarded op with
  | false => exact holds.safe (step_safe v now order op holds.sound free)
  | true =>
      cases op with
      | newStation sc message => exact processMsgNewStation_single v now order sc message holds fits
      | ok sc message =>
          rcases processMsgOk_outcome v now order sc message holds.sound with
            sheds | ⟨a, s, ssid, sendMsgId, entry, result, -⟩
          · exact holds.shrinks sheds.shrinks
          · have shrinks := acknowledgeDel_shrinks (putSendMsg v sendMsgId entry) now a s ssid
            rw [← result] at shrinks
            exact holds.shrinks shrinks
      | addVap isRoam message => exact excuteAddVap_single v now order isRoam message holds
      | cmd key =>
          rcases cmdTask_bindings v now order key with same | ⟨appCmd, -, same⟩
          · exact same ▸ holds
          · change SingleView (bindings (cmdTask v now order key))
            rw [same]
            exact excuteAddVap_single v now order false appCmd.message holds
      | _ => exact absurd free (by simp [guarded])

/-- Of the containers of a station at most one is on line. -/
def OneOnline (v : View) (s : Ref) : Prop :=
  ∀ c ∈ (v.stations s).vapContainerSet.values, ∀ c' ∈ (v.stations s).vapContainerSet.values,
    (v.vaps c).status = .onLine → (v.vaps c').status = .onLine → c = c'

/-- In every run from the empty view whose reports find no other container on line, every
tracked station has at most one container on line in every state. -/
theorem one_vap_online (v : View) (reached : Reaches next KeepsSingle View.empty v) :
    ∀ mac s, v.stationMap.lookup mac = some s → OneOnline v s := by
  have start : SingleView (bindings View.empty) := by
    refine ⟨sound_empty, fun s => ?_⟩
    intro key key' c c' found
    simp [bindings, View.empty] at found
  have holds : SingleView (bindings v) :=
    reached.invariant (fun v => SingleView (bindings v)) start next_single
  intro mac s _ c member c' member' online online'
  obtain ⟨key, found⟩ := (mem_values _ c).mp member
  obtain ⟨key', found'⟩ := (mem_values _ c').mp member'
  exact holds.single s key key' c c' found found' online online'

/-- A run that meets the condition: the station joins one AP twice. -/
theorem rejoined_station_single :
    let v := run next View.empty (hello 0 apMac ++ [join 0 apMac 400, join 0 apMac 500])
    v.stationMap.lookup staMac = some 0 ∧ OneOnline v 0 := by
  have fits : Allowed next KeepsSingle View.empty
      (hello 0 apMac ++ [join 0 apMac 400, join 0 apMac 500]) := by
    have unknown : reported (run next View.empty (hello 0 apMac)) .stored 0 (joinReport apMac) =
        none := by
      decide +kernel
    have known : reported (run next View.empty (hello 0 apMac ++ [join 0 apMac 400])) .stored 0
        (joinReport apMac) = some (0, 0, ['w']) := by decide +kernel
    refine ⟨trivial, trivial, trivial, ?_, ?_, trivial⟩
    · intro a s ssid report
      exact absurd (unknown.symm.trans report) (by simp)
    · intro a s ssid report
      cases known.symm.trans report
      refine ⟨fun unlinked => absurd unlinked (by decide +kernel), ?_⟩
      intro _ c member online
      have values : ((run next View.empty (hello 0 apMac ++ [join 0 apMac 400])).stations
          0).vapContainerSet.values = [0] := by decide +kernel
      have stored : stationVap (run next View.empty (hello 0 apMac ++ [join 0 apMac 400])) 0 0
          ['w'] =
          some 0 := by decide +kernel
      have here : c = 0 := List.mem_singleton.mp (values ▸ member)
      rw [here]
      exact stored
  have tracked : (run next View.empty
      (hello 0 apMac ++ [join 0 apMac 400, join 0 apMac 500])).stationMap.lookup staMac =
          some 0 := by
    decide +kernel
  exact ⟨tracked, one_vap_online _ (Reaches.append _ .start fits) staMac 0 tracked⟩

/-- A station that joins a second AP has a container on line at both. -/
theorem roaming_station_twice_online :
    ¬ ∀ events mac s, (run next View.empty events).stationMap.lookup mac = some s →
      OneOnline (run next View.empty events) s := by
  intro all
  have single := all (hello 0 apMac ++ hello 1 otherMac ++ [join 0 apMac 400, join 1 otherMac 500])
    staMac 0 (by decide +kernel)
  have same := single 0 (by decide +kernel) 1 (by decide +kernel) (by decide +kernel)
      (by decide +kernel)
  exact absurd same (by decide)

end LazyAS.SingleOnline

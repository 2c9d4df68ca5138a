import LazyAS.AgingStrikes

/-! The aging of containers whose station has a randomised address. The bit that tells it is looked
for in the second digit of the address as if that were written in decimal, so that only the digits
2, 3, 6 and 7 are recognised. -/
namespace LazyAS.VirtualAging
open WireText ControllerView Master VapBindings BindingLaws StationCoherence ViewGround ViewMoves
  StepEffects
open AgingVisits AgingStrikes

/-! Addresses. -/

def hexDigit (digit : Char) : Option Nat :=
  if 48 ≤ digit.toNat ∧ digit.toNat ≤ 57 then some (digit.toNat - 48)
  else if 97 ≤ digit.toNat ∧ digit.toNat ≤ 102 then some (digit.toNat - 87)
  else if 65 ≤ digit.toNat ∧ digit.toNat ≤ 70 then some (digit.toNat - 55)
  else none

def firstOctet : Text → Option Nat
  | high :: low :: _ => do
      let h ← hexDigit high
      let l ← hexDigit low
      return 16 * h + l
  | _ => none

/-- Twelve hexadecimal digits, and the bit 0x02 of the first octet is set. -/
def LocallyAdministered (macAddress : Text) : Prop :=
  macAddress.length = 12 ∧ (∀ digit ∈ macAddress, (hexDigit digit).isSome) ∧
    ∃ octet, firstOctet macAddress = some octet ∧ octet.testBit 1 = true

structure Notes where
  address : Ref → Text
  heard : Ref → Int
  heardMode : Ref → Option Text
  mode : Ref → Option Text
  vaps : Ref → VapContainer

def notes (v : View) : Notes where
  address := Station.macAddress ∘ v.stations
  heard := Station.lastHeard ∘ v.stations
  heardMode := Station.lastHeardMode ∘ v.stations
  mode := Agent.mode ∘ v.agents
  vaps := v.vaps

section Frame

variable (v : View)

theorem notes_station_frame (s : Ref) (change : Station → Station)
    (address : (change (v.stations s)).macAddress = (v.stations s).macAddress)
    (heard : (change (v.stations s)).lastHeard = (v.stations s).lastHeard)
    (mode : (change (v.stations s)).lastHeardMode = (v.stations s).lastHeardMode) :
    notes (updStation v s change) = notes v := by
  unfold notes updStation
  rw [comp_update_same Station.macAddress v.stations s _ address,
    comp_update_same Station.lastHeard v.stations s _ heard,
    comp_update_same Station.lastHeardMode v.stations s _ mode]

theorem notes_agent_frame (a : Ref) (change : Agent → Agent)
    (kept : (change (v.agents a)).mode = (v.agents a).mode) :
    notes (updAgent v a change) = notes v := by
  unfold notes updAgent
  rw [comp_update_same Agent.mode v.agents a _ kept]

theorem notes_stationRemoveVap (s c : Ref) : notes (stationRemoveVap v s c) = notes v :=
  notes_station_frame v s _ rfl rfl rfl

theorem quiet_agentRemoveVap (a c : Ref) :
    notes (agentRemoveVap v a c) = notes v ∧ (agentRemoveVap v a c).tasks = v.tasks := by
  unfold agentRemoveVap
  split
  · exact ⟨notes_agent_frame v a _ rfl, rfl⟩
  · exact ⟨rfl, rfl⟩

theorem quiet_resetVap (a c : Ref) : notes (resetVap v a c) = notes v ∧
    (resetVap v a c).tasks = v.tasks := by
  have cleared (w : View) (s : Ref) :
      notes (updateSumTraffic (setWorking (setStationStatus w s .offLine) s none) s) = notes w := by
    have off : notes (setStationStatus w s .offLine) = notes w :=
      notes_station_frame w s (fun station => { station with status := .offLine }) rfl rfl rfl
    have idle : notes (setWorking (setStationStatus w s .offLine) s none) =
        notes (setStationStatus w s .offLine) :=
      notes_station_frame _ s (fun station => { station with workingVapContainer := none }) rfl
        rfl rfl
    have summed (x : View) : notes (updateSumTraffic x s) = notes x :=
      notes_station_frame x s (fun station => { station with
        sumDownTraffic := station.sumDownTraffic + station.downTraffic
        sumUpTraffic := station.sumUpTraffic + station.upTraffic
        downTraffic := 0
        upTraffic := 0 }) rfl rfl rfl
    rw [summed, idle, off]
  unfold resetVap
  dsimp only
  refine ⟨(quiet_agentRemoveVap _ a c).1.trans ?_, (quiet_agentRemoveVap _ a c).2.trans ?_⟩
  · split
    · split
      · exact (cleared _ _).trans (notes_stationRemoveVap v _ c)
      · exact notes_stationRemoveVap v _ c
    · rfl
  · split
    · split <;> rfl
    · rfl

theorem quiet_closeSocket (order : Order) (sc : Ref) :
    notes (closeSocket v order sc) = notes v ∧ (closeSocket v order sc).tasks = v.tasks := by
  unfold closeSocket
  split
  · dsimp only
    cases v.sc2AgentMap sc with
    | none => exact ⟨rfl, rfl⟩
    | some a =>
        obtain ⟨kept, same⟩ := Runs.foldl_within (fun v w => notes w = notes v ∧ w.tasks = v.tasks)
            (fun _ => ⟨rfl, rfl⟩)
          (fun first second => ⟨second.1.trans first.1, second.2.trans first.2⟩)
            (fun w c => resetVap w a c)
          (fun w c => quiet_resetVap w a c) (order.arrange (v.agents a).vapContainerSet.values)
          { v with socketMap := Function.update v.socketMap sc false }
        exact ⟨(notes_agent_frame _ a (fun agent => { agent with lastHeard := 0, sc := none })
          rfl).trans kept, same⟩
  · exact ⟨rfl, rfl⟩

theorem notes_dropVap (now : Int) (order : Order) (s c : Ref) :
    notes (dropVap v now order s c) = notes v := by
  have asked (a : Ref) (ssid : Text) : notes (delVapContainer v now order none a s ssid) =
      notes v := by
    unfold delVapContainer
    split
    · rfl
    · split
      · split
        · split <;> rfl
        · exact (quiet_closeSocket v order _).1
      · rfl
  unfold dropVap
  dsimp only
  rw [notes_stationRemoveVap, (quiet_agentRemoveVap _ _ c).1, asked]

theorem tasks_dropVap_cases (w : View) (now : Int) (order : Order) (s d : Ref) :
    (dropVap w now order s d).tasks = w.tasks ∨
    (dropVap w now order s d).tasks = w.tasks ++ [.del none (w.vaps d).agent s (w.vaps d).ssid] ∧
      ∃ sc, (w.agents (w.vaps d).agent).sc = some sc ∧ (w.sc2AgentMap sc).isSome := by
  have result : (dropVap w now order s d).tasks =
      (delVapContainer w now order none (w.vaps d).agent s (w.vaps d).ssid).tasks :=
        (quiet_agentRemoveVap _ _ d).2
  rw [result]
  unfold delVapContainer
  split
  · exact .inl rfl
  · rename_i sc linked
    split
    · rename_i registered
      split
      · split
        · exact .inr ⟨rfl, sc, linked, registered⟩
        · exact .inl rfl
      · exact .inl (quiet_closeSocket w order _).2
    · exact .inl rfl

theorem tasks_dropVap (now : Int) (order : Order) (s c : Ref) :
    v.tasks <+: (dropVap v now order s c).tasks := by
  rcases tasks_dropVap_cases v now order s c with same | ⟨longer, -⟩
  · exact ⟨[], by rw [same, List.append_nil]⟩
  · exact ⟨_, longer.symm⟩

end Frame

def struck (v : View) (c : Ref) : VapContainer :=
  { v.vaps c with
    lastProbeHeard := (v.stations (v.vaps c).station).lastHeard
    savedProbeHeard := (v.stations (v.vaps c).station).lastHeard }

/-- What is left in a run: stations and agents are noted as before, and containers at most struck.
-/
structure Frame (v w : View) : Prop where
  noted : notes w = { notes v with vaps := w.vaps }
  vaps : ∀ c, w.vaps c = v.vaps c ∨ w.vaps c = struck v c
  tasks : v.tasks <+: w.tasks

section Frame

variable {v w : View}

theorem Frame.refl (v : View) : Frame v v := ⟨rfl, fun _ => .inl rfl, List.prefix_rfl⟩

theorem Frame.address (frame : Frame v w) (s : Ref) :
    (w.stations s).macAddress = (v.stations s).macAddress :=
  congrFun (congrArg Notes.address frame.noted) s

theorem Frame.lastHeard (frame : Frame v w) (s : Ref) :
    (w.stations s).lastHeard = (v.stations s).lastHeard :=
  congrFun (congrArg Notes.heard frame.noted) s

theorem Frame.lastHeardMode (frame : Frame v w) (s : Ref) :
    (w.stations s).lastHeardMode = (v.stations s).lastHeardMode :=
  congrFun (congrArg Notes.heardMode frame.noted) s

theorem Frame.mode (frame : Frame v w) (a : Ref) : (w.agents a).mode = (v.agents a).mode :=
  congrFun (congrArg Notes.mode frame.noted) a

theorem Frame.vap {α : Sort*} (frame : Frame v w) (c : Ref) (read : VapContainer → α)
    (kept : read (struck v c) = read (v.vaps c)) : read (w.vaps c) = read (v.vaps c) := by
  rcases frame.vaps c with same | same
  · rw [same]
  · rw [same, kept]

theorem Frame.station (frame : Frame v w) (c : Ref) : (w.vaps c).station = (v.vaps c).station :=
  frame.vap c VapContainer.station rfl

theorem Frame.agent (frame : Frame v w) (c : Ref) : (w.vaps c).agent = (v.vaps c).agent :=
  frame.vap c VapContainer.agent rfl

theorem Frame.ssid (frame : Frame v w) (c : Ref) : (w.vaps c).ssid = (v.vaps c).ssid :=
  frame.vap c VapContainer.ssid rfl

theorem Frame.status (frame : Frame v w) (c : Ref) : (w.vaps c).status = (v.vaps c).status :=
  frame.vap c VapContainer.status rfl

theorem Frame.of_notes {x : View} (frame : Frame v w) (same : notes x = notes w)
    (tasks : w.tasks <+: x.tasks) :
    Frame v x := by
  have vaps : x.vaps = w.vaps := congrArg Notes.vaps same
  refine ⟨?_, ?_, frame.tasks.trans tasks⟩
  · rw [same, frame.noted, vaps]
  · rw [vaps]
    exact frame.vaps

theorem Frame.dropVap (frame : Frame v w) (now : Int) (order : Order) (s c : Ref) :
    Frame v (dropVap w now order s c) :=
  frame.of_notes (notes_dropVap w now order s c) (tasks_dropVap w now order s c)

theorem Frame.strike (frame : Frame v w) {s c : Ref} (own : (w.vaps c).station = s) :
    Frame v (strike w s c) := by
  refine ⟨?_, fun d => ?_, frame.tasks⟩
  · exact congrArg (fun notes => { notes with vaps := (AgingStrikes.strike w s c).vaps })
      frame.noted
  · by_cases here : d = c
    · subst here
      right
      have heard : (w.stations s).lastHeard = (v.stations (v.vaps d).station).lastHeard := by
        rw [frame.lastHeard, ← own, frame.station]
      have result : (AgingStrikes.strike w s d).vaps d = { w.vaps d with
          lastProbeHeard := (w.stations s).lastHeard, savedProbeHeard :=
            (w.stations s).lastHeard } :=
        Function.update_self _ _ _
      rw [result, heard]
      rcases frame.vaps d with same | same
      · rw [same, struck]
      · rw [same, struck]
    · have result : (AgingStrikes.strike w s c).vaps d = w.vaps d := Function.update_of_ne here _ _
      rw [result]
      exact frame.vaps d

end Frame

/-! A run in which no exception is thrown. -/

/-- A container that is stored at its own station, which is tracked. -/
structure Stored (v : View) (s c : Ref) : Prop where
  tracked : Tracked v s
  found : ((bindings v).stored s).lookup ((bindings v).key c) = some c
  own : (v.vaps c).station = s

/-- The container ends the run: its station's address has no second digit, or the rule of the 12
seconds comes to a station without the mode it was heard in. -/
def Throws (v : View) (now : Int) (s c : Ref) : Prop :=
  isVirtualMac (v.stations s).macAddress = none ∨
    ∃ virtual, isVirtualMac (v.stations s).macAddress = some virtual ∧
      ¬ ((virtual ∧ now - (v.vaps c).lastProbeHeard > 300 * 1000) ∨
        now - (v.vaps c).lastProbeHeard > 600 * 1000) ∧
      (v.stations s).lastHeard - (v.vaps c).lastProbeHeard > 12 * 1000 ∧
        (v.stations s).lastHeardMode = none

/-- No off-line container of a station that was heard lately ends the run. -/
def Calm (v : View) (now : Int) : Prop :=
  ∀ s c, Stored v s c → (v.vaps c).status = .offLine → now - (v.stations s).lastHeard ≤ 600 * 1000 →
    ¬ Throws v now s c

theorem ageVap_cases (w : View) (now : Int) (order : Order) (s c : Ref) :
    (ageVap w now order s c).1 = w ∨
    (w.vaps c).station = s ∧
      ((ageVap w now order s c).1 = dropVap w now order s c ∨
        (ageVap w now order s c).1 = strike w s c) := by
  unfold ageVap
  dsimp only
  split
  · rename_i own
    split
    · exact .inl rfl
    · split
      · exact .inr ⟨own.1, .inl rfl⟩
      · split
        · split
          · exact .inl rfl
          · split
            · split
              · exact .inr ⟨own.1, .inl rfl⟩
              · exact .inr ⟨own.1, .inr rfl⟩
            · exact .inl rfl
        · exact .inl rfl
  · exact .inl rfl

theorem ageVap_fine (w : View) (now : Int) (order : Order) (s c : Ref)
    (quiet : (w.vaps c).station = s → (w.vaps c).status = .offLine → ¬ Throws w now s c) :
    (ageVap w now order s c).2 = true := by
  unfold ageVap
  dsimp only
  split
  · rename_i own
    have calm := quiet own.1 own.2
    split
    · rename_i short
      exact absurd (.inl short) calm
    · rename_i virtual address
      split
      · rfl
      · rename_i young
        split
        · rename_i late
          split
          · rename_i unheard
            exact absurd (.inr ⟨virtual, address, young, late, unheard⟩) calm
          · split
            · split <;> rfl
            · rfl
        · rfl
  · rfl

theorem Frame.calm {v w : View} {now : Int} {s c : Ref} (frame : Frame v w)
    (calm : ¬ Throws v now s c) (own : (v.vaps c).station = s) : ¬ Throws w now s c := by
  unfold Throws at calm ⊢
  rw [frame.address, frame.lastHeard, frame.lastHeardMode]
  rcases frame.vaps c with same | same
  · rwa [same]
  · -- a container that was struck has the time of its station
    rw [same]
    rintro (short | ⟨_, _, _, late, _⟩)
    · exact calm (.inl short)
    · simp only [struck, own] at late
      omega

structure Within (v : View) (now : Int) (w : View) : Prop where
  ages : Ages now v w
  grounded : GroundedView w
  frame : Frame v w

theorem Within.shrinks {v w : View} {now : Int} (within : Within v now w)
    (grounded : GroundedView v) :
    Shrinks (bindings v) (bindings w) := losses_shrinks (losses_ages within.ages grounded)

/-- The visits of other containers and stations keep a property. -/
structure Spares (v : View) (now : Int) (order : Order) (c : Ref) (holds : View → Prop) : Prop where
  drop : ∀ w s d, d ≠ c → Stored v s d → Within v now w → holds w → holds (dropVap w now order s d)
  strike : ∀ w s d, d ≠ c → holds w → holds (strike w s d)
  untrack : ∀ w mac, holds w → holds (removeStation w mac)

section Run

variable {v : View} {now : Int} {order : Order}

theorem Spares.ageVap {w : View} {s c d : Ref} {holds : View → Prop}
    (spares : Spares v now order c holds) (other : (v.vaps d).station = s → d ≠ c)
    (stored : (v.vaps d).station = s → Stored v s d) (within : Within v now w)
    (before : holds w) : holds (ageVap w now order s d).1 := by
  rcases ageVap_cases w now order s d with same | ⟨own, dropped | struck⟩
  · rwa [same]
  · rw [within.frame.station] at own
    rw [dropped]
    exact spares.drop w s d (other own) (stored own) within before
  · rw [within.frame.station] at own
    rw [struck]
    exact spares.strike w s d (other own) before

theorem Frame.ageVap {w : View} (frame : Frame v w) (now : Int) (order : Order) (s d : Ref) :
    Frame v (ageVap w now order s d).1 := by
  rcases ageVap_cases w now order s d with same | ⟨own, dropped | struck⟩
  · rwa [same]
  · rw [dropped]
    exact frame.dropVap now order s d
  · rw [struck]
    exact frame.strike own

theorem stored_before {x : View} {s d : Ref} {rest : List Ref} (grounded : GroundedView v)
    (run : AgeRun now v x (s :: rest)) (frame : Frame v x)
    (member : d ∈ (x.stations s).vapContainerSet.values)
    (own : (v.vaps d).station = s) : Stored v s d := by
  have shrinks := losses_shrinks (losses_ages run.moves grounded)
  have tracked : x.stationMap.lookup (x.stations s).macAddress = some s :=
    run.tracked s List.mem_cons_self
  have found := (stored_iff run.grounded s d).mp member
  refine ⟨?_, ?_, own⟩
  · rw [frame.address] at tracked
    exact shrinks.tracked _ s tracked
  · rw [shrinks.key] at found
    exact shrinks.stored s _ d found

theorem containers_done {x : View} {s : Ref} {rest : List Ref} (grounded : GroundedView v)
    (calm : Calm v now) (run : AgeRun now v x (s :: rest)) (frame : Frame v x)
    (resting : Resting now x s) (holds : View → List Ref → Prop)
    (start : holds x (order.arrange (x.stations s).vapContainerSet.values))
    (each : ∀ w d left, Within v now w → Listed (bindings w) s d →
      ((v.vaps d).station = s → Stored v s d) → d ∉ left →
      holds w (d :: left) → holds (ageVap w now order s d).1 left) :
    (ageStation x now order s).2 = true ∧ Frame v (ageStation x now order s).1 ∧
      holds (ageStation x now order s).1 [] := by
  -- the loop over the containers of a station comes to its end, with what each visit keeps
  rw [ageStation_resting resting]
  obtain ⟨fine, -, frame', -, done⟩ :=
    whileFine_done _ (fun w left => AgeLoop now x w s left ∧ Frame v w ∧
    (∀ d ∈ left, (v.vaps d).station = s → Stored v s d) ∧ holds w left) (by
      rintro w d left ⟨loop, framed, stored, kept⟩
      have within : Within v now w := ⟨run.moves.trans loop.moves, loop.grounded, framed⟩
      have mine := stored d List.mem_cons_self
      have once : d ∉ left := fun again => (List.pairwise_cons.mp loop.distinct).1 d again rfl
      refine ⟨?_, loop.ageVap order, framed.ageVap now order s d,
        fun e member => stored e (List.mem_cons_of_mem d member),
        each w d left within (loop.listed d List.mem_cons_self) mine once kept⟩
      refine ageVap_fine w now order s d fun own off => ?_
      rw [framed.station] at own
      have lately := resting.2
      rw [frame.lastHeard] at lately
      exact framed.calm (calm s d (mine own) (framed.status d ▸ off) lately) own)
    ⟨AgeLoop.start x now order s run.grounded (run.tracked s List.mem_cons_self) resting.1, frame,
      fun d member own => stored_before grounded run frame ((order.perm _).mem_iff.mp member) own,
        start⟩
  exact ⟨fine, frame', done⟩

theorem Spares.ageStation {x : View} {s c : Ref} {rest : List Ref} {holds : View → Prop}
    (spares : Spares v now order c holds) (grounded : GroundedView v) (calm : Calm v now)
    (run : AgeRun now v x (s :: rest)) (frame : Frame v x) (other : (v.vaps c).station ≠ s)
    (before : holds x) :
    (ageStation x now order s).2 = true ∧ Frame v (ageStation x now order s).1 ∧
      holds (ageStation x now order s).1 := by
  -- a station that is not the container's keeps what other visits keep
  have elsewhere (d : Ref) (own : (v.vaps d).station = s) : d ≠ c := by
    rintro rfl
    exact other own
  by_cases resting : Resting now x s
  · exact containers_done grounded calm run frame resting (fun w _ => holds w) before
      (fun w d left within _ stored _ kept => spares.ageVap (elsewhere d) stored within kept)
  · unfold Master.ageStation
    split
    · exact ⟨rfl, frame, before⟩
    · rename_i status
      have off : (x.stations s).status = .offLine := by
        cases here : (x.stations s).status with
        | onLine => exact absurd here status
        | offLine => rfl
      split
      · split
        · obtain ⟨-, framed, -, kept⟩ := foldl_rule (fun w d =>
              if (w.vaps d).station = s then dropVap w now order s d else w)
            (fun w left => AgeLoop now x w s left ∧ Frame v w ∧
              (∀ d ∈ left, (v.vaps d).station = s → Stored v s d) ∧ holds w) (by
              rintro w d left ⟨loop, framed, stored, kept⟩
              have remain := fun e member => stored e (List.mem_cons_of_mem d member)
              split
              · rename_i own
                have mine := framed.station d ▸ own
                refine ⟨loop.dropVap order own, framed.dropVap now order s d, remain, ?_⟩
                exact spares.drop w s d (elsewhere d mine) (stored d List.mem_cons_self mine)
                  ⟨run.moves.trans loop.moves, loop.grounded, framed⟩ kept
              · exact ⟨loop.skip, framed, remain, kept⟩)
            x (order.arrange (x.stations s).vapContainerSet.values)
            ⟨AgeLoop.start x now order s run.grounded (run.tracked s List.mem_cons_self) off, frame,
              fun d member own => stored_before grounded run frame
                ((order.perm _).mem_iff.mp member) own, before⟩
          exact ⟨rfl, framed, kept⟩
        · exact ⟨rfl, frame.of_notes rfl List.prefix_rfl, spares.untrack x _ before⟩
      · rename_i late
        exact absurd ⟨off, Int.not_lt.mp late⟩ resting

end Run

/-! What the other visits keep. -/

section Fate

variable {v : View} {now : Int} {order : Order} {s c : Ref}

theorem bindings_strike (w : View) (t d : Ref) : bindings (strike w t d) = bindings w :=
  (alike_updVap w d (fun vap => { vap with
    lastProbeHeard := (w.stations t).lastHeard, savedProbeHeard := (w.stations t).lastHeard })
      rfl).bindings

def Absent (w : View) (s c : Ref) : Prop :=
  ((bindings w).stored s).lookup ((bindings w).key c) = none ∧
    ((bindings w).held ((bindings w).vapAgent c)).lookup ((bindings w).key c) = none

theorem Absent.shrinks {w x : View} (absent : Absent w s c)
    (shrinks : Shrinks (bindings w) (bindings x)) :
    Absent x s c := by
  unfold Absent at absent ⊢
  rw [shrinks.key, shrinks.vapAgent]
  exact ⟨lookup_none (shrinks.stored s _) absent.1, lookup_none (shrinks.held _ _) absent.2⟩

def Asked (v w : View) (s c : Ref) : Prop :=
  ∃ asked, w.tasks = v.tasks ++ asked ∧ .del none (v.vaps c).agent s (v.vaps c).ssid ∈ asked

theorem Asked.later {w x : View} (asked : Asked v w s c) (longer : w.tasks <+: x.tasks) :
    Asked v x s c := by
  obtain ⟨more, same⟩ := longer
  obtain ⟨before, tasks, member⟩ := asked
  refine ⟨before ++ more, ?_, List.mem_append_left more member⟩
  rw [← same, tasks, List.append_assoc]

theorem Spares.imp {condition : Prop} {holds : View → Prop}
    (spares : condition → Spares v now order c holds) :
    Spares v now order c (fun w => condition → holds w) where
  drop := fun w t d other dropped within kept given =>
    (spares given).drop w t d other dropped within (kept given)
  strike := fun w t d other kept given => (spares given).strike w t d other (kept given)
  untrack := fun w mac kept given => (spares given).untrack w mac (kept given)

structure Linked (v : View) (c sc : Ref) : Prop where
  linked : (v.agents (v.vaps c).agent).sc = some sc
  registered : (v.sc2AgentMap sc).isSome

/-- No silent agent that has a container over the connection will have it closed. -/
def Shared (v : View) (now : Int) (sc : Ref) : Prop :=
  ∀ t d, Stored v t d → (v.agents (v.vaps d).agent).sc = some sc →
    agentStatus v (v.vaps d).agent now = .onLine

/-- The connection of the container's agent will not be closed. -/
def Safe (v : View) (now : Int) (c : Ref) : Prop := ∀ sc, Linked v c sc → Shared v now sc

/-- The container is stored still and the connection of its agent is as it was. -/
structure Held (v : View) (s c : Ref) (w : View) : Prop where
  found : ((bindings w).stored s).lookup ((bindings v).key c) = some c
  heard : heard w (v.vaps c).agent = heard v (v.vaps c).agent
  registered : ∀ sc, Linked v c sc → w.sc2AgentMap sc = v.sc2AgentMap sc

theorem Held.start (stored : Stored v s c) : Held v s c v := ⟨stored.found, rfl, fun _ _ => rfl⟩

theorem heard_resetVap (w : View) (a d b : Ref) : heard (resetVap w a d) b = heard w b := by
  unfold resetVap
  dsimp only
  rw [heard_agentRemoveVap]
  split
  · split
    · rfl
    · rfl
  · rfl

theorem Held.close {other : Ref} {w : View} (held : Held v s c w) (within : Within v now w)
    (grounded : GroundedView v) (apart : ¬ Linked v c other) :
    Held v s c (closeSocket w order other) := by
  -- closing another connection resets another agent
  have different {x : View} (kept : Held v s c x) (shrinks : Shrinks (bindings v) (bindings x))
      (a : Ref)
      (ground : GroundedView x) (named : x.sc2AgentMap other = some a) : a ≠ (v.vaps c).agent := by
    rintro rfl
    have same : (x.agents (v.vaps c).agent).sc = (v.agents (v.vaps c).agent).sc :=
      congrArg Prod.fst kept.heard
    have own : (x.agents (v.vaps c).agent).sc = some other := (ground.connected other _ named).1
    exact apart ⟨same.symm.trans own,
      Option.isSome_iff_exists.mpr ⟨_, shrinks.registered other _ named⟩⟩
  refine (closeSocket_induct w order other (fun x => Held v s c x ∧
    Shrinks (bindings v) (bindings x))
    within.grounded ⟨held, within.shrinks grounded⟩ ?_ ?_ ?_
      (fun _ => ⟨⟨held.found, held.heard, held.registered⟩,
      within.shrinks grounded⟩)).1
  · rintro x y same ⟨kept, shrinks⟩
    have bound := same.bindings
    refine ⟨⟨?_, ?_, fun sc link => ?_⟩, ?_⟩
    · rw [bound]
      exact kept.found
    · exact (same.read fun z => StepEffects.heard z (v.vaps c).agent).trans kept.heard
    · exact (same.read fun z => z.sc2AgentMap sc).trans (kept.registered sc link)
    · rw [bound]
      exact shrinks
  · rintro x a d ground named own ⟨kept, shrinks⟩
    refine ⟨⟨?_, (heard_resetVap x a d _).trans kept.heard, fun sc link => ?_⟩,
      shrinks.trans (resetVap_shrinks x a d)⟩
    · have agent : (bindings x).vapAgent d = a := (ground.held a _ d own).2.1
      rw [resetVap_stored x a d ground]
      split
      · rename_i here
        refine (lookup_erased (bindings x).stored _ s _ _ c).mpr ⟨?_, kept.found⟩
        rintro ⟨rfl, same⟩
        -- the container under the key would be the agent's own
        rw [← same, kept.found] at here
        cases here
        rw [shrinks.vapAgent] at agent
        exact different kept shrinks a ground named agent.symm
      · exact kept.found
    · rw [resetVap_sc2AgentMap]
      exact kept.registered sc link
  · rintro x a ground named - ⟨kept, shrinks⟩
    have away := different kept shrinks a ground named
    refine ⟨⟨?_, ?_, fun sc link => ?_⟩, shrinks.trans (shut_shrinks x other a)⟩
    · rw [bindings_shut]
      exact kept.found
    · rw [← kept.heard]
      simp [StepEffects.heard, shut, removeAgent, mirror, updAgent, Ne.symm away]
    · rw [← kept.registered sc link]
      refine Function.update_of_ne ?_ _ _
      rintro rfl
      exact apart link

theorem Held.submit {w : View} (held : Held v s c w) (task : Task) : Held v s c (submit w task) :=
  ⟨held.found, held.heard, held.registered⟩

theorem Held.strike {w : View} (held : Held v s c w) (t d : Ref) : Held v s c (strike w t d) :=
  ⟨by rw [bindings_strike w t d]; exact held.found, held.heard, held.registered⟩

end Fate

/-! The visit of the container. -/

section Visit

variable {v : View} {now : Int} {order : Order} {s c : Ref}

/-- An off-line container, unheard for five minutes, of a tracked off-line station with a randomised
address that was heard lately. -/
structure Due (v : View) (now : Int) (s c : Ref) : Prop where
  tracked : Tracked v s
  off : (v.stations s).status = .offLine
  lately : now - (v.stations s).lastHeard ≤ 600 * 1000
  administered : LocallyAdministered (v.stations s).macAddress
  stored : c ∈ (v.stations s).vapContainerSet.values
  own : (v.vaps c).station = s
  unused : (v.vaps c).status = .offLine
  late : now - (v.vaps c).lastProbeHeard > 300 * 1000

theorem Due.listed (due : Due v now s c) (grounded : GroundedView v) : Stored v s c :=
  ⟨due.tracked, (stored_iff grounded s c).mp due.stored, due.own⟩

theorem Frame.lagging {w : View} (frame : Frame v w) (same : w.vaps c = v.vaps c) :
    Lagging w now s c ↔ Lagging v now s c := by
  have transfer {x y : View} (address : (y.stations s).macAddress = (x.stations s).macAddress)
      (heard : (y.stations s).lastHeard = (x.stations s).lastHeard)
      (heardMode : (y.stations s).lastHeardMode = (x.stations s).lastHeardMode)
      (mode : (y.agents (x.vaps c).agent).mode = (x.agents (x.vaps c).agent).mode)
      (vap : y.vaps c = x.vaps c)
      (lagging : Lagging x now s c) : Lagging y now s c := by
    refine ⟨vap ▸ lagging.own, vap ▸ lagging.off, ?_, ?_, ?_⟩
    · rw [address, vap]
      exact lagging.young
    · rw [heard, vap]
      exact lagging.late
    · rw [heardMode, vap, mode]
      exact lagging.moded
  constructor
  · exact transfer (frame.address s).symm (frame.lastHeard s).symm (frame.lastHeardMode s).symm
      (frame.mode _).symm same.symm
  · exact transfer (frame.address s) (frame.lastHeard s) (frame.lastHeardMode s) (frame.mode _) same

end Visit

end LazyAS.VirtualAging

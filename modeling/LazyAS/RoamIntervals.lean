import LazyAS.HandoffCleanup

/-! How often `HandoffApp` makes a station roam. The time of the last decision about a station is
recorded after every command for it, and the clean-up, which could erase it, never finds a list from
the future. -/
namespace LazyAS.RoamIntervals
open WireText ControllerView Master HandoffApp HandoffCleanup

inductive Roam where
  | handoffVap (probe : Probe)
  | addVapContainer (probe : Probe)
  | delVapContainer (probe : Probe)
  deriving DecidableEq

def commanded (probe : Probe) (target : Option Ref) (marks : Marks) : Option Roam :=
  if target.isSome then
    if marks.forceRoam then some (.handoffVap probe)
    else if marks.noForceRoam then some (.addVapContainer probe)
    else none
  else if marks.forceRoam ∧ marks.deCurrentAp then some (.delVapContainer probe)
  else none

def roam (v : View) (now : Int) (app : App) (msg : ProbeInfoMessage) : Option Roam :=
  (probeMsgCheck v msg).bind fun probe =>
    let heard := addProbe v now (forgetArrived v app msg.staMacAddr probe) msg
    heard.2.bind fun scan =>
      if (v.agents probe.currentAgent).macAddress = (v.agents msg.agent).macAddress then none
      else if tooSoon now heard.1 msg.staMacAddr then none
      else (handOff v probe scan msg.channel (v.agents msg.agent).macAddress).bind fun chosen =>
        if ∀ a, chosen.1 = some a → (v.agents a).ssidSet.contains probe.workingSsid then
          commanded probe chosen.1 chosen.2
        else none

def carriedOut (v : View) (now : Int) (order : Order) (msg : ProbeInfoMessage) : Option Roam → View
  | none => v
  | some (.handoffVap probe) =>
      (handoffVap v now order probe.station probe.currentAgent probe.pAgent probe.workingSsid).1
  | some (.addVapContainer probe) =>
      addVapContainer v now order true probe.pAgent msg.staMacAddr msg.mode probe.workingSsid
  | some (.delVapContainer probe) =>
      delVapContainer v now order (some .delCAgent) probe.currentAgent probe.station
        probe.workingSsid

theorem handle_roams (v : View) (now : Int) (order : Order) (app : App) (msg : ProbeInfoMessage) :
    (handle v now order app msg).1 = carriedOut v now order msg (roam v now app msg) := by
  -- the command is what the call does to the view
  unfold handle roam
  cases checked : probeMsgCheck v msg with
  | none => rfl
  | some probe =>
      simp only [Option.bind_some]
      cases heard : (addProbe v now (forgetArrived v app msg.staMacAddr probe) msg).2 with
      | none => rfl
      | some scan =>
          simp only [Option.bind_some]
          by_cases own : (v.agents probe.currentAgent).macAddress = (v.agents msg.agent).macAddress
          · rw [if_pos own, if_pos own]
            rfl
          · rw [if_neg own, if_neg own]
            by_cases soon : tooSoon now
              (addProbe v now (forgetArrived v app msg.staMacAddr probe) msg).1 msg.staMacAddr =
              true
            · rw [if_pos soon, if_pos soon]
              rfl
            · rw [if_neg soon, if_neg soon]
              cases chosen : handOff v probe scan msg.channel (v.agents msg.agent).macAddress with
              | none => rfl
              | some choice =>
                  obtain ⟨target, marks⟩ := choice
                  cases target with
                  | none =>
                      rw [Option.bind_some, if_pos fun _ wrong => nomatch wrong]
                      by_cases both : marks.forceRoam = true ∧ marks.deCurrentAp = true
                      · simp [commanded, both, carriedOut]
                      · simp [commanded, both, carriedOut]
                  | some a =>
                      cases handOff_target v probe scan msg.channel _ a marks chosen
                      simp only [Option.bind_some, Option.some.injEq, forall_eq']
                      by_cases serves : (v.agents probe.pAgent).ssidSet.contains probe.workingSsid =
                        true
                      · rw [if_pos serves, if_pos serves]
                        by_cases force : marks.forceRoam = true
                        · simp [commanded, force, carriedOut]
                        · by_cases soft : marks.noForceRoam = true
                          · simp [commanded, force, soft, carriedOut]
                          · simp [commanded, force, soft, carriedOut]
                      · rw [if_neg serves, if_neg serves]
                        rfl

/-! What a call leaves of the times. -/

def Dated (now : Int) (table : ScanTable) : Prop :=
  ∀ sta scan, table.lookup sta = some scan → ∀ i cha, scan i = some cha → cha.date ≤ now

theorem dated_later {now later : Int} {table : ScanTable} (clock : now ≤ later)
    (dated : Dated now table) : Dated later table :=
  fun sta scan holds i cha found => Int.le_trans (dated sta scan holds i cha found) clock

theorem roam_finishes (v : View) (now : Int) (app : App) (msg : ProbeInfoMessage) (command : Roam)
    (issued : roam v now app msg = some command) :
    Finishes v now app msg ∧ tooSoon now app msg.staMacAddr = false := by
  -- a call with a command comes to its end, and had no decision about the station within the
  -- interval
  unfold roam at issued
  obtain ⟨probe, checked, issued⟩ := Option.bind_eq_some_iff.mp issued
  obtain ⟨scan, heard, issued⟩ := Option.bind_eq_some_iff.mp issued
  obtain ⟨scans, _, times⟩ := forgetArrived_scans v app msg.staMacAddr probe
  obtain ⟨_, _, times'⟩ := addProbe_scans v now _ app msg scans
  by_cases own : (v.agents probe.currentAgent).macAddress = (v.agents msg.agent).macAddress
  · rw [if_pos own] at issued
    nomatch issued
  · rw [if_neg own] at issued
    by_cases soon : tooSoon now (addProbe v now (forgetArrived v app msg.staMacAddr probe) msg).1
      msg.staMacAddr = true
    · rw [if_pos soon] at issued
      nomatch issued
    · rw [if_neg soon] at issued
      obtain ⟨⟨target, marks⟩, chosen, issued⟩ := Option.bind_eq_some_iff.mp issued
      by_cases serves : ∀ a, target = some a →
        (v.agents a).ssidSet.contains probe.workingSsid = true
      · have late := Bool.eq_false_iff.mpr soon
        refine ⟨⟨probe, scan, target, marks, checked, heard, own, late, chosen, serves⟩, ?_⟩
        rw [← late, tooSoon, tooSoon, times', times]
      · rw [if_neg serves] at issued
        nomatch issued

theorem handle_stops (v : View) (now : Int) (order : Order) (app : App) (msg : ProbeInfoMessage)
    (stops : ¬ Finishes v now app msg) :
    (handle v now order app msg).2.sta2DisTime = app.sta2DisTime ∧
      ((handle v now order app msg).2.sta2ChannelScan = app.sta2ChannelScan ∨
        (handle v now order app msg).2.sta2ChannelScan = heardTable v now app msg) := by
  -- a call that does not come to its end leaves the times as they are
  unfold handle
  cases checked : probeMsgCheck v msg with
  | none => exact ⟨rfl, Or.inl rfl⟩
  | some probe =>
      obtain ⟨scans, _, times⟩ := forgetArrived_scans v app msg.staMacAddr probe
      obtain ⟨table, _, times'⟩ := addProbe_scans v now _ app msg scans
      have heardOnly := And.intro (times'.trans times)
          (Or.inr (a := (addProbe v now (forgetArrived v app
        msg.staMacAddr probe) msg).1.sta2ChannelScan = app.sta2ChannelScan) table)
      dsimp only
      cases heard : (addProbe v now (forgetArrived v app msg.staMacAddr probe) msg).2 with
      | none => exact heardOnly
      | some scan =>
          dsimp only
          by_cases own : (v.agents probe.currentAgent).macAddress = (v.agents msg.agent).macAddress
          · rw [if_pos own]
            exact heardOnly
          · rw [if_neg own]
            by_cases soon : tooSoon now
              (addProbe v now (forgetArrived v app msg.staMacAddr probe) msg).1 msg.staMacAddr =
              true
            · rw [if_pos soon]
              exact heardOnly
            · rw [if_neg soon]
              have late := Bool.eq_false_iff.mpr soon
              cases chosen : handOff v probe scan msg.channel (v.agents msg.agent).macAddress with
              | none => exact heardOnly
              | some choice =>
                  obtain ⟨target, marks⟩ := choice
                  cases target with
                  | none =>
                      exact absurd ⟨probe, scan, none, marks, checked, heard, own, late, chosen,
                      fun _ wrong => nomatch wrong⟩ stops
                  | some a =>
                      dsimp only
                      by_cases serves : (v.agents a).ssidSet.contains probe.workingSsid = true
                      · exact absurd ⟨probe, scan, some a, marks, checked, heard, own, late, chosen,
                          fun b same => by cases same; exact serves⟩ stops
                      · rw [if_neg serves]
                        exact heardOnly

theorem not_allExpired {now : Int} {table : ScanTable} (dated : Dated now table) (sta : Text)
    (scan : Scan) (holds : table.lookup sta = some scan) : ¬ AllExpired now scan := by
  intro all
  have first := all 1 (by decide) (by decide)
  unfold channelExpired at first
  cases found : scan 1 with
  | none =>
      simp only [found, decide_eq_true_eq] at first
      omega
  | some cha =>
      have past := dated sta scan holds 1 cha found
      simp only [found, decide_eq_true_eq, waitTimeout] at first
      omega

theorem kept_dated (now : Int) (scan : Scan) (dated : ∀ i cha, scan i = some cha → cha.date ≤ now)
    (i : Int) (cha : ChaHandList) (found : kept now scan i = some cha) : cha.date ≤ now := by
  unfold kept at found
  split at found
  case isTrue =>
    obtain ⟨before, holds, rfl⟩ := Option.map_eq_some_iff.mp found
    exact dated i before holds
  case isFalse => exact dated i cha found

theorem maintain_times (now : Int) (staMacAddr : Text) (keys : List Text) (app : App)
    (dated : Dated now app.sta2ChannelScan) :
    (keys.foldl (maintainStation now staMacAddr) app).sta2DisTime = app.sta2DisTime ∧
      Dated now (keys.foldl (maintainStation now staMacAddr) app).sta2ChannelScan := by
  -- the clean-up erases no time, and the lists stay as old as they are
  induction keys generalizing app with
  | nil => exact ⟨rfl, dated⟩
  | cons key keys ih =>
      have one : (maintainStation now staMacAddr app key).sta2DisTime = app.sta2DisTime := by
        unfold maintainStation
        cases holds : app.sta2ChannelScan.lookup key with
        | none => rfl
        | some scan =>
            dsimp only
            rw [if_neg fun all => not_allExpired dated key scan holds
              ((allExpired_iff now scan).mp all)]
      have next : Dated now (maintainStation now staMacAddr app key).sta2ChannelScan := by
        intro sta scan found
        rw [maintainStation_lookup] at found
        by_cases same : sta = key
        · rw [if_pos same] at found
          obtain ⟨before, holds, found⟩ := Option.bind_eq_some_iff.mp found
          rw [maintained, if_neg (not_allExpired dated key before holds)] at found
          cases found
          exact kept_dated now before (dated key before holds)
        · rw [if_neg same] at found
          exact dated sta scan found
      obtain ⟨times, last⟩ := ih _ next
      exact ⟨times.trans one, last⟩

theorem finish_times (now : Int) (app : App) (staMacAddr : Text)
    (dated : Dated now app.sta2ChannelScan) :
    (finish now app staMacAddr).sta2DisTime =
      Function.update app.sta2DisTime staMacAddr (some now) ∧
      Dated now (finish now app staMacAddr).sta2ChannelScan := by
  unfold finish
  dsimp only
  split
  · exact maintain_times now staMacAddr _ _ dated
  · exact ⟨rfl, dated⟩

theorem heard_dated (v : View) (now : Int) (app : App) (msg : ProbeInfoMessage)
    (dated : Dated now app.sta2ChannelScan) :
    Dated now (heardTable v now app msg) := by
  have known : ∀ i cha, (app.sta2ChannelScan.lookup msg.staMacAddr).getD (fun _ => none) i =
      some cha → cha.date ≤ now := by
    intro i cha found
    cases holds : app.sta2ChannelScan.lookup msg.staMacAddr with
    | none =>
        rw [holds] at found
        nomatch found
    | some scan =>
        rw [holds] at found
        exact dated msg.staMacAddr scan holds i cha found
  have inserted : ∀ scan : Scan, (∀ i cha, scan i = some cha → cha.date ≤ now) →
      Dated now (app.sta2ChannelScan.insert msg.staMacAddr scan) := by
    intro scan fresh sta other found
    by_cases same : sta = msg.staMacAddr
    · rw [same, AList.lookup_insert] at found
      cases found
      exact fresh
    · rw [AList.lookup_insert_ne same] at found
      exact dated sta other found
  unfold heardTable addProbe
  dsimp only
  split
  · refine inserted _ fun i cha found => ?_
    by_cases here : i = channeltoIndex msg.channel
    · rw [here, Function.update_self] at found
      cases found
      exact Int.le_refl now
    · rw [Function.update_of_ne here] at found
      exact known i cha found
  · exact inserted _ known

theorem handle_times (v : View) (now : Int) (order : Order) (app : App) (msg : ProbeInfoMessage)
    (dated : Dated now app.sta2ChannelScan) :
    Dated now (handle v now order app msg).2.sta2ChannelScan ∧
      ((handle v now order app msg).2.sta2DisTime = app.sta2DisTime ∨
        (handle v now order app msg).2.sta2DisTime = Function.update app.sta2DisTime msg.staMacAddr
          (some now)) ∧
      (Finishes v now app msg →
        (handle v now order app msg).2.sta2DisTime msg.staMacAddr = some now) := by
  by_cases finishes : Finishes v now app msg
  · obtain ⟨before, run, table, _, times⟩ := handle_finishes v now order app msg finishes
    obtain ⟨after, later⟩ := finish_times now before msg.staMacAddr
        (table ▸ heard_dated v now app msg dated)
    rw [run]
    refine ⟨later, Or.inr (by rw [after, times]), fun _ => ?_⟩
    rw [after, Function.update_self]
  · obtain ⟨times, same | heard⟩ := handle_stops v now order app msg finishes
    · exact ⟨same ▸ dated, Or.inl times, fun wrong => absurd wrong finishes⟩
    · exact ⟨heard ▸ heard_dated v now app msg dated,
        Or.inl times, fun wrong => absurd wrong finishes⟩

/-! Runs. -/

/-- A probe report, with the controller it finds and the time. -/
structure Call where
  view : View
  now : Int
  order : Order
  msg : ProbeInfoMessage

structure Command where
  staMacAddr : Text
  time : Int
  roam : Roam

def next (app : App) (call : Call) : App := (handle call.view call.now call.order app call.msg).2

def commands (app : App) : List Call → List Command
  | [] => []
  | call :: calls => ((roam call.view call.now app call.msg).map
      (⟨call.msg.staMacAddr, call.now, ·⟩)).toList ++
      commands (next app call) calls

/-- The lists and the recorded times are from the past. -/
structure Past (now : Int) (app : App) : Prop where
  lists : Dated now app.sta2ChannelScan
  times : ∀ sta last, app.sta2DisTime sta = some last → last ≤ now

theorem past_next (now : Int) (app : App) (call : Call) (past : Past now app)
    (clock : now ≤ call.now) :
    Past call.now (next app call) := by
  obtain ⟨lists, times, _⟩ :=
    handle_times call.view call.now call.order app call.msg (dated_later clock past.lists)
  refine ⟨lists, fun sta last recorded => ?_⟩
  rcases times with same | set
  · exact Int.le_trans (past.times sta last (by rw [← same]; exact recorded)) clock
  · rw [next, set] at recorded
    by_cases here : sta = call.msg.staMacAddr
    · rw [here, Function.update_self] at recorded
      cases recorded
      exact Int.le_refl _
    · rw [Function.update_of_ne here] at recorded
      exact Int.le_trans (past.times sta last recorded) clock

theorem tooSoon_late (now : Int) (app : App) (sta : Text) (last : Int)
    (late : tooSoon now app sta = false) (recorded : app.sta2DisTime sta = some last) :
    handoffinterval * 1000 ≤ now - last := by
  simpa [tooSoon, recorded] using late

theorem commands_late (calls : List Call) (now : Int) (app : App) (past : Past now app)
    (clock : (now :: calls.map Call.now).Pairwise (· ≤ ·)) (command : Command)
    (issued : command ∈ commands app calls)
    (last : Int) (recorded : app.sta2DisTime command.staMacAddr = some last) :
    handoffinterval * 1000 ≤ command.time - last := by
  induction calls generalizing now app last with
  | nil => nomatch issued
  | cons call calls ih =>
      rw [List.map_cons, List.pairwise_cons] at clock
      have later : now ≤ call.now := clock.1 call.now List.mem_cons_self
      rcases List.mem_append.mp issued with first | rest
      · obtain ⟨kind, made, rfl⟩ := Option.map_eq_some_iff.mp (Option.mem_toList.mp first)
        exact tooSoon_late call.now app _ last
          (roam_finishes call.view call.now app call.msg kind made).2 recorded
      · have step := ih call.now (next app call) (past_next now app call past later) clock.2 rest
        obtain ⟨_, same | set, _⟩ :=
          handle_times call.view call.now call.order app call.msg (dated_later later past.lists)
        · exact step last (by rw [next, same]; exact recorded)
        · by_cases here : command.staMacAddr = call.msg.staMacAddr
          · have distance := step call.now (by rw [next, set, here, Function.update_self])
            have before := past.times _ last recorded
            omega
          · exact step last (by rw [next, set, Function.update_of_ne here]; exact recorded)

theorem commands_apart (calls : List Call) (now : Int) (app : App) (past : Past now app)
    (clock : (now :: calls.map Call.now).Pairwise (· ≤ ·)) :
    (commands app calls).Pairwise fun first second =>
      first.staMacAddr = second.staMacAddr → handoffinterval * 1000 ≤ second.time - first.time := by
  induction calls generalizing now app with
  | nil => exact List.Pairwise.nil
  | cons call calls ih =>
      rw [List.map_cons, List.pairwise_cons] at clock
      have later : now ≤ call.now := clock.1 call.now List.mem_cons_self
      have rest := ih call.now (next app call) (past_next now app call past later) clock.2
      cases made : roam call.view call.now app call.msg with
      | none => simpa [commands, made] using rest
      | some kind =>
          have set := (handle_times call.view call.now call.order app call.msg
              (dated_later later past.lists)).2.2
            (roam_finishes call.view call.now app call.msg kind made).1
          simp only [commands, made, Option.map_some, Option.toList_some, List.singleton_append,
            List.pairwise_cons]
          refine ⟨fun second issued same => ?_, rest⟩
          exact commands_late calls call.now (next app call) (past_next now app call past later)
            clock.2 second issued
            call.now (same ▸ set)

/-- Two commands for the same station are five seconds apart, whatever is heard of whom in between.
-/
theorem roams_apart (calls : List Call) (clock : (calls.map Call.now).Pairwise (· ≤ ·)) :
    (commands {} calls).Pairwise fun first second =>
      first.staMacAddr = second.staMacAddr → handoffinterval * 1000 ≤ second.time - first.time := by
  cases calls with
  | nil => exact List.Pairwise.nil
  | cons call calls =>
      refine commands_apart (call :: calls) call.now {}
        ⟨fun _ _ wrong => (nomatch wrong), fun _ _ wrong => (nomatch wrong)⟩ ?_
      rw [List.map_cons] at clock ⊢
      refine List.pairwise_cons.mpr ⟨fun time member => ?_, clock⟩
      rcases List.mem_cons.mp member with rfl | member
      · exact Int.le_refl _
      · exact (List.pairwise_cons.mp clock).1 time member

def threeProbes : List Call :=
  [⟨twoAgents, 1000, .stored, { heardByB with rssi := -80, agent := 0 }⟩,
    ⟨twoAgents, 2000, .stored, heardByB⟩,
    ⟨twoAgents, 7000, .stored, heardByB⟩]

theorem roams_apart_twice : (threeProbes.map Call.now).Pairwise (· ≤ ·) ∧
    (commands {} threeProbes).length = 2 ∧
    (commands {} threeProbes).Pairwise fun first second =>
      first.staMacAddr = second.staMacAddr → handoffinterval * 1000 ≤ second.time - first.time :=
  ⟨by decide, by decide +kernel, roams_apart threeProbes (by decide)⟩

end LazyAS.RoamIntervals

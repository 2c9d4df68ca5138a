import LazyAS.HandoffApp

/-! What the clean-up at the end of `HandoffApp.handle` leaves of the scans. The age of a list is
taken the wrong way round, as its date less the time, so only a list from the future counts as
expired. -/
namespace LazyAS.HandoffCleanup
open WireText ControllerView Master HandoffApp

abbrev ScanTable := AList fun _ : Text => Scan

def NodeAt (scan : Scan) (i : Int) (mac : Text) (ap : ApHandNode) : Prop :=
  inBounds i = true ∧ ∃ cha, scan i = some cha ∧ cha.list.lookup mac = some ap

def Recent (now : Int) (ap : ApHandNode) : Prop := ¬ now - ap.newDate > waitTimeout * 1000

/-- What the clean-up is for: no old node and no empty station is left, and a station with a recent
node keeps all its recent nodes. -/
structure Evicted (now : Int) (heard after : ScanTable) : Prop where
  noneOld : ∀ sta scan, after.lookup sta = some scan → ∀ i mac ap, NodeAt scan i mac ap →
    Recent now ap
  noneEmpty : ∀ sta scan, after.lookup sta = some scan → ∃ i mac ap, NodeAt scan i mac ap
  recentKept : ∀ sta scan, heard.lookup sta = some scan →
    (∃ i mac ap, NodeAt scan i mac ap ∧ Recent now ap) →
    ∃ left, after.lookup sta = some left ∧ ∀ i mac ap, NodeAt scan i mac ap → Recent now ap →
      NodeAt left i mac ap

def Finishes (v : View) (now : Int) (app : App) (msg : ProbeInfoMessage) : Prop :=
  ∃ probe scan target marks, probeMsgCheck v msg = some probe ∧
    (addProbe v now (forgetArrived v app msg.staMacAddr probe) msg).2 = some scan ∧
    (v.agents probe.currentAgent).macAddress ≠ (v.agents msg.agent).macAddress ∧
    tooSoon now (addProbe v now (forgetArrived v app msg.staMacAddr probe) msg).1 msg.staMacAddr =
      false ∧
    handOff v probe scan msg.channel (v.agents msg.agent).macAddress = some (target, marks) ∧
    ∀ a, target = some a → (v.agents a).ssidSet.contains probe.workingSsid = true

def CleansUp (v : View) (now : Int) (app : App) (msg : ProbeInfoMessage) : Prop :=
  Finishes v now app msg ∧ app.timeout.all (fun last => now - last > waitTimeout * 100) = true

def heardTable (v : View) (now : Int) (app : App) (msg : ProbeInfoMessage) : ScanTable :=
  (addProbe v now app msg).1.sta2ChannelScan

def AllExpired (now : Int) (scan : Scan) : Prop :=
  ∀ i, 1 ≤ i → i < allChannel → channelExpired now (scan i) = true

/-- The condition on one scan. A station whose lists are all there and all from the future has no
recent node; any other station has a recent node, and its old nodes are in lists from the future. -/
def Fit (now : Int) (scan : Scan) : Prop :=
  (AllExpired now scan → ∀ i mac ap, NodeAt scan i mac ap → ¬ Recent now ap) ∧
    (¬ AllExpired now scan → (∃ i mac ap, NodeAt scan i mac ap ∧ Recent now ap) ∧
      ∀ i mac ap, NodeAt scan i mac ap → ¬ Recent now ap → 1 ≤ i ∧ i < allChannel ∧
        channelExpired now (scan i) = true)

/-! One station. -/

theorem allExpired_iff (now : Int) (scan : Scan) :
    ((List.range 25).all fun i => channelExpired now (scan (i + 1))) = true ↔
      AllExpired now scan := by
  rw [List.all_eq_true]
  constructor
  · intro all i least most
    have place := all (i - 1).toNat (List.mem_range.mpr (by simp only [allChannel] at most; omega))
    rwa [show ((i - 1).toNat : Int) + 1 = i by omega] at place
  · intro all i member
    exact all (i + 1) (by omega)
      (by have small := List.mem_range.mp member; simp only [allChannel]; omega)

/-- What the clean-up makes of the scan of a station that it keeps. -/
def kept (now : Int) (scan : Scan) : Scan := fun i =>
  if 1 ≤ i ∧ i < allChannel ∧ channelExpired now (scan i) then (scan i).map (dropOldAps now)
    else scan i

open Classical in
noncomputable def maintained (now : Int) (scan : Scan) : Option Scan :=
  if AllExpired now scan then none else some (kept now scan)

theorem maintainStation_lookup (now : Int) (staMacAddr : Text) (app : App) (mac sta : Text) :
    (maintainStation now staMacAddr app mac).sta2ChannelScan.lookup sta =
      if sta = mac then (app.sta2ChannelScan.lookup mac).bind (maintained now)
        else app.sta2ChannelScan.lookup sta := by
  unfold maintainStation
  cases holds : app.sta2ChannelScan.lookup mac with
  | none =>
      by_cases same : sta = mac
      · rw [if_pos same, same]
        exact holds
      · rw [if_neg same]
  | some scan =>
      simp only [Option.bind_some, maintained]
      by_cases expired : ((List.range 25).all fun i => channelExpired now (scan (i + 1))) = true
      · rw [if_pos expired, if_pos ((allExpired_iff now scan).mp expired)]
        by_cases same : sta = mac
        · rw [if_pos same, same]
          exact AList.lookup_erase _ _
        · rw [if_neg same]
          exact AList.lookup_erase_ne same
      · rw [if_neg expired, if_neg fun all => expired ((allExpired_iff now scan).mpr all)]
        by_cases same : sta = mac
        · rw [if_pos same, same]
          exact AList.lookup_insert _
        · rw [if_neg same]
          exact AList.lookup_insert_ne same

theorem maintain_lookup (now : Int) (staMacAddr : Text) (keys : List Text) (nodup : keys.Nodup)
    (app : App) (sta : Text) :
    (keys.foldl (maintainStation now staMacAddr) app).sta2ChannelScan.lookup sta =
      if sta ∈ keys then (app.sta2ChannelScan.lookup sta).bind (maintained now)
        else app.sta2ChannelScan.lookup sta := by
  induction keys generalizing app with
  | nil => rfl
  | cons key keys ih =>
      obtain ⟨absent, nodup⟩ := List.nodup_cons.mp nodup
      rw [List.foldl_cons, ih nodup, maintainStation_lookup]
      by_cases same : sta = key
      · subst same
        rw [if_neg absent, if_pos rfl, if_pos List.mem_cons_self]
      · rw [if_neg same]
        by_cases listed : sta ∈ keys
        · rw [if_pos listed, if_pos (List.mem_cons_of_mem _ listed)]
        · rw [if_neg listed, if_neg fun member => (List.mem_cons.mp member).elim same listed]

theorem finish_lookup (now : Int) (app : App) (staMacAddr : Text)
    (due : app.timeout.all (fun last => now - last > waitTimeout * 100) = true) (sta : Text) :
    (finish now app staMacAddr).sta2ChannelScan.lookup sta =
      (app.sta2ChannelScan.lookup sta).bind (maintained now) := by
  simp only [finish, due, if_true]
  rw [maintain_lookup now staMacAddr app.sta2ChannelScan.keys app.sta2ChannelScan.nodupKeys]
  split
  case isTrue => rfl
  case isFalse absent =>
    rw [AList.lookup_eq_none.mpr absent]
    rfl

theorem forgetArrived_scans (v : View) (app : App) (staMacAddr : Text) (probe : Probe) :
    (forgetArrived v app staMacAddr probe).sta2ChannelScan = app.sta2ChannelScan ∧
      (forgetArrived v app staMacAddr probe).timeout = app.timeout ∧
      (forgetArrived v app staMacAddr probe).sta2DisTime = app.sta2DisTime := by
  unfold forgetArrived
  split
  · exact ⟨rfl, rfl, rfl⟩
  · dsimp only
    split <;> exact ⟨rfl, rfl, rfl⟩

theorem addProbe_scans (v : View) (now : Int) (app other : App) (msg : ProbeInfoMessage)
    (scans : app.sta2ChannelScan = other.sta2ChannelScan) :
    (addProbe v now app msg).1.sta2ChannelScan = (addProbe v now other msg).1.sta2ChannelScan ∧
      (addProbe v now app msg).1.timeout = app.timeout ∧
        (addProbe v now app msg).1.sta2DisTime = app.sta2DisTime := by
  unfold addProbe
  rw [scans]
  dsimp only
  split <;> exact ⟨rfl, rfl, rfl⟩

theorem handle_finishes (v : View) (now : Int) (order : Order) (app : App) (msg : ProbeInfoMessage)
    (finishes : Finishes v now app msg) : ∃ before :
    App, (handle v now order app msg).2 = finish now before msg.staMacAddr ∧
      before.sta2ChannelScan = heardTable v now app msg ∧ before.timeout = app.timeout ∧
      before.sta2DisTime = app.sta2DisTime := by
  obtain ⟨probe, scan, target, marks, checked, heard, other, late, chosen, holds⟩ := finishes
  obtain ⟨scans, timeout, times⟩ := forgetArrived_scans v app msg.staMacAddr probe
  obtain ⟨table, timeout', times'⟩ := addProbe_scans v now _ app msg scans
  unfold handle
  simp only [checked, heard, if_neg other, late, Bool.false_eq_true, if_false, chosen]
  cases target with
  | none =>
      dsimp only
      split <;> exact ⟨_, rfl, table, timeout'.trans timeout, times'.trans times⟩
  | some a =>
      dsimp only
      rw [if_pos (holds a rfl)]
      split
      · exact ⟨_, rfl, table, timeout'.trans timeout, times'.trans times⟩
      · split <;> exact ⟨_, rfl, table, timeout'.trans timeout, times'.trans times⟩

/-! The nodes. -/

def dropOld (now : Int) (nodes list : AList fun _ : Text => ApHandNode) (mac : Text) : AList fun _ :
    Text => ApHandNode :=
  match nodes.lookup mac with
  | some ap => if now - ap.newDate > waitTimeout * 1000 then list.erase mac else list
  | none => list

theorem drop_lookup (now : Int) (nodes : AList fun _ : Text => ApHandNode) (mac : Text)
    (ap : ApHandNode) (keys : List Text) (list : AList fun _ : Text => ApHandNode) :
    (keys.foldl (dropOld now nodes) list).lookup mac = some ap ↔
      list.lookup mac = some ap ∧
        (mac ∈ keys → ∀ node, nodes.lookup mac = some node → Recent now node) := by
  -- the loop over the addresses takes out the old nodes it comes to
  induction keys generalizing list with
  | nil => simp
  | cons key keys ih =>
      rw [List.foldl_cons, ih, List.mem_cons, dropOld]
      cases holds : nodes.lookup key with
      | none =>
          refine and_congr_right fun _ => ⟨?_, fun recent member => recent (Or.inr member)⟩
          rintro recent (rfl | member) node found
          · nomatch holds.symm.trans found
          · exact recent member node found
      | some node =>
          dsimp only
          by_cases old : now - node.newDate > waitTimeout * 1000
          · rw [if_pos old]
            by_cases same : mac = key
            · subst same
              rw [AList.lookup_erase]
              refine iff_of_false (fun wrong => nomatch wrong.1) fun recent =>
                recent.2 (Or.inl rfl) node holds old
            · rw [AList.lookup_erase_ne same]
              refine and_congr_right fun _ => ⟨?_, fun recent member => recent (Or.inr member)⟩
              rintro recent (wrong | member)
              · exact absurd wrong same
              · exact recent member
          · rw [if_neg old]
            refine and_congr_right fun _ => ⟨?_, fun recent member => recent (Or.inr member)⟩
            rintro recent (rfl | member) other found
            · cases Option.some.inj (holds.symm.trans found)
              exact old
            · exact recent member other found

theorem dropOldAps_lookup (now : Int) (cha : ChaHandList) (mac : Text) (ap : ApHandNode) :
    (dropOldAps now cha).list.lookup mac = some ap ↔ cha.list.lookup mac = some ap ∧
      Recent now ap := by
  have loop : (dropOldAps now cha).list = cha.list.keys.foldl (dropOld now cha.list) cha.list := rfl
  rw [loop, drop_lookup]
  refine and_congr_right fun holds => ?_
  constructor
  · intro recent
    exact recent (AList.lookup_isSome.mp (by rw [holds]; rfl)) ap holds
  · intro recent _ node found
    cases Option.some.inj (holds.symm.trans found)
    exact recent

theorem kept_nodeAt (now : Int) (scan : Scan) (i : Int) (mac : Text) (ap : ApHandNode) :
    NodeAt (kept now scan) i mac ap ↔
    NodeAt scan i mac ap ∧
      (1 ≤ i ∧ i < allChannel ∧ channelExpired now (scan i) = true → Recent now ap) := by
  unfold NodeAt kept
  by_cases swept : 1 ≤ i ∧ i < allChannel ∧ channelExpired now (scan i) = true
  · rw [if_pos swept, and_assoc, forall_prop_of_true swept]
    refine and_congr_right fun _ => ?_
    cases scan i with
    | none => simp
    | some cha => simp [dropOldAps_lookup]
  · rw [if_neg swept]
    exact (and_iff_left fun wrong => absurd wrong swept).symm

theorem evicted_iff (now : Int) (heard after : ScanTable)
    (lookups : ∀ sta, after.lookup sta = (heard.lookup sta).bind (maintained now)) :
    Evicted now heard after ↔ ∀ sta scan, heard.lookup sta = some scan → Fit now scan := by
  -- station by station, the clean-up does what it is for exactly if the scan fits
  have gone : ∀ {sta scan}, heard.lookup sta = some scan → AllExpired now scan →
      after.lookup sta = none :=
    fun {sta scan} holds all => by rw [lookups, holds]; exact if_pos all
  have stays : ∀ {sta scan}, heard.lookup sta = some scan → ¬ AllExpired now scan →
      after.lookup sta = some (kept now scan) :=
    fun {sta scan} holds not_all => by rw [lookups, holds]; exact if_neg not_all
  constructor
  · intro evicted sta scan holds
    refine ⟨fun all i mac ap node recent => ?_, fun not_all => ?_⟩
    · obtain ⟨left, found, _⟩ := evicted.recentKept sta scan holds ⟨i, mac, ap, node, recent⟩
      rw [gone holds all] at found
      nomatch found
    · have left := stays holds not_all
      constructor
      · obtain ⟨i, mac, ap, node⟩ := evicted.noneEmpty sta _ left
        exact ⟨i, mac, ap, ((kept_nodeAt now scan i mac ap).mp node).1,
          evicted.noneOld sta _ left i mac ap node⟩
      · intro i mac ap node old
        by_contra outside
        exact old (evicted.noneOld sta _ left i mac ap
          ((kept_nodeAt now scan i mac ap).mpr ⟨node, fun swept => absurd swept outside⟩))
  · intro fit
    have from_heard : ∀ {sta left}, after.lookup sta = some left →
        ∃ scan, heard.lookup sta = some scan ∧ ¬ AllExpired now scan ∧ left = kept now scan := by
      intro sta left found
      cases holds : heard.lookup sta with
      | none =>
          rw [lookups, holds] at found
          nomatch found
      | some scan =>
          by_cases all : AllExpired now scan
          · rw [gone holds all] at found
            nomatch found
          · exact ⟨scan, rfl, all, Option.some.inj (found.symm.trans (stays holds all))⟩
    constructor
    · intro sta left found i mac ap node
      obtain ⟨scan, holds, not_all, rfl⟩ := from_heard found
      obtain ⟨inside, recent⟩ := (kept_nodeAt now scan i mac ap).mp node
      by_contra old
      exact old (recent (((fit sta scan holds).2 not_all).2 i mac ap inside old))
    · intro sta left found
      obtain ⟨scan, holds, not_all, rfl⟩ := from_heard found
      obtain ⟨i, mac, ap, node, recent⟩ := ((fit sta scan holds).2 not_all).1
      exact ⟨i, mac, ap, (kept_nodeAt now scan i mac ap).mpr ⟨node, fun _ => recent⟩⟩
    · rintro sta scan holds ⟨i, mac, ap, node, recent⟩
      have not_all : ¬ AllExpired now scan := fun all =>
          (fit sta scan holds).1 all i mac ap node recent
      exact ⟨kept now scan, stays holds not_all, fun i mac ap node recent =>
        (kept_nodeAt now scan i mac ap).mpr ⟨node, fun _ => recent⟩⟩

/-- A call that runs the clean-up evicts the old nodes, and only those, exactly if every scan it
comes to fits. -/
theorem handle_evicts (v : View) (now : Int) (order : Order) (app : App) (msg : ProbeInfoMessage)
    (cleansUp : CleansUp v now app msg) :
    Evicted now (heardTable v now app msg) (handle v now order app msg).2.sta2ChannelScan ↔
      ∀ sta scan, (heardTable v now app msg).lookup sta = some scan → Fit now scan := by
  obtain ⟨finishes, due⟩ := cleansUp
  obtain ⟨before, run, table, timeout, _⟩ := handle_finishes v now order app msg finishes
  refine evicted_iff now _ _ fun sta => ?_
  rw [run, finish_lookup now before msg.staMacAddr (by rw [timeout]; exact due), table]

def twoAgents : View :=
  { View.empty with
    agents := fun a => { macAddress := if a = 0 then "apA".toList else "apB".toList,
                         ssidSet := ["w".toList], channel := 6 }
    agentMap := fun mac => if mac = "apA".toList then some 0 else if mac = "apB".toList then some 1
      else none
    stations := fun _ => { macAddress := "00112233445a".toList, status := .onLine,
                           workingVapContainer := some 0 }
    vaps := fun _ => { agent := 0, station := 0, ssid := "w".toList }
    stationMap := (∅ : Table).insert "00112233445a".toList 0 }

def heardByB : ProbeInfoMessage := ⟨"00112233445a".toList, -40, 6, [], 1⟩

def scanAt (date : Int) : Scan := fun i =>
  if i = 6 then
    some { list := (∅ : AList fun _ : Text => ApHandNode).insert "apA".toList ⟨date, date, [-50]⟩,
           date } else none

def otherHeard (date : Int) : App where
  sta2ChannelScan := (∅ : ScanTable).insert "00112233445b".toList (scanAt date)

theorem cleansUp_other (date : Int) : CleansUp twoAgents 2000000 (otherHeard date) heardByB :=
  ⟨⟨⟨0, 0, 1, "w".toList⟩, _, none,
    {}, rfl, rfl, by decide, rfl, rfl, fun _ wrong => nomatch wrong⟩, rfl⟩

theorem handle_evicts_other : CleansUp twoAgents 2000000 (otherHeard 1990000) heardByB ∧
    (Evicted 2000000 (heardTable twoAgents 2000000 (otherHeard 1990000) heardByB)
      (handle twoAgents 2000000 .stored (otherHeard 1990000) heardByB).2.sta2ChannelScan ↔
      ∀ sta scan, (heardTable twoAgents 2000000 (otherHeard 1990000) heardByB).lookup sta =
        some scan → Fit 2000000 scan) :=
  ⟨cleansUp_other 1990000,
    handle_evicts twoAgents 2000000 .stored (otherHeard 1990000) heardByB (cleansUp_other 1990000)⟩

theorem old_node_stays : ¬ ∀ (v : View) (now : Int) (order : Order) (app : App)
    (msg : ProbeInfoMessage),
    CleansUp v now app msg →
      Evicted now (heardTable v now app msg) (handle v now order app msg).2.sta2ChannelScan := by
  intro evicts
  have evicted := evicts twoAgents 2000000 .stored (otherHeard 0) heardByB (cleansUp_other 0)
  obtain ⟨scan, found, node⟩ : ∃ scan,
      (handle twoAgents 2000000 .stored (otherHeard 0) heardByB).2.sta2ChannelScan.lookup
      "00112233445b".toList = some scan ∧ NodeAt scan 6 "apA".toList ⟨0, 0, [-50]⟩ :=
    ⟨_, rfl, rfl, _, rfl, rfl⟩
  exact evicted.noneOld _ scan found 6 _ _ node (by decide)

end LazyAS.HandoffCleanup

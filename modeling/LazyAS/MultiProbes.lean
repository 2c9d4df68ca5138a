import LazyAS.MultiSelection
import LazyAS.ScanExpiry

/-! `AccessControlMultiApp.handle` from message to message: the scan that it keeps of a station, the
SSIDs it sets out to assign, and what becomes of the scan when it has assigned some. What the
controller knows may be anything at each message. -/
namespace LazyAS.MultiProbes
open WireText ControllerView Runs AccessControlMultiApp
open HandoffApp (int32 channeltoIndex)
open AccessControlSingleApp (ApNode reheard)
open DualBandAccessControl (ProbeInfoMessage AddVap)
open ScanExpiry (ChaList ScanTable visited)

/-- The fields of the application, and the heap that its nodes are in. -/
structure App where
  apNodes : Ref → ApNode
  nextNode : Ref := 0
  sta2ChannelScan : ScanTable := ∅
  timeout : Option Int := none
  faultAP : List Ref := []
  ssidOnAP : List Text := []

/-- The place of a channel in the array; `none` is the exception. -/
def place (channel : Int) : Option (Fin 27) :=
  if bounds : 0 ≤ channeltoIndex channel ∧ channeltoIndex channel < 27 then
    some ⟨(channeltoIndex channel).toNat, by omega⟩
  else none

def addAP (now : Int) (app : App) (list : List Ref) (mac : Text) (rssi channel : Int) :
    App × List Ref :=
  match list.find? fun ap => (app.apNodes ap).apMAC = mac with
  | some ap => ({ app with
      apNodes := Function.update app.apNodes ap (reheard now (app.apNodes ap) rssi channel) }, list)
  | none =>
      let added : ApNode := ⟨mac, 1, if channeltoIndex channel < 14 then rssi
          else int32 (rssi + 50), now⟩
      ({ app with
        apNodes := Function.update app.apNodes app.nextNode added
        nextNode := app.nextNode + 1 }, list ++ [app.nextNode])

variable (v : View) (now : Int) (order : Order)

/-- The loop of `ssidOnallAP` over a list. Taking a node off by its address takes nothing off. -/
def ssidOnList (nodes : Ref → ApNode) (ssidset : List Text) (list : List Ref) : List Text :=
  list.foldl (fun ssidset ap => match v.agentMap (nodes ap).apMAC with
    | none => ssidset
    | some agent => (v.agents agent).ssidSet.foldl (fun known ssid => known.insert ssid) ssidset)
        ssidset

def ssidOnallAP (nodes : Ref → ApNode) (scan : ScanExpiry.Scan) : List Text :=
  (((List.finRange 27).filter (visited ·)).filterMap scan).foldl
    (fun ssidset cha => ssidOnList v nodes ssidset cha.list) []

def lists (scan : ScanExpiry.Scan) : Scan := fun index =>
  if bounds : 0 ≤ index ∧ index < 27 then (scan ⟨index.toNat, by omega⟩).map ChaList.list else none

def select (app : App) (staMacAddr : Text) (scan : ScanExpiry.Scan) (disSsidSet : List Text) :
    Option Selection :=
  channelAPSelecM2 v order
    { apNodes := app.apNodes
      sta2ChannelScan := (∅ : AList fun _ : Text => Scan).insert staMacAddr (lists scan)
      faultAP := app.faultAP
      ssidOnAP := app.ssidOnAP } staMacAddr disSsidSet

structure Handled where
  app : App
  calls : List AddVap := []
  returned : Bool := true

def cleanUp (app : App) (staMacAddr : Text) (calls : List AddVap) : Handled :=
  let cleaned := ScanExpiry.delStation v now order ⟨app.sta2ChannelScan, app.timeout⟩ staMacAddr
  { app := { app with
    sta2ChannelScan := cleaned.app.sta2ChannelScan, timeout := cleaned.app.timeout }
    calls := calls
    returned := cleaned.returned }

def assign (app : App) (msg : ProbeInfoMessage) (scan : ScanExpiry.Scan) : Handled :=
  let disSsidSet := ssidOnallAP v app.apNodes scan
  if disSsidSet = [] then { app := app }
  else match select v order app msg.staMacAddr scan disSsidSet with
    | none => { app := app, returned := false }
    | some selection =>
        let selected := { app with
            faultAP := selection.app.faultAP, ssidOnAP := selection.app.ssidOnAP }
        match selection.agentHashtable with
        | none => cleanUp v now order selected msg.staMacAddr []
        | some agentHash =>
            cleanUp v now order { selected with
              sta2ChannelScan := app.sta2ChannelScan.erase msg.staMacAddr }
              msg.staMacAddr ((order.arrange agentHash.entries).map fun entry =>
                ⟨entry.2, msg.staMacAddr, msg.mode, entry.1⟩)

def handle (app : App) (msg : ProbeInfoMessage) : Handled :=
  let known := (app.sta2ChannelScan.lookup msg.staMacAddr).getD fun _ => none
  match place msg.channel with
  | none =>
      { app := { app with sta2ChannelScan := app.sta2ChannelScan.insert msg.staMacAddr known },
        returned := false }
  | some i =>
      let cha := (known i).getD { date := now }
      let (heard, list) := addAP now app cha.list (v.agents msg.agent).macAddress msg.rssi
          msg.channel
      let scan := Function.update known i (some { cha with list := list })
      assign v now order { heard with
        sta2ChannelScan := app.sta2ChannelScan.insert msg.staMacAddr scan } msg scan

def handle1 (app : App) (staMacAddr : Text) : App :=
  { app with sta2ChannelScan := app.sta2ChannelScan.erase staMacAddr }

/-- A message, with what the controller knows and the clock shows when it comes. -/
inductive Event where
  | probe (v : View) (now : Int) (order : Order) (msg : ProbeInfoMessage)
  | newSta (staMacAddr : Text)

def step (app : App) : Event → App
  | .probe v now order msg => (handle v now order app msg).app
  | .newSta staMacAddr => handle1 app staMacAddr

/-- A new application; `nodes` is what the heap holds. -/
def start (nodes : Ref → ApNode) : App := { apNodes := nodes }

/-! Nodes are made once. -/

def Below (next : Ref) (table : ScanTable) : Prop :=
  ∀ sta scan, table.lookup sta = some scan → ∀ i cha, scan i = some cha → ∀ ap ∈ cha.list, ap < next

structure Bounded (app : App) : Prop where
  faults : ∀ ap ∈ app.faultAP, ap < app.nextNode
  table : Below app.nextNode app.sta2ChannelScan

theorem Below.insert {next : Ref} {table : ScanTable} (below : Below next table) (sta : Text)
    (scan : ScanExpiry.Scan) (made : ∀ i cha, scan i = some cha → ∀ ap ∈ cha.list, ap < next) :
    Below next (table.insert sta scan) := by
  intro other found holds
  by_cases same : other = sta
  · subst same
    rw [AList.lookup_insert, Option.some.injEq] at holds
    exact holds ▸ made
  · rw [AList.lookup_insert_ne same] at holds
    exact below other found holds

theorem Below.erase {next : Ref} {table : ScanTable} (below : Below next table) (sta : Text) :
    Below next (table.erase sta) := by
  intro other found holds
  by_cases same : other = sta
  · subst same
    rw [AList.lookup_erase] at holds
    exact absurd holds (by simp)
  · rw [AList.lookup_erase_ne same] at holds
    exact below other found holds

theorem Below.cleared {next : Ref} {table : ScanTable} (below : Below next table) {sta : Text}
    {scan : ScanExpiry.Scan} (holds : table.lookup sta = some scan) :
    Below next (table.insert sta (ScanExpiry.cleared now scan)) := by
  apply below.insert
  intro i cha kept
  apply below sta scan holds i cha
  unfold ScanExpiry.cleared at kept
  split at kept
  · exact (Option.filter_eq_some_iff.mp kept).1
  · exact kept

theorem Below.delStation {next : Ref} {app : ScanExpiry.App}
    (below : Below next app.sta2ChannelScan) (sta : Text) :
    Below next (ScanExpiry.delStation v now order app sta).app.sta2ChannelScan := by
  have visits : Below next (run (ScanExpiry.visit v now sta) { table := app.sta2ChannelScan }
      (order.arrange app.sta2ChannelScan.keys)).table := by
    refine run_invariant (fun sweep : ScanExpiry.Sweep => Below next sweep.table) below ?_ _
    intro sweep staMac kept
    unfold ScanExpiry.visit
    split
    · exact kept
    · split
      · cases holds : sweep.table.lookup staMac with
        | none => exact kept
        | some scan =>
            have cleared := kept.cleared now holds
            dsimp only
            split
            · split
              · exact cleared.erase sta
              · exact cleared.erase staMac
            · exact cleared
      · exact kept
  unfold ScanExpiry.delStation
  split
  · dsimp only
    split
    · exact visits
    · exact visits
  · exact below

theorem considerChannel_faults (next : Ref) (disSSID : List Text) (scan : Scan)
    (made : ∀ index list, scan index = some list → ∀ ap ∈ list, ap < next) (selection : Selection)
    (index : Int)
    (faults : ∀ ap ∈ selection.app.faultAP, ap < next) :
    ∀ ap ∈ (considerChannel v order disSSID scan selection index).app.faultAP, ap < next := by
  -- only nodes of the lists are found to be at fault
  have considered (list : List Ref) (selection : Selection) (ap : Ref) :
      (considerAp v order disSSID list selection ap).app.faultAP = selection.app.faultAP := by
    have offers (agent : Ref) (pmark : Int) (turns : List Text) (selection : Selection) :
        (turns.foldl (offer v disSSID agent pmark) selection).app = selection.app := by
      induction turns generalizing selection with
      | nil => rfl
      | cons ssid turns ih =>
          rw [List.foldl_cons, ih, offer]
          split <;> rfl
    unfold considerAp
    split
    · rfl
    · split
      · rfl
      · dsimp only
        split
        · rw [offers]
          rfl
        · rfl
  have walked (items list : List Ref) (selection : Selection) :
      (items.foldl (considerAp v order disSSID list) selection).app.faultAP =
          selection.app.faultAP := by
    induction items generalizing selection with
    | nil => rfl
    | cons ap items ih => rw [List.foldl_cons, ih, considered]
  unfold considerChannel
  cases here : scan index with
  | none => exact faults
  | some list =>
      dsimp only
      intro ap fault
      rw [walked] at fault
      rcases ((MultiSelection.checkFake_mem v disSSID list selection.app).2.2 ap).mp fault
          with old | ⟨listed, -⟩
      · exact faults ap old
      · exact made index list here ap listed

theorem select_faults {app : App} {sta : Text} {scan : ScanExpiry.Scan} {disSsidSet : List Text}
    {selection : Selection} (faults : ∀ ap ∈ app.faultAP, ap < app.nextNode)
    (made : ∀ i cha, scan i = some cha → ∀ ap ∈ cha.list, ap < app.nextNode)
    (selected : select v order app sta scan disSsidSet = some selection) :
    ∀ ap ∈ selection.app.faultAP, ap < app.nextNode := by
  simp only [select, channelAPSelecM2, AList.lookup_insert, Option.map_some, Option.some.injEq]
    at selected
  rw [← selected]
  show ∀ ap ∈ (run (considerChannel v order disSsidSet (lists scan)) _ _).app.faultAP, ap <
    app.nextNode
  refine run_invariant (fun selection : Selection => ∀ ap ∈ selection.app.faultAP,
    ap < app.nextNode) faults ?_ _
  intro selection index kept
  apply considerChannel_faults v order app.nextNode disSsidSet (lists scan) _ selection index kept
  intro index list here
  unfold lists at here
  split at here
  · obtain ⟨cha, holds, rfl⟩ := Option.map_eq_some_iff.mp here
    exact made _ cha holds
  · exact absurd here (by simp)

/-- `addAP` makes at most the next node, and touches nothing else of the application. -/
theorem addAP_made (app : App) (list : List Ref) (mac : Text) (rssi channel : Int) :
    (addAP now app list mac rssi channel).1.faultAP = app.faultAP ∧
      (addAP now app list mac rssi channel).1.ssidOnAP = app.ssidOnAP ∧
      (addAP now app list mac rssi channel).1.timeout = app.timeout ∧
      app.nextNode ≤ (addAP now app list mac rssi channel).1.nextNode ∧
      ∀ ap ∈ (addAP now app list mac rssi channel).2,
        ap ∈ list ∨ ap < (addAP now app list mac rssi channel).1.nextNode := by
  unfold addAP
  split
  · exact ⟨rfl, rfl, rfl, Nat.le_refl _, fun ap listed => .inl listed⟩
  · refine ⟨rfl, rfl, rfl, Nat.le_succ _, fun ap listed => ?_⟩
    rcases List.mem_append.mp listed with old | new
    · exact .inl old
    · rw [List.mem_singleton.mp new]
      exact .inr (Nat.lt_succ_self _)

theorem Bounded.cleanUp {app : App} (bounded : Bounded app) (sta : Text) (calls : List AddVap) :
    Bounded (cleanUp v now order app sta calls).app :=
  ⟨bounded.faults, Below.delStation v now order
    (show Below app.nextNode
      (ScanExpiry.App.mk app.sta2ChannelScan app.timeout).sta2ChannelScan from bounded.table) sta⟩

theorem Bounded.assign {app : App} (bounded : Bounded app) (msg : ProbeInfoMessage)
    (scan : ScanExpiry.Scan)
    (made : ∀ i cha, scan i = some cha → ∀ ap ∈ cha.list, ap < app.nextNode) :
    Bounded (assign v now order app msg scan).app := by
  unfold MultiProbes.assign
  dsimp only
  split
  · exact bounded
  · split
    · exact bounded
    · next selection selected =>
        have faults := select_faults v order bounded.faults made selected
        split
        · have kept : Bounded { app with
              faultAP := selection.app.faultAP, ssidOnAP := selection.app.ssidOnAP } :=
            ⟨faults, bounded.table⟩
          exact kept.cleanUp v now order msg.staMacAddr []
        · have kept : Bounded { app with
              faultAP := selection.app.faultAP
              ssidOnAP := selection.app.ssidOnAP
              sta2ChannelScan := app.sta2ChannelScan.erase msg.staMacAddr } :=
            ⟨faults, bounded.table.erase msg.staMacAddr⟩
          exact kept.cleanUp v now order msg.staMacAddr _

theorem bounded_step (app : App) (event : Event) (bounded : Bounded app) :
    Bounded (step app event) := by
  cases event with
  | newSta sta => exact ⟨bounded.faults, bounded.table.erase sta⟩
  | probe v now order msg =>
      have known (i : Fin 27) (cha : ChaList)
          (holds : ((app.sta2ChannelScan.lookup msg.staMacAddr).getD fun _ => none) i = some cha) :
          ∀ ap ∈ cha.list, ap < app.nextNode := by
        cases before : app.sta2ChannelScan.lookup msg.staMacAddr with
        | none =>
            rw [before] at holds
            exact absurd holds (by simp)
        | some scan =>
            rw [before] at holds
            exact bounded.table msg.staMacAddr scan before i cha holds
      simp only [step, handle]
      split
      · exact ⟨bounded.faults, bounded.table.insert msg.staMacAddr _ known⟩
      · next i here =>
          -- the list that the probe is added to
          generalize first :
            (((app.sta2ChannelScan.lookup msg.staMacAddr).getD fun _ => none) i).getD
              { date := now } = cha
          have old : ∀ ap ∈ cha.list, ap < app.nextNode := by
            cases before : ((app.sta2ChannelScan.lookup msg.staMacAddr).getD fun _ => none) i with
            | none =>
                rw [before, Option.getD_none] at first
                rw [← first]
                simp
            | some held =>
                rw [before, Option.getD_some] at first
                exact first ▸ known i held before
          obtain ⟨faults, -, -, later, listed⟩ :=
            addAP_made now app cha.list (v.agents msg.agent).macAddress msg.rssi
            msg.channel
          have made : ∀ place held, Function.update
              ((app.sta2ChannelScan.lookup msg.staMacAddr).getD fun _ => none) i
              (some { cha with
                list := (addAP now app cha.list (v.agents msg.agent).macAddress msg.rssi
                  msg.channel).2 }) place =
                some held → ∀ ap ∈ held.list,
                  ap < (addAP now app cha.list (v.agents msg.agent).macAddress msg.rssi
                      msg.channel).1.nextNode := by
            intro place held holds ap inside
            by_cases same : place = i
            · subst same
              rw [Function.update_self, Option.some.injEq] at holds
              rw [← holds] at inside
              rcases listed ap inside with before | new
              · exact Nat.lt_of_lt_of_le (old ap before) later
              · exact new
            · rw [Function.update_of_ne same] at holds
              exact Nat.lt_of_lt_of_le (known place held holds ap inside) later
          refine Bounded.assign v now order ⟨?_, ?_⟩ msg _ made
          · intro ap fault
            rw [faults] at fault
            exact Nat.lt_of_lt_of_le (bounded.faults ap fault) later
          · apply Below.insert _ _ _ made
            intro sta scan holds place held inside ap listed
            exact Nat.lt_of_lt_of_le (bounded.table sta scan holds place held inside ap listed)
              later

/-! A probe that finds no scan. -/

def Idle (app : App) : Prop := ∀ sta, app.sta2ChannelScan.lookup sta = none

/-- The probe comes on a channel that the loops look at, from an agent that is tracked and serves an
SSID. -/
structure Regular (v : View) (msg : ProbeInfoMessage) : Prop where
  seen : ∃ i, place msg.channel = some i ∧ visited i
  serves : ∃ agent, v.agentMap (v.agents msg.agent).macAddress = some agent ∧
    (v.agents agent).ssidSet ≠ []

def Fits (_ : App) : Event → Prop
  | .probe v _ _ msg => Regular v msg
  | .newSta _ => True

def lone (i : Fin 27) (ap : Ref) : ScanExpiry.Scan :=
  Function.update (fun _ => none) i (some { list := [ap], date := now })

def noted (app : App) (msg : ProbeInfoMessage) (i : Fin 27) : App :=
  let added : ApNode := ⟨(v.agents msg.agent).macAddress, 1,
    if channeltoIndex msg.channel < 14 then msg.rssi else int32 (msg.rssi + 50), now⟩
  { app with
    apNodes := Function.update app.apNodes app.nextNode added
    nextNode := app.nextNode + 1
    sta2ChannelScan := app.sta2ChannelScan.insert msg.staMacAddr (lone now i app.nextNode) }

def learnt (ssidOnAP : List Text) (agent : Ref) : List Text :=
  (v.agents agent).ssidSet.foldl (fun known ssid => known.insert ssid) ssidOnAP

def Turn (ssidOnAP : List Text) (agent : Ref) (ssid : Text) : Prop :=
  ssid ∈ (v.agents agent).ssidSet ∧
    ssid ∈ (order.arrange ssidOnAP).take (getVapContainerIdle v agent).toNat

variable {v now order}

theorem handle_idle {app : App} {msg : ProbeInfoMessage} {i : Fin 27} (idle : Idle app)
    (here : place msg.channel = some i) :
    handle v now order app msg = assign v now order (noted v now app msg i) msg
      (lone now i app.nextNode) := by
  simp only [handle, idle msg.staMacAddr, here, Option.getD_none]
  rfl

theorem foldl_lone {α β : Type} (f : β → α → β) (one : α)
    (still : ∀ state item, item ≠ one → f state item = state) (items : List α) (once : items.Nodup)
    (state : β) :
    (one ∈ items → items.foldl f state = f state one) ∧
      (one ∉ items → items.foldl f state = state) := by
  -- a walk that only one item has an effect on
  induction items generalizing state with
  | nil => exact ⟨fun wrong => absurd wrong (by simp), fun _ => rfl⟩
  | cons item items ih =>
      obtain ⟨other, rest⟩ := List.nodup_cons.mp once
      rw [List.foldl_cons]
      by_cases same : item = one
      · subst same
        exact ⟨fun _ => (ih rest (f state item)).2 other, fun wrong => absurd List.mem_cons_self
          wrong⟩
      · rw [still state item same]
        constructor
        · intro inside
          rcases List.mem_cons.mp inside with wrong | later
          · exact absurd wrong.symm same
          · exact (ih rest state).1 later
        · exact fun outside => (ih rest state).2 fun later =>
            outside (List.mem_cons_of_mem item later)

theorem filterMap_lone {α β : Type} [DecidableEq α] (one : α) (held : β) (items : List α)
    (once : items.Nodup) :
    items.filterMap (Function.update (fun _ => none) one (some held)) = if one ∈ items then [held]
      else [] := by
  induction items with
  | nil => rfl
  | cons item items ih =>
      obtain ⟨other, rest⟩ := List.nodup_cons.mp once
      by_cases same : item = one
      · subst same
        have here : Function.update (fun _ => none) item (some held) item = some held :=
          Function.update_self ..
        rw [List.filterMap_cons_some here, ih rest, if_neg other, if_pos List.mem_cons_self]
      · have elsewhere : Function.update (fun _ => none) one (some held) item = none :=
          Function.update_of_ne same ..
        have mem : one ∈ item :: items ↔ one ∈ items := by simp [Ne.symm same]
        rw [List.filterMap_cons_none elsewhere, ih rest]
        simp only [mem]

theorem visited_iff (i : Fin 27) : i ∈ (List.finRange 27).filter (visited ·) ↔ visited i := by
  simp

theorem ssidOnallAP_lone (nodes : Ref → ApNode) (i : Fin 27) (ap : Ref) :
    ssidOnallAP v nodes (lone now i ap) = if visited i then ssidOnList v nodes [] [ap] else [] := by
  have once : ((List.finRange 27).filter (visited ·)).Nodup := (List.nodup_finRange 27).filter _
  rw [ssidOnallAP, lone, filterMap_lone i _ _ once]
  by_cases inside : visited i
  · rw [if_pos ((visited_iff i).mpr inside), if_pos inside]
    rfl
  · rw [if_neg fun wrong => inside ((visited_iff i).mp wrong), if_neg inside]
    rfl

theorem mem_inserted (known ssids : List Text) (ssid : Text) :
    ssid ∈ ssids.foldl (fun known ssid => known.insert ssid) known ↔ ssid ∈ known ∨
      ssid ∈ ssids := by
  induction ssids generalizing known with
  | nil => simp
  | cons first ssids ih =>
      rw [List.foldl_cons, ih, List.mem_insert_iff, List.mem_cons]
      tauto

theorem nodup_inserted (known ssids : List Text) (once : known.Nodup) :
    (ssids.foldl (fun known ssid => known.insert ssid) known).Nodup := by
  induction ssids generalizing known with
  | nil => exact once
  | cons first ssids ih => exact ih _ once.insert

theorem mem_ssidOnList (nodes : Ref → ApNode) (ap : Ref) (ssid : Text) :
    ssid ∈ ssidOnList v nodes [] [ap] ↔
    ∃ agent, v.agentMap (nodes ap).apMAC = some agent ∧ ssid ∈ (v.agents agent).ssidSet := by
  simp only [ssidOnList, List.foldl_cons, List.foldl_nil]
  cases tracked : v.agentMap (nodes ap).apMAC with
  | none => simp
  | some agent =>
      rw [mem_inserted]
      simp

theorem lists_lone (i : Fin 27) (ap : Ref) (index : Int) :
    lists (lone now i ap) index = if index = (i.val : Int) then some [ap] else none := by
  unfold lists lone
  by_cases here : index = (i.val : Int)
  · subst here
    have bounds : (0 : Int) ≤ i.val ∧ (i.val : Int) < 27 := by omega
    rw [dif_pos bounds, if_pos rfl]
    have same : (⟨(i.val : Int).toNat, by omega⟩ : Fin 27) = i := Fin.ext (by simp)
    rw [same, Function.update_self]
    rfl
  · rw [if_neg here]
    split
    · have other : (⟨index.toNat, by omega⟩ : Fin 27) ≠ i := by
        intro same
        have value := congrArg Fin.val same
        dsimp only at value
        omega
      rw [Function.update_of_ne other]
      rfl
    · rfl

theorem select_lone {app : App} {sta : Text} {i : Fin 27} {ap : Ref} {disSsidSet : List Text}
    (seen : visited i) :
    select v order app sta (lone now i ap) disSsidSet =
      some (considerChannel v order disSsidSet (lists (lone now i ap))
      { app := {
          apNodes := app.apNodes
          sta2ChannelScan := (∅ : AList fun _ : Text => Scan).insert sta (lists (lone now i ap))
          faultAP := app.faultAP
          ssidOnAP := app.ssidOnAP } } i.val) := by
  have walks : ((List.range' 1 25).map Int.ofNat).Nodup :=
    List.Nodup.map (fun _ _ same => Int.ofNat.inj same) List.nodup_range'
  have inside : (i.val : Int) ∈ (List.range' 1 25).map Int.ofNat :=
    List.mem_map.mpr ⟨i.val, List.mem_range'_1.mpr ⟨seen.1, by have := seen.2; omega⟩, rfl⟩
  simp only [select, channelAPSelecM2, AList.lookup_insert, Option.map_some]
  rw [(foldl_lone (considerChannel v order disSsidSet (lists (lone now i ap)))
    (i.val : Int) _ _ walks _).1 inside]
  intro selection index other
  rw [considerChannel, lists_lone, if_neg other]

theorem changeNum_turns (agent : Ref) (known : List Text) :
    (order.arrange known).take (changeNum v agent known).toNat =
      (order.arrange known).take (getVapContainerIdle v agent).toNat := by
  unfold changeNum
  split
  · have length : (order.arrange known).length = known.length := (order.perm known).length_eq
    rw [List.take_of_length_le (by omega), List.take_of_length_le (by omega)]
  · rfl

theorem considerChannel_lone (v : View) (order : Order) (app : AccessControlMultiApp.App)
    {disSSID : List Text} {scan : Scan} {index : Int} {ap agent : Ref}
    (listed : scan index = some [ap]) (tracked : v.agentMap (app.apNodes ap).apMAC = some agent)
    (serves : (v.agents agent).ssidSet ≠ [])
    (asked : ∀ ssid ∈ (v.agents agent).ssidSet, ssid ∈ disSSID)
    (fresh : ap ∉ app.faultAP) :
    (considerChannel v order disSSID scan { app := app } index).app =
        { app with ssidOnAP := learnt v app.ssidOnAP agent } ∧
      ∃ table, (considerChannel v order disSSID scan { app := app } index).agentHashtable =
        some table ∧
        ∀ ssid holder, table.lookup ssid = some holder ↔
          holder = agent ∧ Turn v order (learnt v app.ssidOnAP agent) agent ssid := by
  -- what the selection makes of one node that is new: its agent gets those of its SSIDs that it has
  -- a turn for
  obtain ⟨first, serving⟩ := List.exists_mem_of_ne_nil _ serves
  have served : (v.agents agent).ssidSet.any disSSID.contains = true :=
    List.any_eq_true.mpr ⟨first, serving, List.contains_iff_mem.mpr (asked first serving)⟩
  have marked : (v.agents agent).ssidSet.any (isBelow ∅ (markOf v app.apNodes [ap] ap agent)) =
      true :=
    List.any_eq_true.mpr ⟨first, serving, rfl⟩
  have checked : checkFakeApfromCha v disSSID app [ap] = app := by
    simp [checkFakeApfromCha, checkFakeAp, tracked, served]
  have away : app.faultAP.contains ap = false := by simpa using fresh
  have considered : considerChannel v order disSSID scan { app := app } index =
      ((order.arrange (learnt v app.ssidOnAP agent)).take
        (changeNum v agent (learnt v app.ssidOnAP agent)).toNat).foldl
        (offer v disSSID agent (markOf v app.apNodes [ap] ap agent))
        { app := { app with ssidOnAP := learnt v app.ssidOnAP agent },
          agentHashtable := some ∅ } := by
    simp only [considerChannel, listed, checked, List.foldl_cons, List.foldl_nil, considerAp,
      tracked, away, disAgentCheck, marked, if_true]
    rfl
  obtain ⟨same, changed⟩ := MultiSelection.offers_change v disSSID agent
      (markOf v app.apNodes [ap] ap agent)
    ((order.arrange (learnt v app.ssidOnAP agent)).take
      (changeNum v agent (learnt v app.ssidOnAP agent)).toNat)
    { app := { app with ssidOnAP := learnt v app.ssidOnAP agent }, agentHashtable := some ∅ } rfl
  have started : (run (offer v disSSID agent (markOf v app.apNodes [ap] ap agent))
      { app := { app with ssidOnAP := learnt v app.ssidOnAP agent }, agentHashtable := some ∅ }
      ((order.arrange (learnt v app.ssidOnAP agent)).take
        (changeNum v agent (learnt v app.ssidOnAP agent)).toNat)).agentHashtable.isSome :=
    run_invariant (fun selection : Selection => selection.agentHashtable.isSome) rfl
      (fun selection ssid some' =>
        (MultiSelection.offer_changes v disSSID agent _ selection ssid some').2.1) _
  obtain ⟨table, made⟩ := Option.isSome_iff_exists.mp started
  rw [run] at made
  rw [considered]
  refine ⟨same, table, made, ?_⟩
  intro ssid holder
  have found := (changed ssid).2
  rw [MultiSelection.held, made, Option.bind_some] at found
  rw [found, changeNum_turns]
  constructor
  · intro given
    split at given
    · next turn => exact ⟨(Option.some.inj given).symm, turn.2, (List.mem_filter.mp turn.1.1).1⟩
    · exact absurd given (by simp [MultiSelection.held])
  · rintro ⟨rfl, serving, turn⟩
    rw [if_pos ⟨⟨List.mem_filter.mpr ⟨turn, List.contains_iff_mem.mpr (asked ssid serving)⟩, rfl⟩,
      serving⟩]

theorem cleanUp_idle (v : View) (now : Int) (order : Order) {app : App} (idle : Idle app)
    (sta : Text) (calls : List AddVap) :
    (cleanUp v now order app sta calls).returned = true ∧
      (cleanUp v now order app sta calls).app.sta2ChannelScan = app.sta2ChannelScan := by
  have none' : app.sta2ChannelScan.keys = [] := by
    rw [List.eq_nil_iff_forall_not_mem]
    intro sta member
    have found := AList.lookup_isSome.mpr (AList.mem_keys.mpr member)
    rw [idle sta] at found
    nomatch found
  have still : order.arrange app.sta2ChannelScan.keys = [] := by
    rw [none']
    exact (order.perm []).eq_nil
  simp only [cleanUp, ScanExpiry.delStation, still, List.foldl_nil, Bool.false_eq_true, if_false]
  split
  · exact ⟨rfl, rfl⟩
  · exact ⟨rfl, rfl⟩

/-- The probe is answered at once, and by the agent that it came from: that gets those of its SSIDs
that it has a turn for, each once. -/
structure Answered (v : View) (order : Order) (before : App) (msg : ProbeInfoMessage) (agent : Ref)
    (handled : Handled) : Prop where
  returned : handled.returned = true
  cleared : Idle handled.app
  learns : handled.app.ssidOnAP = learnt v before.ssidOnAP agent
  once : (handled.calls.map AddVap.ssid).Nodup
  calls : ∀ call, call ∈ handled.calls ↔ call.agent = agent ∧ call.staMacAddress = msg.staMacAddr ∧
    call.mode = msg.mode ∧ Turn v order (learnt v before.ssidOnAP agent) agent call.ssid

theorem handle_answered (v : View) (now : Int) (order : Order) {app : App} {msg : ProbeInfoMessage}
    {i : Fin 27} {agent : Ref} (bounded : Bounded app) (idle : Idle app)
    (here : place msg.channel = some i) (seen : visited i)
    (tracked : v.agentMap (v.agents msg.agent).macAddress = some agent)
    (serves : (v.agents agent).ssidSet ≠ []) :
    Answered v order app msg agent (handle v now order app msg) := by
  have node : v.agentMap ((noted v now app msg i).apNodes app.nextNode).apMAC = some agent := by
    simp only [noted, Function.update_self]
    exact tracked
  have asked : ∀ ssid ∈ (v.agents agent).ssidSet,
      ssid ∈ ssidOnallAP v (noted v now app msg i).apNodes (lone now i app.nextNode) := by
    intro ssid serving
    rw [ssidOnallAP_lone, if_pos seen, mem_ssidOnList]
    exact ⟨agent, node, serving⟩
  have some' : ssidOnallAP v (noted v now app msg i).apNodes (lone now i app.nextNode) ≠ [] := by
    obtain ⟨ssid, serving⟩ := List.exists_mem_of_ne_nil _ serves
    exact List.ne_nil_of_mem (asked ssid serving)
  have fresh : app.nextNode ∉ app.faultAP := fun fault => Nat.lt_irrefl _ (bounded.faults _ fault)
  have listed : lists (lone now i app.nextNode) i.val =
      some [app.nextNode] := by rw [lists_lone, if_pos rfl]
  -- what the selection is about
  generalize subject : (⟨(noted v now app msg i).apNodes,
    (∅ : AList fun _ : Text => Scan).insert msg.staMacAddr (lists (lone now i app.nextNode)),
      app.faultAP,
    app.ssidOnAP⟩ : AccessControlMultiApp.App) = selecting
  have selected : select v order (noted v now app msg i) msg.staMacAddr (lone now i app.nextNode)
      (ssidOnallAP v (noted v now app msg i).apNodes (lone now i app.nextNode)) =
        some (considerChannel v order
          (ssidOnallAP v (noted v now app msg i).apNodes (lone now i app.nextNode))
          (lists (lone now i app.nextNode)) { app := selecting } i.val) :=
    subject ▸ select_lone seen
  obtain ⟨kept, table, made, holds⟩ := considerChannel_lone v order selecting listed
    (subject ▸ node) serves asked (subject ▸ fresh)
  have erased : Idle { noted v now app msg i with
      sta2ChannelScan := (noted v now app msg i).sta2ChannelScan.erase msg.staMacAddr
      faultAP := app.faultAP
      ssidOnAP := learnt v app.ssidOnAP agent } := by
    intro sta
    by_cases same : sta = msg.staMacAddr
    · rw [same]
      exact AList.lookup_erase _ _
    · exact (AList.lookup_erase_ne same).trans ((AList.lookup_insert_ne same).trans (idle sta))
  rw [handle_idle idle here, assign]
  dsimp only
  rw [if_neg some', selected]
  dsimp only
  rw [made, kept]
  subst subject
  obtain ⟨returned, same⟩ := cleanUp_idle v now order erased msg.staMacAddr
    ((order.arrange table.entries).map fun entry => ⟨entry.2, msg.staMacAddr, msg.mode, entry.1⟩)
  refine ⟨returned, ?_, rfl, ?_, ?_⟩
  · intro sta
    exact (congrArg (AList.lookup sta) same).trans (erased sta)
  · show (((order.arrange table.entries).map _).map AddVap.ssid).Nodup
    rw [List.map_map]
    exact ((order.perm table.entries).map Sigma.fst).nodup_iff.mpr table.nodupKeys
  · intro call
    show call ∈ (order.arrange table.entries).map _ ↔ _
    rw [List.mem_map]
    constructor
    · rintro ⟨⟨ssid, holder⟩, member, rfl⟩
      obtain ⟨rfl, turn⟩ := (holds ssid holder).mp
          (AList.mem_lookup_iff.mpr ((order.perm _).mem_iff.mp member))
      exact ⟨rfl, rfl, rfl, turn⟩
    · rintro ⟨own, station, mode, turn⟩
      have entry : ⟨call.ssid, agent⟩ ∈ table.entries :=
        AList.mem_lookup_iff.mp ((holds call.ssid agent).mpr ⟨rfl, turn⟩)
      refine ⟨⟨call.ssid, agent⟩, (order.perm _).mem_iff.mpr entry, ?_⟩
      rw [← own, ← station, ← mode]

theorem handle_kept {app : App} {msg : ProbeInfoMessage} (idle : Idle app) (odd : ¬ Regular v msg) :
    ¬ Idle (handle v now order app msg).app := by
  intro none'
  have gone := none' msg.staMacAddr
  cases here : place msg.channel with
  | none =>
      simp [handle, here] at gone
  | some i =>
      have nothing : ssidOnallAP v (noted v now app msg i).apNodes (lone now i app.nextNode) =
          [] := by
        rw [ssidOnallAP_lone]
        split
        · next seen =>
            rw [List.eq_nil_iff_forall_not_mem]
            intro ssid member
            obtain ⟨agent, tracked, serving⟩ := (mem_ssidOnList _ _ ssid).mp member
            simp only [noted, Function.update_self] at tracked
            exact odd ⟨⟨i, here, seen⟩, agent, tracked, List.ne_nil_of_mem serving⟩
        · rfl
      rw [handle_idle idle here, assign] at gone
      dsimp only at gone
      rw [if_pos nothing] at gone
      simp [noted] at gone

theorem handle1_idle {app : App} (idle : Idle app) (sta : Text) : Idle (handle1 app sta) := by
  intro other
  by_cases same : other = sta
  · rw [same]
    exact AList.lookup_erase _ _
  · exact (AList.lookup_erase_ne same).trans (idle other)

theorem idle_step (app : App) (event : Event) (bounded : Bounded app) (idle : Idle app) :
    Idle (step app event) ↔ Fits app event := by
  cases event with
  | newSta sta => exact iff_of_true (handle1_idle idle sta) trivial
  | probe v now order msg =>
      constructor
      · intro after
        by_contra odd
        exact handle_kept idle odd after
      · rintro ⟨⟨i, here, seen⟩, agent, tracked, serves⟩
        exact (handle_answered v now order bounded idle here seen tracked serves).cleared

theorem start_bounded (nodes : Ref → ApNode) : Bounded (start nodes) :=
  ⟨fun ap fault => by simp [start] at fault, fun sta scan holds => by simp [start] at holds⟩

/-- The application never has a scan between two messages exactly if every probe comes on a channel
that it looks at, from an agent that is tracked and serves an SSID: then no two reports are ever
compared. -/
theorem never_compares (nodes : Ref → ApNode) (events : List Event) :
    Throughout step Idle (start nodes) events ↔ Allowed step Fits (start nodes) events :=
  throughout_iff Bounded Idle (start_bounded nodes) (fun _ => rfl) bounded_step idle_step events

/-- Some probe came from a tracked agent that serves the SSID. -/
def Heard (events : List Event) (ssid : Text) : Prop :=
  ∃ v now order msg agent, Event.probe v now order msg ∈ events ∧
    v.agentMap (v.agents msg.agent).macAddress = some agent ∧ ssid ∈ (v.agents agent).ssidSet

theorem heard_append (first second : List Event) (ssid : Text) :
    Heard (first ++ second) ssid ↔ Heard first ssid ∨ Heard second ssid := by
  simp only [Heard, List.mem_append, or_and_right, exists_or]

/-- The application has no scan, and knows the SSIDs that it heard of. -/
structure Rests (events : List Event) (app : App) : Prop where
  bounded : Bounded app
  idle : Idle app
  once : app.ssidOnAP.Nodup
  known : ∀ ssid, ssid ∈ app.ssidOnAP ↔ Heard events ssid

theorem rests_step {events : List Event} {app : App} (event : Event) (rests : Rests events app)
    (fits : Fits app event) :
    Rests (events ++ [event]) (step app event) := by
  refine ⟨bounded_step app event rests.bounded,
    (idle_step app event rests.bounded rests.idle).mpr fits, ?_, ?_⟩
  · cases event with
    | newSta sta => exact rests.once
    | probe v now order msg =>
        obtain ⟨⟨i, here, seen⟩, agent, tracked, serves⟩ := fits
        have learns := (handle_answered v now order rests.bounded rests.idle here seen tracked
            serves).learns
        rw [step, learns]
        exact nodup_inserted _ _ rests.once
  · intro ssid
    rw [heard_append, ← rests.known]
    cases event with
    | newSta sta => simp [Heard, step, handle1]
    | probe v now order msg =>
        obtain ⟨⟨i, here, seen⟩, agent, tracked, serves⟩ := fits
        have learns := (handle_answered v now order rests.bounded rests.idle here seen tracked
            serves).learns
        rw [step, learns, learnt, mem_inserted]
        apply or_congr_right
        constructor
        · intro serving
          exact ⟨v, now, order, msg, agent, List.mem_singleton.mpr rfl, tracked, serving⟩
        · rintro ⟨v', now', order', msg', agent', member, tracked', serving⟩
          obtain ⟨rfl, rfl, rfl, rfl⟩ := Event.probe.inj (List.mem_singleton.mp member)
          rw [tracked] at tracked'
          exact Option.some.inj tracked' ▸ serving

theorem rests_run {events : List Event} {app : App} (rests : Rests events app) (more : List Event)
    (fits : Allowed step Fits app more) : Rests (events ++ more) (run step app more) := by
  induction more generalizing events app with
  | nil =>
      rw [List.append_nil]
      exact rests
  | cons event more ih =>
      have later := ih (rests_step event rests fits.1) fits.2
      rw [List.append_assoc] at later
      exact later

/-- Where every probe is regular, each is answered by its own agent alone: with those of its SSIDs
that are among the first of all SSIDs that were ever heard of, as many as the agent has room for. -/
theorem reporter_answers (nodes : Ref → ApNode) (before after : List Event) (v : View) (now : Int)
    (order : Order) (msg : ProbeInfoMessage)
    (fits : Allowed step Fits (start nodes) (before ++ Event.probe v now order msg :: after)) :
    ∃ agent known, v.agentMap (v.agents msg.agent).macAddress = some agent ∧ known.Nodup ∧
      (∀ ssid, ssid ∈ known ↔ Heard (before ++ [Event.probe v now order msg]) ssid) ∧
      (handle v now order (run step (start nodes) before) msg).returned = true ∧
      ((handle v now order (run step (start nodes) before) msg).calls.map AddVap.ssid).Nodup ∧
      ∀ call, call ∈ (handle v now order (run step (start nodes) before) msg).calls ↔
        call.agent = agent ∧ call.staMacAddress = msg.staMacAddr ∧ call.mode = msg.mode ∧
          call.ssid ∈ (v.agents agent).ssidSet ∧
          call.ssid ∈ (order.arrange known).take (getVapContainerIdle v agent).toNat := by
  obtain ⟨earlier, regular, -⟩ := (allowed_append _ _ _).mp fits
  have new : Rests [] (start nodes) :=
    ⟨start_bounded nodes, fun _ => rfl, List.nodup_nil, fun ssid => by simp [start, Heard]⟩
  have rests := rests_run new before earlier
  have after := rests_step _ rests regular
  obtain ⟨⟨i, here, seen⟩, agent, tracked, serves⟩ := regular
  have answered := handle_answered v now order rests.bounded rests.idle here seen tracked serves
  have learns : (step (run step (start nodes) before) (.probe v now order msg)).ssidOnAP =
      learnt v (run step (start nodes) before).ssidOnAP agent := answered.learns
  exact ⟨agent, _, tracked, learns ▸ after.once, fun ssid => learns ▸ after.known ssid,
    answered.returned, answered.once,
    answered.calls⟩

def officeProbe : ProbeInfoMessage :=
  { staMacAddr := "sta".toList, rssi := -50, au := 0, channel := 6, mode := "11n".toList,
    agent := 1 }

def officeAps : View :=
  { MultiSelection.threeAps with
    agents := fun agent => { MultiSelection.threeAps.agents agent with
      macAddress := if agent = 1 then ['B'] else [] } }

theorem officeProbe_regular : Regular officeAps officeProbe :=
  ⟨⟨6, by decide, by decide⟩, 1, by decide, by decide⟩

theorem reporter_answers_office :
    ∃ agent known, officeAps.agentMap (officeAps.agents officeProbe.agent).macAddress = some agent ∧
      known.Nodup ∧
      (∀ ssid, ssid ∈ known ↔ Heard ([] ++ [Event.probe officeAps 0 .stored officeProbe]) ssid) ∧
      (handle officeAps 0 .stored (run step (start MultiSelection.threeNodes) [])
        officeProbe).returned = true ∧
      ((handle officeAps 0 .stored (run step (start MultiSelection.threeNodes) [])
        officeProbe).calls.map AddVap.ssid).Nodup ∧
      ∀ call, call ∈ (handle officeAps 0 .stored (run step (start MultiSelection.threeNodes) [])
        officeProbe).calls ↔
        call.agent = agent ∧ call.staMacAddress = officeProbe.staMacAddr ∧
          call.mode = officeProbe.mode ∧
          call.ssid ∈ (officeAps.agents agent).ssidSet ∧
          call.ssid ∈ (Order.stored.arrange known).take
            (getVapContainerIdle officeAps agent).toNat :=
  reporter_answers MultiSelection.threeNodes [] [] officeAps 0 .stored officeProbe
    ⟨officeProbe_regular, trivial⟩

end LazyAS.MultiProbes

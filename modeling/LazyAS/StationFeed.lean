import Mathlib.Data.List.Perm.Basic
import Mathlib.Data.List.Nodup
import LazyAS.Runs
import LazyAS.WireText

/-! The list of stations in `hostapd/main.c` and what the local daemon `stamgd` is told of it.
Everything happens in the event loop of hostapd: stations come and go, the timeout that connects to
the daemon fires, its socket is readable. -/
namespace LazyAS.StationFeed
open WireText Runs

abbrev Mac := Vector UInt8 6

/-- An interface name with its zeros, as `memcmp` compares it. -/
abbrev Iface := Vector UInt8 17

/-- `fnii_sta_list`. -/
structure Station where
  mac : Mac
  iface : Iface
  deriving DecidableEq

inductive StaEvent where
  | up
  | down
  deriving DecidableEq

/-- `hostapd_sta_updown`. When the daemon has connected the list is told without setting the other
fields. -/
structure StaUpdown where
  mac : Mac
  event : StaEvent
  others : Option (Text × Iface × UInt8)
  deriving DecidableEq

inductive Packet where
  | module (name : Text)
  | usrData (updw : StaUpdown)
  deriving DecidableEq

/-- What the kernel does with a packet: it takes all of it, in one piece or several, or `send` fails
behind a part. -/
inductive Answer where
  | taken
  | failed (part : Nat)
  deriving DecidableEq

inductive Sent where
  | whole (packet : Packet)
  | part (packet : Packet) (length : Nat)
  deriving DecidableEq

/-- `fnii_client_master` with the list, and what the event loop and the socket hold: how many
timeouts are set, which sockets are watched, how many were opened, what was written to the last one.
`reported` is what `fnii_sta_event.sh` was called with, and `ended` says that the process has called
`exit`. -/
structure Master where
  ss : Bool
  sock : Option Nat
  sta : List Station
  timeouts : Nat
  readers : List Nat
  opened : Nat
  stream : List Sent
  reported : List (StaEvent × Mac)
  ended : Bool

/-- `fnii_connect_to_stamgd` where the timeout can be set; else hostapd does not start. -/
def fniiConnectToStamgd : Master where
  ss := false
  sock := none
  sta := []
  timeouts := 1
  readers := []
  opened := 0
  stream := []
  reported := []
  ended := false

/-- `semd_msg2stamg`, with whether it returns a positive number. -/
def semdMsg2stamg (master : Master) (packet : Packet) (answer : Answer) : Master × Bool :=
  if master.ss = false then (master, false)
  else match answer with
    | .taken => ({ master with stream := master.stream ++ [.whole packet] }, true)
    | .failed part => ({ master with stream := master.stream ++ [.part packet part] }, false)

def fniiNewSta (master : Master) (mac : Mac) (ssidAssoc : Text) (iface : Iface) (ch : UInt8)
    (memory : Bool) (answer : Answer) : Master :=
  if master.sta.any fun sta => sta.mac = mac then master
  else
    let listed := if memory then { master with sta := ⟨mac, iface⟩ :: master.sta } else master
    let updw : StaUpdown := ⟨mac, .up, some (ssidAssoc.take 31, iface, ch)⟩
    let told := (semdMsg2stamg listed (.usrData updw) answer).1
    { told with reported := told.reported ++ [(.up, mac)] }

def fniiDelSta (master : Master) (mac : Mac) (ssidAssoc : Text) (iface : Iface) (ch : UInt8)
    (answer : Answer) : Master :=
  if master.sta.any fun sta => sta.mac = mac ∧ sta.iface = iface then
    let gone := { master with
        sta := master.sta.eraseP fun sta => sta.mac = mac ∧ sta.iface = iface }
    let updw : StaUpdown := ⟨mac, .down, some (ssidAssoc.take 31, iface, ch)⟩
    let told := (semdMsg2stamg gone (.usrData updw) answer).1
    { told with reported := told.reported ++ [(.down, mac)] }
  else master

def stationUp (sta : Station) : Packet := .usrData ⟨sta.mac, .up, none⟩

/-- The loop of `connect2stamg_success` over the list. -/
def tellStations : Master → List Station → (Nat → Answer) → Master
  | master, [], _ => master
  | master, sta :: rest, answers =>
      tellStations (semdMsg2stamg master (stationUp sta) (answers 0)).1 rest fun n =>
        answers (n + 1)

def connect2stamgSuccess (master : Master) (answers : Nat → Answer) : Master :=
  tellStations master master.sta answers

/-- What the calls of `eloop_connect_stamgd` answer: `socket` fails, `fcntl` or `connect` fails, or
there is a connection; then what comes of each packet, and whether the socket can be watched. -/
inductive Outcome where
  | noSocket
  | refused
  | connected (answers : Nat → Answer) (watched : Bool)

/-- The end of `eloop_connect_stamgd` behind `connect_err`. Here and below `registered` is whether
`eloop_register_timeout` succeeds; this call is not checked. -/
def connectErr (master : Master) (registered : Bool) : Master :=
  { master with sock := none, ss := false, timeouts := master.timeouts + registered.toNat }

def eloopConnectStamgd (master : Master) (registered : Bool) : Outcome → Master
  | .noSocket => connectErr master registered
  | .refused => connectErr { master with opened := master.opened + 1, stream := [] } registered
  | .connected answers watched =>
      let fresh : Master :=
        { master with
          sock := some master.opened, ss := true, opened := master.opened + 1, stream := [] }
      let named := semdMsg2stamg fresh (.module ['h', 'o', 's', 't', 'a', 'p', 'd']) (answers 0)
      if named.2 = false then connectErr named.1 registered
      else if watched = false then connectErr named.1 registered
      else connect2stamgSuccess { named.1 with
        readers := master.opened :: named.1.readers } fun n => answers (n + 1)

/-- `received` is what `recv` returns, with 0 for an error, too. -/
def stamgClientRead (master : Master) (socket received : Nat) (registered : Bool) : Master :=
  let unwatched := { master with readers := master.readers.erase socket }
  if received = 0 then
    if registered then { unwatched with timeouts := unwatched.timeouts + 1 }
      else { unwatched with ended := true }
  else unwatched

inductive Event where
  | newSta (mac : Mac) (ssidAssoc : Text) (iface : Iface) (ch : UInt8) (memory : Bool)
      (answer : Answer)
  | delSta (mac : Mac) (ssidAssoc : Text) (iface : Iface) (ch : UInt8) (answer : Answer)
  | timeout (outcome : Outcome) (registered : Bool)
  | readable (socket received : Nat) (registered : Bool)

def step (master : Master) : Event → Master
  | .newSta mac ssidAssoc iface ch memory answer =>
    fniiNewSta master mac ssidAssoc iface ch memory answer
  | .delSta mac ssidAssoc iface ch answer => fniiDelSta master mac ssidAssoc iface ch answer
  | .timeout outcome registered =>
      eloopConnectStamgd { master with timeouts := master.timeouts - 1 } registered outcome
  | .readable socket received registered => stamgClientRead master socket received registered

/-- The process runs; only a timeout that is set fires, and only a socket that is watched is read.
-/
def Possible (master : Master) (event : Event) : Prop :=
  master.ended = false ∧ match event with
    | .newSta .. | .delSta .. => True
    | .timeout .. => 0 < master.timeouts
    | .readable socket _ _ => socket ∈ master.readers

/-! A listener. -/

/-- The stations that are up for someone who is told of one event after the other, and takes only
those that make sense: a station comes up that is not up, or goes down that is. -/
def hear (held : List Mac) : StaEvent × Mac → Option (List Mac)
  | (.up, mac) => if mac ∈ held then none else some (mac :: held)
  | (.down, mac) => if mac ∈ held then some (held.erase mac) else none

def told : Sent → List (StaEvent × Mac)
  | .whole (.usrData updw) => [(updw.event, updw.mac)]
  | _ => []

def macs (stations : List Station) : List Mac := stations.map Station.mac

/-- What was told makes sense, and amounts to the list. -/
def Tells (events : List (StaEvent × Mac)) (stations : List Station) : Prop :=
  ∃ held, events.foldlM hear [] = some held ∧ held.Perm (macs stations)

theorem tells_nothing : Tells [] [] := ⟨[], rfl, .refl _⟩

theorem Tells.up {events : List (StaEvent × Mac)} {stations : List Station}
    (tells : Tells events stations) (sta : Station) (new : sta.mac ∉ macs stations) :
    Tells (events ++ [(.up, sta.mac)]) (sta :: stations) := by
  obtain ⟨held, heard, same⟩ := tells
  refine ⟨sta.mac :: held, ?_, same.cons _⟩
  have absent : sta.mac ∉ held := fun wrong => new (same.subset wrong)
  rw [List.foldlM_append, heard]
  simp [hear, absent]

theorem Tells.down {events : List (StaEvent × Mac)} {stations : List Station}
    (tells : Tells events stations) (sta : Station) (unique : (macs stations).Nodup)
    (listed : sta ∈ stations) :
    Tells (events ++ [(.down, sta.mac)]) (stations.eraseP fun other => other.mac = sta.mac ∧
      other.iface = sta.iface) := by
  obtain ⟨held, heard, same⟩ := tells
  have present : sta.mac ∈ held := same.symm.subset (List.mem_map_of_mem listed)
  refine ⟨held.erase sta.mac, ?_, ?_⟩
  · rw [List.foldlM_append, heard]
    simp [hear, present]
  · have erased : macs (stations.eraseP fun other => other.mac = sta.mac ∧
        other.iface = sta.iface) =
        (macs stations).erase sta.mac := by
      clear same heard present
      induction stations with
      | nil => cases listed
      | cons first rest ih =>
          obtain ⟨apart, unique⟩ := List.nodup_cons.mp unique
          rcases List.mem_cons.mp listed with rfl | later
          · simp [macs]
          · have other : first.mac ≠ sta.mac := fun wrong =>
                apart (wrong ▸ List.mem_map_of_mem later)
            have tail := ih unique later
            simp only [macs, List.map_cons] at tail ⊢
            rw [List.eraseP_cons_of_neg
              (by simp [other]), List.erase_cons_tail (by simp [other]), List.map_cons, tail]
    rw [erased]
    exact same.erase _

theorem tells_all (rest : List Station) (held : List Mac) (distinct : (macs rest ++ held).Nodup) :
    (rest.map fun sta => (StaEvent.up, sta.mac)).foldlM hear held =
      some ((macs rest).reverse ++ held) := by
  induction rest generalizing held with
  | nil => rfl
  | cons sta rest ih =>
      obtain ⟨apart, distinct⟩ := List.nodup_cons.mp distinct
      have absent : sta.mac ∉ held := fun wrong => apart (List.mem_append_right _ wrong)
      have moved : (macs rest ++ sta.mac :: held).Nodup :=
        List.perm_middle.nodup_iff.mpr (List.nodup_cons.mpr ⟨apart, distinct⟩)
      rw [List.map_cons, List.foldlM_cons, hear, if_neg absent]
      simp only [Option.bind_eq_bind, Option.bind_some]
      rw [ih _ moved]
      simp [macs]

/-! The daemon is told what the list says. -/

/-- Every packet of an event is taken, and there is memory for the list. -/
def Delivered (_ : Master) : Event → Prop
  | .newSta _ _ _ _ memory answer => memory = true ∧ answer = .taken
  | .delSta _ _ _ _ answer => answer = .taken
  | .timeout (.connected answers _) _ => ∀ n, answers n = .taken
  | .timeout _ _ | .readable .. => True

structure Mirrors (master : Master) : Prop where
  unique : (macs master.sta).Nodup
  reported : Tells master.reported master.sta
  stream : master.ss = true → Tells (master.stream.flatMap told) master.sta

theorem semd_frame (master : Master) (packet : Packet) (answer : Answer) :
    ∃ stream, (semdMsg2stamg master packet answer).1 = { master with stream := stream } := by
  unfold semdMsg2stamg
  split
  · exact ⟨master.stream, rfl⟩
  · cases answer <;> exact ⟨_, rfl⟩

@[simp] theorem semd_ss (master : Master) (packet : Packet) (answer : Answer) :
    (semdMsg2stamg master packet answer).1.ss = master.ss := by
  obtain ⟨stream, same⟩ := semd_frame master packet answer
  rw [same]

@[simp] theorem semd_sta (master : Master) (packet : Packet) (answer : Answer) :
    (semdMsg2stamg master packet answer).1.sta = master.sta := by
  obtain ⟨stream, same⟩ := semd_frame master packet answer
  rw [same]

@[simp] theorem semd_reported (master : Master) (packet : Packet) (answer : Answer) :
    (semdMsg2stamg master packet answer).1.reported = master.reported := by
  obtain ⟨stream, same⟩ := semd_frame master packet answer
  rw [same]

theorem semd_taken (master : Master) (packet : Packet) (connected : master.ss = true) :
    semdMsg2stamg master packet .taken =
      ({ master with stream := master.stream ++ [.whole packet] }, true) := by
  simp [semdMsg2stamg, connected]

theorem tellStations_taken (stations : List Station) (master : Master)
    (connected : master.ss = true) (answers : Nat → Answer) (taken : ∀ n, answers n = .taken) :
    tellStations master stations answers =
      { master with
        stream := master.stream ++ stations.map fun sta => Sent.whole (stationUp sta) } := by
  induction stations generalizing master answers with
  | nil => simp [tellStations]
  | cons sta rest ih =>
      rw [tellStations, taken, semd_taken master _ connected,
        ih _ (by exact connected) _ fun n => taken (n + 1)]
      simp

theorem Mirrors.newSta {master : Master} (mirrors : Mirrors master) (mac : Mac) (ssidAssoc : Text)
    (iface : Iface) (ch : UInt8) :
    Mirrors (fniiNewSta master mac ssidAssoc iface ch true .taken) := by
  rw [fniiNewSta]
  split
  case isTrue => exact mirrors
  case isFalse missing =>
    have new : mac ∉ macs master.sta := by
      intro member
      obtain ⟨sta, listed, same⟩ := List.mem_map.mp member
      exact missing (List.any_eq_true.mpr ⟨sta, listed, decide_eq_true same⟩)
    constructor
    · simp only [if_true, semd_sta]
      exact List.nodup_cons.mpr ⟨new, mirrors.unique⟩
    · simp only [if_true, semd_sta, semd_reported]
      exact mirrors.reported.up ⟨mac, iface⟩ new
    · intro connected
      simp only [if_true, semd_ss] at connected
      simp only [if_true, semd_sta]
      rw [semd_taken, List.flatMap_append]
      · exact (mirrors.stream connected).up ⟨mac, iface⟩ new
      · exact connected

theorem Mirrors.delSta {master : Master} (mirrors : Mirrors master) (mac : Mac) (ssidAssoc : Text)
    (iface : Iface) (ch : UInt8) :
    Mirrors (fniiDelSta master mac ssidAssoc iface ch .taken) := by
  rw [fniiDelSta]
  split
  case isFalse => exact mirrors
  case isTrue found =>
    obtain ⟨sta, listed, same⟩ := List.any_eq_true.mp found
    obtain ⟨rfl, rfl⟩ := of_decide_eq_true same
    constructor
    · simp only [semd_sta]
      exact (List.eraseP_sublist.map _).nodup mirrors.unique
    · simp only [semd_sta, semd_reported]
      exact mirrors.reported.down sta mirrors.unique listed
    · intro connected
      simp only [semd_ss] at connected
      simp only [semd_sta]
      rw [semd_taken, List.flatMap_append]
      · exact (mirrors.stream connected).down sta mirrors.unique listed
      · exact connected

theorem Mirrors.unconnected {master after : Master} (mirrors : Mirrors master)
    (list : after.sta = master.sta) (reports : after.reported = master.reported)
    (alone : after.ss = false) : Mirrors after where
  unique := list ▸ mirrors.unique
  reported := list ▸ reports ▸ mirrors.reported
  stream := fun wrong => absurd (alone.symm.trans wrong) Bool.false_ne_true

theorem connect_taken (master : Master) (registered : Bool) (answers : Nat → Answer)
    (taken : ∀ n, answers n = .taken) :
    eloopConnectStamgd master registered (.connected answers true) =
      { master with
        sock := some master.opened
        ss := true
        readers := master.opened :: master.readers
        opened := master.opened + 1
        stream := .whole (.module ['h', 'o', 's', 't', 'a', 'p', 'd']) ::
          master.sta.map fun sta => Sent.whole (stationUp sta) } := by
  simp [eloopConnectStamgd, taken, semdMsg2stamg, connect2stamgSuccess, tellStations_taken]

theorem Mirrors.connect {master : Master} (mirrors : Mirrors master) (outcome : Outcome)
    (registered : Bool) (delivered : Delivered master (.timeout outcome registered)) :
    Mirrors (eloopConnectStamgd master registered outcome) := by
  cases outcome with
  | noSocket => exact mirrors.unconnected rfl rfl rfl
  | refused => exact mirrors.unconnected rfl rfl rfl
  | connected answers watched =>
      have taken : ∀ n, answers n = .taken := delivered
      cases watched with
      | false =>
          have closed : eloopConnectStamgd master registered (.connected answers false) = connectErr
              { master with
                sock := some master.opened
                ss := true
                opened := master.opened + 1
                stream := [.whole (.module ['h', 'o', 's', 't', 'a', 'p', 'd'])] } registered := by
            simp [eloopConnectStamgd, taken, semdMsg2stamg]
          rw [closed]
          exact mirrors.unconnected rfl rfl rfl
      | true =>
          rw [connect_taken master registered answers taken]
          constructor
          · exact mirrors.unique
          · exact mirrors.reported
          · intro _
            refine ⟨(macs master.sta).reverse, ?_, List.reverse_perm _⟩
            have events : (Sent.whole (.module ['h', 'o', 's', 't', 'a', 'p', 'd']) ::
                master.sta.map fun sta => Sent.whole (stationUp sta)).flatMap told =
                  master.sta.map fun sta => (StaEvent.up, sta.mac) := by
              simp only [told, stationUp, List.flatMap_cons, List.flatMap_map, List.nil_append]
              exact List.map_eq_flatMap.symm
            have heard := tells_all master.sta [] (by simpa using mirrors.unique)
            rw [List.append_nil] at heard
            exact (congrArg (fun events => List.foldlM hear [] events) events).trans heard

theorem mirrors_step (master : Master) (event : Event) (delivered : Delivered master event)
    (mirrors : Mirrors master) :
    Mirrors (step master event) := by
  cases event with
  | newSta mac ssidAssoc iface ch memory answer =>
      obtain ⟨rfl, rfl⟩ := delivered
      exact mirrors.newSta mac ssidAssoc iface ch
  | delSta mac ssidAssoc iface ch answer =>
      cases delivered
      exact mirrors.delSta mac ssidAssoc iface ch
  | timeout outcome registered =>
      have waiting : Mirrors { master with timeouts := master.timeouts - 1 } :=
        ⟨mirrors.unique, mirrors.reported, mirrors.stream⟩
      exact waiting.connect outcome registered delivered
  | readable socket received registered =>
      change Mirrors (stamgClientRead master socket received registered)
      rw [stamgClientRead]
      split
      · split <;> exact ⟨mirrors.unique, mirrors.reported, mirrors.stream⟩
      · exact ⟨mirrors.unique, mirrors.reported, mirrors.stream⟩

/-- However stations come and go and connections are made and lost: as long as packets are taken,
what the daemon was told on its connection makes sense event by event and amounts to the list, and
so does what the script was called with. -/
theorem feed_mirrors (events : List Event)
    (delivered : Allowed step Delivered fniiConnectToStamgd events) :
    Tells (run step fniiConnectToStamgd events).reported (run step fniiConnectToStamgd events).sta ∧
      ((run step fniiConnectToStamgd events).ss = true →
        Tells ((run step fniiConnectToStamgd events).stream.flatMap told)
          (run step fniiConnectToStamgd events).sta) := by
  have start : Mirrors fniiConnectToStamgd :=
    ⟨List.nodup_nil, tells_nothing, fun wrong => nomatch wrong⟩
  have mirrors := Reaches.invariant Mirrors start mirrors_step
      (Reaches.append events .start delivered)
  exact ⟨mirrors.reported, mirrors.stream⟩

def nearMac : Mac := Vector.replicate 6 1

def farMac : Mac := Vector.replicate 6 2

def wlan : Iface := Vector.replicate 17 119

def connects : Event := .timeout (.connected (fun _ => .taken) true) true

def fed : List Event := [.newSta nearMac [] wlan 6 true .taken, connects,
      .newSta farMac [] wlan 6 true .taken,
  .delSta nearMac [] wlan 6 .taken]

theorem feed_mirrors_fed :
    Tells (run step fniiConnectToStamgd fed).reported (run step fniiConnectToStamgd fed).sta ∧
    ((run step fniiConnectToStamgd fed).ss = true →
      Tells ((run step fniiConnectToStamgd fed).stream.flatMap told)
        (run step fniiConnectToStamgd fed).sta) :=
  feed_mirrors fed ⟨⟨rfl, rfl⟩, fun _ => rfl, ⟨rfl, rfl⟩, rfl, trivial⟩

/-! The list against the associations it is to stand for. -/

abbrev Associated := Mac → Iface → Bool

def associate (associated : Associated) : Event → Associated
  | .newSta mac _ iface _ _ _ =>
    Function.update associated mac (Function.update (associated mac) iface true)
  | .delSta mac _ iface _ _ =>
      Function.update associated mac (Function.update (associated mac) iface false)
  | .timeout .. | .readable .. => associated

def bothStep (state : Master × Associated) (event : Event) : Master × Associated :=
  (step state.1 event, associate state.2 event)

def Shows (state : Master × Associated) : Prop :=
  ∀ mac iface, ⟨mac, iface⟩ ∈ state.1.sta ↔ state.2 mac iface = true

/-- A station that comes is associated on no other interface, and there is memory for it. -/
def Single (state : Master × Associated) : Event → Prop
  | .newSta mac _ iface _ memory _ =>
      (∀ other, state.2 mac other = true → other = iface) ∧
        (memory = true ∨ state.2 mac iface = true)
  | _ => True

theorem tellStations_sta (stations : List Station) (master : Master) (answers : Nat → Answer) :
    (tellStations master stations answers).sta = master.sta := by
  induction stations generalizing master answers with
  | nil => rfl
  | cons sta rest ih => rw [tellStations, ih, semd_sta]

theorem connect_sta (master : Master) (registered : Bool) (outcome : Outcome) :
    (eloopConnectStamgd master registered outcome).sta = master.sta := by
  cases outcome with
  | noSocket => rfl
  | refused => rfl
  | connected answers watched =>
      simp only [eloopConnectStamgd]
      split
      · exact semd_sta ..
      · split
        · exact semd_sta ..
        · exact (tellStations_sta ..).trans (semd_sta ..)

theorem read_sta (master : Master) (socket received : Nat) (registered : Bool) :
    (stamgClientRead master socket received registered).sta = master.sta := by
  rw [stamgClientRead]
  split
  · split <;> rfl
  · rfl

theorem newSta_sta (master : Master) (mac : Mac) (ssidAssoc : Text) (iface : Iface) (ch : UInt8)
    (memory : Bool) (answer : Answer) :
    (fniiNewSta master mac ssidAssoc iface ch memory answer).sta =
      if mac ∈ macs master.sta ∨ memory = false then master.sta else ⟨mac, iface⟩ ::
        master.sta := by
  have known : (master.sta.any fun sta => sta.mac = mac) = true ↔ mac ∈ macs master.sta := by
    simp [macs]
  rw [fniiNewSta]
  by_cases listed : mac ∈ macs master.sta
  · rw [if_pos (known.mpr listed), if_pos (Or.inl listed)]
  · rw [if_neg fun wrong => listed (known.mp wrong)]
    cases memory with
    | false => simp
    | true => simp [listed]

theorem delSta_sta (master : Master) (mac : Mac) (ssidAssoc : Text) (iface : Iface) (ch : UInt8)
    (answer : Answer) :
    (fniiDelSta master mac ssidAssoc iface ch answer).sta = master.sta.erase ⟨mac, iface⟩ := by
  have same : ∀ sta : Station, decide (sta.mac = mac ∧ sta.iface = iface) =
      (sta == ⟨mac, iface⟩) := by
    intro sta
    cases sta
    simp [BEq.beq]
  rw [fniiDelSta]
  split
  case isTrue => simp only [semd_sta, same, List.erase_eq_eraseP']
  case isFalse missing =>
    rw [List.erase_of_not_mem]
    intro listed
    exact missing (List.any_eq_true.mpr ⟨_, listed, decide_eq_true ⟨rfl, rfl⟩⟩)

theorem unique_step (master : Master) (event : Event) (unique : (macs master.sta).Nodup) :
    (macs (step master event).sta).Nodup := by
  cases event with
  | newSta mac ssidAssoc iface ch memory answer =>
      change (macs (fniiNewSta ..).sta).Nodup
      rw [newSta_sta]
      split
      case isTrue => exact unique
      case isFalse new => exact List.nodup_cons.mpr ⟨fun wrong => new (Or.inl wrong), unique⟩
  | delSta mac ssidAssoc iface ch answer =>
      change (macs (fniiDelSta ..).sta).Nodup
      rw [delSta_sta]
      exact (List.erase_sublist.map _).nodup unique
  | timeout outcome registered =>
      change (macs (eloopConnectStamgd ..).sta).Nodup
      rw [connect_sta]
      exact unique
  | readable socket received registered =>
      change (macs (stamgClientRead ..).sta).Nodup
      rw [read_sta]
      exact unique

theorem same_iface {stations : List Station} (unique : (macs stations).Nodup) {mac : Mac}
    {iface other : Iface} (first : ⟨mac, iface⟩ ∈ stations) (second : ⟨mac, other⟩ ∈ stations) :
    iface = other :=
  congrArg Station.iface (List.inj_on_of_nodup_map unique first second rfl)

theorem newSta_shows (state : Master × Associated) (unique : (macs state.1.sta).Nodup)
    (shows' : Shows state) (mac : Mac) (ssidAssoc : Text) (iface : Iface) (ch : UInt8)
    (memory : Bool) (answer : Answer) :
    Shows (bothStep state (.newSta mac ssidAssoc iface ch memory answer)) ↔
      Single state (.newSta mac ssidAssoc iface ch memory answer) := by
  have listed (other : Iface) : ⟨mac, other⟩ ∈ state.1.sta ↔ state.2 mac other = true :=
    shows' mac other
  have list : (bothStep state (.newSta mac ssidAssoc iface ch memory answer)).1.sta =
      if mac ∈ macs state.1.sta ∨ memory = false then state.1.sta else ⟨mac, iface⟩ ::
        state.1.sta := newSta_sta ..
  have others (m : Mac) (i : Iface) (away : ¬ (m = mac ∧ i = iface)) :
      (bothStep state (.newSta mac ssidAssoc iface ch memory answer)).2 m i = state.2 m i := by
    simp only [bothStep, associate]
    by_cases here : m = mac
    · subst here
      rw [Function.update_self, Function.update_of_ne fun same => away ⟨rfl, same⟩]
    · rw [Function.update_of_ne here]
  have own : (bothStep state (.newSta mac ssidAssoc iface ch memory answer)).2 mac iface =
      true := by
    simp [bothStep, associate]
  constructor
  · intro after
    have here := (after mac iface).mpr own
    rw [list] at here
    split at here
    case isTrue =>
      constructor
      · intro other there
        exact same_iface unique ((listed other).mpr there) here
      · exact Or.inr ((listed iface).mp here)
    case isFalse new =>
      obtain ⟨apart, room⟩ := not_or.mp new
      constructor
      · intro other there
        exact absurd (List.mem_map_of_mem ((listed other).mpr there)) apart
      · exact Or.inl (Bool.eq_true_of_not_eq_false room)
  · rintro ⟨alone, room⟩ m i
    rw [list]
    by_cases this : m = mac ∧ i = iface
    · obtain ⟨rfl, rfl⟩ := this
      refine iff_of_true ?_ own
      split
      case isTrue known =>
        rcases known with member | none'
        · obtain ⟨sta, inside, same⟩ := List.mem_map.mp member
          have entry : ⟨m, sta.iface⟩ ∈ state.1.sta := same ▸ inside
          exact alone _ ((listed _).mp entry) ▸ entry
        · exact (listed i).mpr (room.resolve_left fun wrong => Bool.false_ne_true
            (none'.symm.trans wrong))
      case isFalse => exact List.mem_cons_self
    · rw [others m i this, ← shows' m i]
      split
      · exact Iff.rfl
      · constructor
        · intro member
          exact (List.mem_cons.mp member).resolve_left fun same =>
            this ⟨congrArg Station.mac same, congrArg Station.iface same⟩
        · exact List.mem_cons_of_mem _

theorem delSta_shows (state : Master × Associated) (unique : (macs state.1.sta).Nodup)
    (shows' : Shows state) (mac : Mac) (ssidAssoc : Text) (iface : Iface) (ch : UInt8)
    (answer : Answer) :
    Shows (bothStep state (.delSta mac ssidAssoc iface ch answer)) := by
  intro m i
  have list : (bothStep state (.delSta mac ssidAssoc iface ch answer)).1.sta =
      state.1.sta.erase ⟨mac, iface⟩ := delSta_sta ..
  have distinct : state.1.sta.Nodup := List.Nodup.of_map _ unique
  rw [list, distinct.mem_erase_iff, shows' m i]
  simp only [bothStep, associate, ne_eq, Station.mk.injEq]
  by_cases here : m = mac
  · subst here
    rw [Function.update_self]
    by_cases there : i = iface
    · simp [there]
    · simp [there]
  · simp [here]

/-- Every pair of a station and an interface on the list is an association and the other way round,
throughout a run, exactly if no station ever comes to an interface while it is still associated on
another one (and memory lasts). A station that roams between two interfaces of the access point is
left out, and is reported gone when it leaves the first. -/
theorem list_shows_associations (events : List Event) :
    Throughout bothStep Shows (fniiConnectToStamgd, fun _ _ => false) events ↔
      Allowed bothStep Single (fniiConnectToStamgd, fun _ _ => false) events := by
  apply throughout_iff (fun state => (macs state.1.sta).Nodup)
  · exact List.nodup_nil
  · intro mac iface
    simp [fniiConnectToStamgd]
  · exact fun state event unique => unique_step state.1 event unique
  · intro state event unique shows'
    cases event with
    | newSta mac ssidAssoc iface ch memory answer =>
        exact newSta_shows state unique shows' mac ssidAssoc iface ch memory answer
    | delSta mac ssidAssoc iface ch answer =>
        exact iff_of_true (delSta_shows state unique shows' mac ssidAssoc iface ch answer) trivial
    | timeout outcome registered =>
        refine iff_of_true ?_ trivial
        intro mac iface
        have list : (bothStep state (.timeout outcome registered)).1.sta = state.1.sta :=
          connect_sta ..
        rw [list]
        exact shows' mac iface
    | readable socket received registered =>
        refine iff_of_true ?_ trivial
        intro mac iface
        have list : (bothStep state (.readable socket received registered)).1.sta = state.1.sta :=
          read_sta ..
        rw [list]
        exact shows' mac iface

/-! Connecting anew. -/

def pending (master : Master) : Nat := master.timeouts + master.readers.length

/-- The daemon has sent something, rather than closed the connection. -/
def spoken : Event → Nat
  | .readable _ received _ => if received = 0 then 0 else 1
  | _ => 0

def spokenIn (events : List Event) : Nat := (events.map spoken).sum

def fails : Outcome → Bool
  | .noSocket | .refused => true
  | .connected answers watched => answers 0 ≠ .taken || !watched

def unset : Event → Nat
  | .timeout outcome registered => if fails outcome ∧ registered = false then 1 else 0
  | .readable _ received registered => if received = 0 ∧ registered = false then 1 else 0
  | _ => 0

def unsetIn (events : List Event) : Nat := (events.map unset).sum

theorem semd_pending (master : Master) (packet : Packet) (answer : Answer) :
    pending (semdMsg2stamg master packet answer).1 = pending master ∧
      (semdMsg2stamg master packet answer).1.opened = master.opened := by
  obtain ⟨stream, same⟩ := semd_frame master packet answer
  rw [same]
  exact ⟨rfl, rfl⟩

theorem tellStations_pending (stations : List Station) (master : Master) (answers : Nat → Answer) :
    pending (tellStations master stations answers) = pending master := by
  induction stations generalizing master answers with
  | nil => rfl
  | cons sta rest ih => rw [tellStations, ih, (semd_pending ..).1]

theorem connectErr_pending (master : Master) (registered : Bool) :
    pending (connectErr master registered) = pending master + registered.toNat := by
  simp only [pending, connectErr]
  omega

theorem connect_pending (master : Master) (registered : Bool) (outcome : Outcome) :
    pending (eloopConnectStamgd master registered outcome) + unset (.timeout outcome registered) =
      pending master + 1 := by
  have failed (before : Master) (same : pending before = pending master)
      (fault : fails outcome = true) :
      pending (connectErr before registered) + unset (.timeout outcome registered) =
          pending master + 1 := by
    rw [connectErr_pending, same, unset, fault]
    cases registered <;> rfl
  cases outcome with
  | noSocket => exact failed _ rfl rfl
  | refused => exact failed _ rfl rfl
  | connected answers watched =>
      simp only [eloopConnectStamgd]
      have named := (semd_pending { master with
        sock := some master.opened, ss := true, opened := master.opened + 1, stream := [] }
        (.module ['h', 'o', 's', 't', 'a', 'p', 'd']) (answers 0)).1
      have outcome : (semdMsg2stamg { master with
          sock := some master.opened, ss := true, opened := master.opened + 1, stream := [] }
          (.module ['h', 'o', 's', 't', 'a', 'p', 'd']) (answers 0)).2 =
              decide (answers 0 = .taken) := by
        unfold semdMsg2stamg
        cases answers 0 <;> rfl
      split
      case isTrue refused =>
        refine failed _ (named.trans rfl) ?_
        rw [outcome] at refused
        simp [fails, of_decide_eq_false refused]
      case isFalse accepted =>
        have whole : answers 0 = .taken := by
          rw [outcome, Bool.not_eq_false] at accepted
          exact of_decide_eq_true accepted
        split
        case isTrue blind => exact failed _ (named.trans rfl) (by simp [fails, blind])
        case isFalse seen =>
          have fine : unset (.timeout (.connected answers watched) registered) = 0 := by
            simp [unset, fails, whole, seen]
          rw [connect2stamgSuccess, tellStations_pending, fine]
          simp only [pending, List.length_cons] at named ⊢
          omega

theorem sta_pending (master : Master) (event : Event)
    (other : ∀ outcome registered, event ≠ .timeout outcome registered)
    (unread : ∀ socket received registered, event ≠ .readable socket received registered) :
    pending (step master event) = pending master ∧ (step master event).opened = master.opened := by
  cases event with
  | newSta mac ssidAssoc iface ch memory answer =>
      simp only [step, fniiNewSta]
      split
      · exact ⟨rfl, rfl⟩
      · have told := semd_pending (if memory = true then
            { master with sta := ⟨mac, iface⟩ :: master.sta } else master)
          (.usrData ⟨mac, .up, some (ssidAssoc.take 31, iface, ch)⟩) answer
        cases memory <;> exact told
  | delSta mac ssidAssoc iface ch answer =>
      simp only [step, fniiDelSta]
      split
      · exact semd_pending { master with
          sta := master.sta.eraseP fun sta => sta.mac = mac ∧ sta.iface = iface }
          (.usrData ⟨mac, .down, some (ssidAssoc.take 31, iface, ch)⟩) answer
      · exact ⟨rfl, rfl⟩
  | timeout outcome registered => exact absurd rfl (other outcome registered)
  | readable socket received registered => exact absurd rfl (unread socket received registered)

/-- A timeout gives way to another one or to a watched socket, and a closed socket to a timeout,
unless it cannot be set; data gives way to nothing. -/
theorem pending_step (master : Master) (event : Event) (possible : Possible master event) :
    pending (step master event) + (spoken event + unset event) = pending master := by
  cases event with
  | newSta mac ssidAssoc iface ch memory answer =>
      exact (sta_pending master _ (by simp) (by simp)).1
  | delSta mac ssidAssoc iface ch answer => exact (sta_pending master _ (by simp) (by simp)).1
  | timeout outcome registered =>
      have set : 0 < master.timeouts := possible.2
      have connected := connect_pending { master with timeouts := master.timeouts - 1 } registered
          outcome
      change pending (eloopConnectStamgd _ registered outcome) + (0 + _) = _
      simp only [pending] at connected ⊢
      omega
  | readable socket received registered =>
      have watched : socket ∈ master.readers := possible.2
      have one := List.length_erase_of_mem watched
      have some' := List.length_pos_of_mem watched
      simp only [step, stamgClientRead, spoken, unset, pending]
      by_cases closed : received = 0
      · cases registered with
        | true =>
            simp [closed]
            omega
        | false =>
            simp [closed]
            omega
      · simp [closed]
        omega

theorem pending_run (events : List Event) (master : Master)
    (possible : Allowed step Possible master events) :
    pending (run step master events) + (spokenIn events + unsetIn events) = pending master := by
  induction events generalizing master with
  | nil => rfl
  | cons event events ih =>
      have first := pending_step master event possible.1
      have rest := ih _ possible.2
      have onward : run step master (event :: events) = run step (step master event) events := rfl
      rw [onward, spokenIn, unsetIn, List.map_cons, List.map_cons, List.sum_cons, List.sum_cons]
      rw [spokenIn, unsetIn] at rest
      omega

theorem deaf_run (events : List Event) (master : Master) (deaf : pending master = 0)
    (possible : Allowed step Possible master events) :
    (run step master events).opened = master.opened := by
  induction events generalizing master with
  | nil => rfl
  | cons event events ih =>
      have later := pending_step master event possible.1
      have same : (step master event).opened = master.opened := by
        cases event with
        | newSta mac ssidAssoc iface ch memory answer =>
            exact (sta_pending master _ (by simp) (by simp)).2
        | delSta mac ssidAssoc iface ch answer => exact (sta_pending master _ (by simp) (by simp)).2
        | timeout outcome registered =>
            have set : 0 < master.timeouts := possible.1.2
            simp only [pending] at deaf
            omega
        | readable socket received registered =>
            simp only [step, stamgClientRead]
            split
            · split <;> rfl
            · rfl
      exact (ih _ (by omega) possible.2).trans same

/-- At every time, of four things exactly one has come about, and once: a timeout to connect is set,
the socket is watched, the daemon has sent something, or a timeout could not be set. After the last
two hostapd opens no socket any more, whatever happens. -/
theorem reconnects_until_spoken (events later : List Event)
    (possible : Allowed step Possible fniiConnectToStamgd (events ++ later)) :
    (run step fniiConnectToStamgd events).timeouts +
      (run step fniiConnectToStamgd events).readers.length +
        spokenIn events + unsetIn events = 1 ∧
      (0 < spokenIn events + unsetIn events →
        (run step fniiConnectToStamgd (events ++ later)).opened =
          (run step fniiConnectToStamgd events).opened) := by
  obtain ⟨first, second⟩ := (allowed_append _ events later).mp possible
  have one := pending_run events fniiConnectToStamgd first
  have start : pending fniiConnectToStamgd = 1 := rfl
  constructor
  · rw [pending] at one
    omega
  · intro heard
    rw [run_append]
    exact deaf_run later _ (by omega) second

def spokenTo : List Event :=
  [.timeout .refused true, connects, .newSta nearMac [] wlan 6 true .taken, .readable 1 4 true]

theorem reconnects_until_spoken_once :
    (run step fniiConnectToStamgd spokenTo).timeouts +
      (run step fniiConnectToStamgd spokenTo).readers.length +
        spokenIn spokenTo + unsetIn spokenTo = 1 ∧
      (0 < spokenIn spokenTo + unsetIn spokenTo →
        (run step fniiConnectToStamgd (spokenTo ++ [.newSta farMac [] wlan 6 true .taken])).opened =
          (run step fniiConnectToStamgd spokenTo).opened) :=
  reconnects_until_spoken spokenTo [.newSta farMac [] wlan 6 true .taken]
    ⟨⟨rfl, Nat.one_pos⟩, ⟨rfl, Nat.one_pos⟩, ⟨rfl, trivial⟩, ⟨rfl, List.mem_cons_self⟩,
      ⟨rfl, trivial⟩, trivial⟩

end LazyAS.StationFeed

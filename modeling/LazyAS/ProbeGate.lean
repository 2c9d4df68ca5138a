import LazyAS.CommandHandlers

/-! Which probe requests an access point answers (`handle_probe_req` of `beacon.c`): those of the
stations in its table, which the commands of the controller, the associations and every new
connection to the controller change. Texts stand for bytes. The parts that only the options for P2P,
interworking and tests compile in are left out. -/
namespace LazyAS.ProbeGate
open WireText CommandCodec CommandHandlers
open LinkedChain (Ptr)
open DenseStationHash (Mac CmdMsg Entry Ret SocketStatus Memory Call Returns onSet setAfter entryOf)

structure Hapd where
  ownAddr : Mac
  ssid : Text
  sendProbeResponse : Bool
  channel : Nat
  /-- `current_mode` is the mode of 802.11b or 802.11g. -/
  mode2G : Bool

structure Elems where
  ssid : Option Text
  suppRates : Bool
  ssidList : Option Text
  dsParams : Option Text

/-- A probe request, with what the rest of hostapd makes of it. -/
structure ProbeReq where
  bssid : Mac
  sa : Mac
  /-- It ends before its elements. -/
  short : Bool
  /-- One of the callbacks takes it. -/
  taken : Bool
  elems : Option Elems
  /-- By `hostapd_ubus_handle_event`. -/
  rejected : Bool
  /-- `hostapd_gen_probe_resp` makes a response. -/
  responds : Bool

def broadcast (bssid : Mac) : Bool := bssid = Vector.replicate 6 0xff

def isLocalMac (x : Mac) : Bool := DenseStationHash.firstByte x &&& 0x02 = 0x02

inductive SsidMatchResult where
  | noSsidMatch | exactSsidMatch | wildcardSsidMatch
  deriving DecidableEq

def ssidListMatch (own : Text) (wildcard : Bool) : Text → SsidMatchResult
  | _ :: len :: rest =>
      if rest.length < len.toNat then (if wildcard then .wildcardSsidMatch else .noSsidMatch)
      else if rest.take len.toNat = own then .exactSsidMatch
      else ssidListMatch own (wildcard || len.toNat = 0) (rest.drop len.toNat)
  | _ => if wildcard then .wildcardSsidMatch else .noSsidMatch
  termination_by list => list.length
  decreasing_by
    rw [List.length_drop, List.length_cons, List.length_cons]
    omega

def ssidMatch (hapd : Hapd) (ssid : Text) (ssidList : Option Text) : SsidMatchResult :=
  if ssid = hapd.ssid then .exactSsidMatch
  else match ssidList with
    | none => if ssid = [] then .wildcardSsidMatch else .noSsidMatch
    | some list => ssidListMatch hapd.ssid (ssid = []) list

def adjacent (hapd : Hapd) (elems : Elems) : Bool := match elems.dsParams with
  | some [channel] => hapd.mode2G && channel.toNat ≠ hapd.channel
  | _ => false

/-- The part behind the table; `drop` is `PROBE_DROP`, `status` what `fnii_check_socket_status` says
there. -/
def respond (hapd : Hapd) (req : ProbeReq) (status : SocketStatus) (drop : Bool) : Bool :=
  if req.short then false
  else if req.taken then false
  else if !hapd.sendProbeResponse then false
  else match req.elems with
    | none => false
    | some elems => match elems.ssid with
      | none => false
      | some ssid =>
          if !elems.suppRates then false
          else if drop && status ≠ .enable then false
          else if drop && ssid ≠ hapd.ssid then false
          else if adjacent hapd elems then false
          else if ssidMatch hapd ssid elems.ssidList = .noSsidMatch then false
          else if req.rejected then false
          else req.responds

def STAION_MAX : Int := 32

/-- `handle_probe_req`: whether a response is sent. The socket status is read twice. -/
def handleProbeReq (fuel : Nat) (memory : Memory) (hapd : Hapd) (req : ProbeReq)
    (first second : SocketStatus) :
    Option Bool := do
  let full : Bool := memory.stationUsed.toInt ≥ STAION_MAX
  let drop ←
    if broadcast req.bssid && (!isLocalMac req.sa || full) then do
      let found ← DenseStationHash.fniiDenseStationFind fuel memory first
          (some ⟨hapd.ownAddr, req.sa⟩)
      pure (decide (found.2 = .err))
    else pure false
  if drop && full then return false
  else return respond hapd req second drop

inductive Event where
  /-- A frame of the controller; `garbage` and `block` are what the stack holds and what `os_malloc`
  gives. -/
  | command (command : Command) (iface : List Bss) (body : Nat → Char) (len : Int) (garbage : Mac)
      (block : Ptr)
  /-- `mlme_associate_indication` and `mlme_reassociate_indication`. -/
  | associated (ownAddr sta : Mac) (block : Ptr)
  /-- `fnii_reset_dense_station_hash`, on a new connection. -/
  | reconnected
  /-- `fnii_roam_init`. -/
  | started

def commandCall (block : Ptr) (cmdInfo : CmdMsg) : Command → Option Call
  | .addVap => some (.add block (some cmdInfo))
  | .delVap => some (.del (some cmdInfo))
  | .offlineVap => none

def callOf : Event → Option Call
  | .command command iface body len garbage block => match readBody body (minLen command) len with
    | .refused | .hangs => none
    | .done p => (addressed iface (initial garbage command) p).bind fun cmdInfo =>
        commandCall block cmdInfo command
  | .associated ownAddr sta block => some (.add block (some ⟨ownAddr, sta⟩))
  | .reconnected => some (.reset true)
  | .started => some .init

/-- The table that a sequence of events leads to, from the zeroed globals. Allocations succeed. -/
def Run (memory : Memory) (events : List Event) : Prop :=
  ∃ history, DenseStationHash.Run memory history ∧ history.map Prod.fst = events.filterMap callOf

/-! What the table holds. -/

def Adds (addr : CmdMsg) (event : Event) : Prop :=
  ∃ block, callOf event = some (.add block (some addr))

def Removes (addr : CmdMsg) (event : Event) : Prop :=
  callOf event = some (.del (some addr)) ∨ callOf event = some (.reset true) ∨
    callOf event = some .init

/-- The last event that concerned the pair added it. -/
def Bound (addr : CmdMsg) (events : List Event) : Prop :=
  ∃ before event after, events = before ++ event :: after ∧ Adds addr event ∧
    ∀ later ∈ after, ¬ Removes addr later

theorem entryOf_inj {addr other : CmdMsg} (same : entryOf addr = entryOf other) : addr = other := by
  cases addr
  cases other
  simp only [entryOf, Entry.mk.injEq] at same
  rw [same.1, same.2]

theorem mem_onSet (entries : Finset Entry) (call : Call) (addr : CmdMsg) :
    entryOf addr ∈ (onSet entries call).1 ↔
    (∃ block, call = .add block (some addr)) ∨
      entryOf addr ∈ entries ∧ ¬ (call = .del (some addr) ∨ call = .reset true ∨ call = .init) := by
  -- what one call makes of the membership of a pair
  cases call with
  | init => simp [onSet]
  | reset iface => cases iface <;> simp [onSet]
  | find status other => cases other <;> simp [onSet]
  | add block other =>
      cases other with
      | none => simp [onSet]
      | some other =>
          by_cases same : other = addr
          · subst same
            by_cases present : entryOf other ∈ entries <;> simp [onSet, present]
          · have apart : entryOf addr ≠ entryOf other := fun equal => same (entryOf_inj equal).symm
            by_cases present : entryOf other ∈ entries <;> simp [onSet, present, same, apart]
  | del other =>
      cases other with
      | none => simp [onSet]
      | some other =>
          by_cases same : other = addr
          · subst same
            by_cases present : entryOf other ∈ entries <;> simp [onSet, present]
          · have apart : entryOf addr ≠ entryOf other := fun equal => same (entryOf_inj equal).symm
            by_cases present : entryOf other ∈ entries <;> simp [onSet, present, same, apart]

theorem bound_snoc (addr : CmdMsg) (events : List Event) (event : Event) :
    Bound addr (events ++ [event]) ↔ Adds addr event ∨ Bound addr events ∧
      ¬ Removes addr event := by
  constructor
  · rintro ⟨before, first, after, shape, adds, kept⟩
    -- the event that added the pair is the new one, or one of the old
    rcases List.eq_nil_or_concat after with rfl | ⟨front, last, rfl⟩
    · obtain ⟨rfl, same⟩ := List.append_inj' shape rfl
      exact .inl ((List.cons.inj same).1 ▸ adds)
    · have longer : events ++ [event] = (before ++ first :: front) ++ [last] := by simpa using shape
      obtain ⟨rfl, same⟩ := List.append_inj' longer rfl
      obtain rfl := (List.cons.inj same).1
      refine .inr ⟨⟨before, first, front, rfl,
        adds, fun later inside => kept later (by simp [inside])⟩, ?_⟩
      exact kept event (by simp)
  · rintro (adds | ⟨⟨before, first, after, rfl, adds, kept⟩, stays⟩)
    · exact ⟨events, event, [], rfl, adds, by simp⟩
    · refine ⟨before, first, after ++ [event], by simp, adds, ?_⟩
      intro later inside
      rcases List.mem_append.mp inside with old | new
      · exact kept later old
      · exact List.mem_singleton.mp new ▸ stays

theorem mem_setAfter (events : List Event) (addr : CmdMsg) :
    entryOf addr ∈ setAfter (events.filterMap callOf) ↔ Bound addr events := by
  induction events using List.reverseRecOn with
  | nil => simp [setAfter, Bound]
  | append_singleton events event ih =>
      rw [bound_snoc, ← ih, Adds, Removes]
      cases made : callOf event with
      | none => simp [made]
      | some call =>
          have after : setAfter ((events ++ [event]).filterMap callOf) =
              (onSet (setAfter (events.filterMap callOf)) call).1 := by
            simp [List.filterMap_append, made, setAfter]
          rw [after, mem_onSet]
          simp only [Option.some.injEq]

/-! Which requests are answered. -/

/-- What hostapd answers where the table has no say. -/
def Suits (hapd : Hapd) (req : ProbeReq) : Prop := respond hapd req .enable false = true

def Names (hapd : Hapd) (req : ProbeReq) : Prop :=
  ∃ elems, req.elems = some elems ∧ elems.ssid = some hapd.ssid

theorem respond_kept (hapd : Hapd) (req : ProbeReq) (status : SocketStatus) :
    respond hapd req status false = true ↔ Suits hapd req := by
  simp [respond, Suits]

theorem respond_dropped (hapd : Hapd) (req : ProbeReq) (status : SocketStatus) :
    respond hapd req status true = true ↔ Suits hapd req ∧ status = .enable ∧ Names hapd req := by
  unfold Suits respond Names
  cases req.elems with
  | none => simp
  | some elems =>
      cases asked : elems.ssid with
      | none => simp [asked]
      | some ssid =>
          -- another name falls at the comparison, whatever the status is
          by_cases named : ssid = hapd.ssid
          · cases status <;> simp [asked, named]
          · simp [asked, named]

theorem find_returns {memory : Memory} {buckets : DenseStationHash.Buckets} {entries : Finset Entry}
    (represents : DenseStationHash.Represents memory buckets entries) (addr : CmdMsg)
    (status : SocketStatus) :
    ∃ fuel, DenseStationHash.fniiDenseStationFind fuel memory status (some addr) =
      some (memory, if status = .enable ∧ entryOf addr ∈ entries then .ok else .err) := by
  obtain ⟨fuel, look⟩ := DenseStationHash.lookFor_represents memory buckets entries represents addr
  refine ⟨fuel, ?_⟩
  unfold DenseStationHash.fniiDenseStationFind
  cases status with
  | disable => simp
  | enable => simp [look]

/-- A request that goes to everyone is let through for a station of the table while the controller
is connected; with room in the table also for a local address, and for a name while the controller
is connected. -/
def Admitted (entries : Finset Entry) (hapd : Hapd) (req : ProbeReq) (first second : SocketStatus) :
    Prop :=
  broadcast req.bssid = false ∨
    first = .enable ∧ entryOf ⟨hapd.ownAddr, req.sa⟩ ∈ entries ∨
    entries.card < 32 ∧ (isLocalMac req.sa = true ∨ second = .enable ∧ Names hapd req)

theorem full_eq (used : Nat) : decide ((used : Int) ≥ STAION_MAX) = !decide (used < 32) := by
  unfold STAION_MAX
  by_cases room : used < 32
  · have below : ¬ (used : Int) ≥ 32 := by omega
    simp [room, below]
  · have reached : (used : Int) ≥ 32 := by omega
    simp [room, reached]

theorem handleProbeReq_table {memory : Memory} {buckets : DenseStationHash.Buckets}
    {entries : Finset Entry} (represents : DenseStationHash.Represents memory buckets entries)
    (hapd : Hapd) (req : ProbeReq) (first second : SocketStatus) :
    ∃ fuel answered, handleProbeReq fuel memory hapd req first second = some answered ∧
      (answered = true ↔ Suits hapd req ∧ Admitted entries hapd req first second) := by
  obtain ⟨fuel, found⟩ := find_returns represents ⟨hapd.ownAddr, req.sa⟩ first
  refine ⟨fuel, ?_⟩
  unfold handleProbeReq Admitted
  rw [represents.stationUsed_eq, found, full_eq]
  cases everyone : broadcast req.bssid with
  | false => exact ⟨_, rfl, by simp [respond_kept]⟩
  | true =>
      by_cases known : first = .enable ∧ entryOf ⟨hapd.ownAddr, req.sa⟩ ∈ entries
      · -- the pair is found, if it is looked for
        refine ⟨respond hapd req second false, ?_, by simp [respond_kept, known]⟩
        rw [if_pos known]
        dsimp only
        split
        · rfl
        · rfl
      · rw [if_neg known]
        -- the pair is not found: a full table ends here, and with room a local address is not
        -- looked for
        by_cases room : entries.card < 32
        · cases private' : isLocalMac req.sa with
          | true =>
              exact ⟨respond hapd req second false, by simp [room], by simp [respond_kept, room]⟩
          | false =>
              refine ⟨respond hapd req second true, by simp [room], ?_⟩
              rw [respond_dropped]
              simp [room, known]
        · exact ⟨false, by simp [room], by simp [room, known]⟩

theorem run_table {memory : Memory} {events : List Event} (run : Run memory events) :
    ∃ buckets, DenseStationHash.Represents memory buckets (setAfter (events.filterMap callOf)) := by
  obtain ⟨history, called, calls⟩ := run
  exact calls ▸ (DenseStationHash.run_represents memory history called).2

/-- After any events `handle_probe_req` comes back, and answers of the requests that suit it exactly
those that are admitted: by the pairs whose last event added them. -/
theorem probes_answered (memory : Memory) (events : List Event) (run : Run memory events) :
    ∃ entries : Finset Entry, (∀ addr, entryOf addr ∈ entries ↔ Bound addr events) ∧
      ∀ hapd req first second, ∃ fuel answered, handleProbeReq fuel memory hapd req first second =
        some answered ∧
        (answered = true ↔ Suits hapd req ∧ Admitted entries hapd req first second) := by
  obtain ⟨buckets, represents⟩ := run_table run
  exact ⟨_, mem_setAfter events, handleProbeReq_table represents⟩

/-- A station that has associated with the network `office`. -/
def client : Mac := #v[0x9c, 0x35, 0xeb, 0x86, 0xdb, 0xe0]

def officeBss : Bss := twoBss.getLast (by decide)

theorem client_run : ∃ memory, Run memory [.associated officeBss.ownAddr client 64] := by
  have room : DenseStationHash.Fresh Memory.initial.heap 64 :=
    ⟨by decide, by decide, fun p live => absurd rfl live⟩
  have added := DenseStationHash.Run.call .start (.add 64 (some ⟨officeBss.ownAddr, client⟩)) room
      ⟨1, rfl⟩
  exact ⟨_, _, added, rfl⟩

theorem probes_answered_client : ∃ memory, Run memory [.associated officeBss.ownAddr client 64] ∧
    ∃ entries : Finset Entry,
      (∀ addr, entryOf addr ∈ entries ↔ Bound addr [.associated officeBss.ownAddr client 64]) ∧
      ∀ hapd req first second, ∃ fuel answered, handleProbeReq fuel memory hapd req first second =
        some answered ∧
        (answered = true ↔ Suits hapd req ∧ Admitted entries hapd req first second) := by
  obtain ⟨memory, run⟩ := client_run
  exact ⟨memory, run, probes_answered memory _ run⟩

/-! The events in the words of the controller. -/

section Networks
variable (iface : List Bss)

/-- The frame of a command for a station and a network. -/
def Orders (bss : Bss) (sta : Mac) (command : Command) (event : Event) : Prop :=
  ∃ body data garbage block, event = .command command iface body data.body.length garbage block ∧
    Holds body data ∧
    data.ssid = bss.ssid ∧ macBytes data.staMacAddr = sta

/-- The network is given to the station, by the controller or by an association. -/
def Given (bss : Bss) (sta : Mac) (event : Event) : Prop :=
  Orders iface bss sta .addVap event ∨ ∃ block, event = .associated bss.ownAddr sta block

def Withdrawn (bss : Bss) (sta : Mac) (event : Event) : Prop :=
  Orders iface bss sta .delVap event ∨ event = .reconnected ∨ event = .started

/-- Every frame is a command for a network of the access point, and its SSID is not taken for
another one. -/
def Proper : Event → Prop
  | .command command networks body len garbage _ => networks = iface ∧ ∃ data, Holds body data ∧
      len = data.body.length ∧ (∃ bss ∈ iface, bss.ssid = data.ssid) ∧
        Unmistakable iface garbage command data.ssid
  | _ => True

variable {iface}

theorem held_named {garbage : Mac} {command : Command} {ssid : Text}
    (plain : Unmistakable iface garbage command ssid) {bss : Bss} (member : bss ∈ iface)
    (named : bss.ssid = ssid) (before : Mac) :
    held iface before ssid = bss.ownAddr ∧ ¬ Blank bss.ownAddr := by
  obtain ⟨front, rest, shape⟩ := List.append_of_mem member
  obtain ⟨behind, visible⟩ := plain.named front bss rest shape named
  refine ⟨?_, visible⟩
  have first : front.find? (fun other => decide (Starts ssid other)) = none :=
    List.find?_eq_none.mpr fun other inside => by simpa using behind other inside
  have here : (bss :: rest).find? (fun other => decide (Starts ssid other)) = some bss :=
    List.find?_cons_of_pos (by simpa using named ▸ starts_self bss)
  rw [held, shape, List.find?_append, first, Option.none_or, here]
  rfl

theorem command_call {command : Command} {body : Nat → Char} {garbage : Mac} (data : CommandData)
    (holds : Holds body data) (plain : Unmistakable iface garbage command data.ssid) {bss : Bss}
    (member : bss ∈ iface)
    (named : bss.ssid = data.ssid) (block : Ptr) :
    callOf (.command command iface body data.body.length garbage block) =
      commandCall block ⟨bss.ownAddr, macBytes data.staMacAddr⟩ command := by
  obtain ⟨address, visible⟩ := held_named plain member named (initial garbage command)
  simp only [callOf, readBody_holds body data holds command, addressed_held, address,
    if_neg visible, Option.bind_some]

variable (distinct : iface.Pairwise fun a b => a.ssid ≠ b.ssid ∧ a.ownAddr ≠ b.ownAddr)
include distinct

theorem same_bss {bss other : Bss} (member : bss ∈ iface) (inside : other ∈ iface)
    (same : bss.ssid = other.ssid ∨ bss.ownAddr = other.ownAddr) : bss = other := by
  by_contra apart
  have : Std.Symm fun a b : Bss => a.ssid ≠ b.ssid ∧ a.ownAddr ≠ b.ownAddr :=
    ⟨fun _ _ both => ⟨both.1.symm, both.2.symm⟩⟩
  have differ := distinct.forall member inside apart
  exact same.elim differ.1 differ.2

theorem orders_iff {bss : Bss} (member : bss ∈ iface) (sta : Mac) (event : Event)
    (proper : Proper iface event) (command : Command) (makes : command ≠ .offlineVap) :
    Orders iface bss sta command event ↔
      ∃ body len garbage block, event = .command command iface body len garbage block ∧
        callOf event = commandCall block ⟨bss.ownAddr, sta⟩ command := by
  -- a command for a network and a station makes the call for that pair, and no other command makes
  -- it
  constructor
  · rintro ⟨body, data, garbage, block, rfl, holds, named, rfl⟩
    obtain ⟨-, other, holds', length, -, plain⟩ := proper
    -- both texts are what `readBody` takes from the body, so the SSIDs are one
    have texts := (readBody_holds body data holds command).symm.trans
        (length ▸ readBody_holds body other holds' command)
    rw [← (Parsed.mk.inj (Reading.done.inj texts)).2.2] at plain
    exact ⟨body, _, garbage, block, rfl, command_call data holds plain member named.symm block⟩
  · rintro ⟨body, len, garbage, block, rfl, call⟩
    obtain ⟨-, data, holds, rfl, ⟨other, inside, named⟩, plain⟩ := proper
    rw [command_call data holds plain inside named block] at call
    have pair : (⟨other.ownAddr, macBytes data.staMacAddr⟩ : CmdMsg) = ⟨bss.ownAddr, sta⟩ := by
      cases command with
      | addVap =>
          simp only [commandCall, Option.some.injEq, Call.add.injEq] at call
          exact call.2
      | delVap =>
          simp only [commandCall, Option.some.injEq, Call.del.injEq] at call
          exact call
      | offlineVap => exact absurd rfl makes
    -- the address tells the BSS, and with it the SSID
    obtain ⟨address, station⟩ := CmdMsg.mk.inj pair
    obtain rfl := same_bss distinct inside member (.inr address)
    exact ⟨body, data, garbage, block, rfl, holds, named.symm, station⟩

theorem adds_iff {bss : Bss} (member : bss ∈ iface) (sta : Mac) (event : Event)
    (proper : Proper iface event) :
    Adds ⟨bss.ownAddr, sta⟩ event ↔ Given iface bss sta event := by
  rw [Given, orders_iff distinct member sta event proper .addVap (by decide)]
  cases event with
  | started => simp [Adds, callOf]
  | reconnected => simp [Adds, callOf]
  | associated ownAddr other block => simp [Adds, callOf, and_comm]
  | command command networks body len garbage block =>
      constructor
      · rintro ⟨given, call⟩
        obtain ⟨rfl, data, holds, rfl, ⟨other, inside, named⟩, plain⟩ := proper
        have made := command_call data holds plain inside named block
        have adds := made.symm.trans call
        cases command with
        | addVap =>
            simp only [commandCall, Option.some.injEq, Call.add.injEq] at adds
            rw [adds.2] at made
            exact .inl ⟨body, _, garbage, block, rfl, made⟩
        | delVap => simp [commandCall] at adds
        | offlineVap => simp [commandCall] at adds
      · rintro (⟨_, _, _, given, -, call⟩ | ⟨_, wrong⟩)
        · exact ⟨given, call⟩
        · nomatch wrong

theorem removes_iff {bss : Bss} (member : bss ∈ iface) (sta : Mac) (event : Event)
    (proper : Proper iface event) :
    Removes ⟨bss.ownAddr, sta⟩ event ↔ Withdrawn iface bss sta event := by
  rw [Withdrawn, orders_iff distinct member sta event proper .delVap (by decide)]
  cases event with
  | started => simp [Removes, callOf]
  | reconnected => simp [Removes, callOf]
  | associated ownAddr other block => simp [Removes, callOf]
  | command command networks body len garbage block =>
      obtain ⟨rfl, data, holds, rfl, ⟨other, inside, named⟩, plain⟩ := proper
      have made := command_call data holds plain inside named block
      cases command with
      | addVap => simp [Removes, made, commandCall]
      | delVap => simp [Removes, made, commandCall]
      | offlineVap => simp [Removes, made, commandCall]

theorem bound_iff {bss : Bss} (member : bss ∈ iface) (sta : Mac) (events : List Event)
    (proper : ∀ event ∈ events, Proper iface event) :
    Bound ⟨bss.ownAddr, sta⟩ events ↔ ∃ before event after, events = before ++ event :: after ∧
      Given iface bss sta event ∧ ∀ later ∈ after, ¬ Withdrawn iface bss sta later := by
  have each (before : List Event) (event : Event) (after : List Event)
      (shape : events = before ++ event :: after) :
      (Adds ⟨bss.ownAddr, sta⟩ event ∧ ∀ later ∈ after, ¬ Removes ⟨bss.ownAddr, sta⟩ later) ↔
        Given iface bss sta event ∧ ∀ later ∈ after, ¬ Withdrawn iface bss sta later := by
    rw [adds_iff distinct member sta event (proper event (by simp [shape]))]
    refine and_congr_right fun _ => forall₂_congr fun later inside => ?_
    rw [removes_iff distinct member sta later (proper later (by simp [shape, inside]))]
  constructor
  · rintro ⟨before, event, after, shape, added⟩
    exact ⟨before, event, after, shape, (each before event after shape).mp added⟩
  · rintro ⟨before, event, after, shape, given⟩
    exact ⟨before, event, after, shape, (each before event after shape).mpr given⟩

end Networks

/-- A station with a global address asks everyone for any network. -/
structure Scans (hapd : Hapd) (req : ProbeReq) : Prop where
  everyone : broadcast req.bssid = true
  global : isLocalMac req.sa = false
  any : ∃ elems, req.elems = some elems ∧ elems.ssid = some []
  named : hapd.ssid ≠ []

/-- A station that scans is answered by exactly the networks that it was given last, by the
controller or by an association, while the controller is connected. -/
theorem scans_answered (iface : List Bss)
    (distinct : iface.Pairwise fun a b => a.ssid ≠ b.ssid ∧ a.ownAddr ≠ b.ownAddr)
    (memory : Memory) (events : List Event) (run : Run memory events)
    (proper : ∀ event ∈ events, Proper iface event)
    (bss : Bss) (member : bss ∈ iface) (hapd : Hapd) (own : hapd.ownAddr = bss.ownAddr)
    (req : ProbeReq)
    (scans : Scans hapd req) (first second : SocketStatus) :
    ∃ fuel answered, handleProbeReq fuel memory hapd req first second = some answered ∧
      (answered = true ↔ Suits hapd req ∧ first = .enable ∧
        ∃ before event after, events = before ++ event :: after ∧ Given iface bss req.sa event ∧
          ∀ later ∈ after, ¬ Withdrawn iface bss req.sa later) := by
  obtain ⟨buckets, represents⟩ := run_table run
  obtain ⟨fuel, answered, returned, exact'⟩ := handleProbeReq_table represents hapd req first second
  refine ⟨fuel, answered, returned, exact'.trans (and_congr_right fun _ => ?_)⟩
  -- a scan names no network, so of the conditions only that on the table is left
  have unnamed : ¬ Names hapd req := by
    rintro ⟨elems, parsed, name⟩
    obtain ⟨other, parsed', empty⟩ := scans.any
    rw [parsed, Option.some.injEq] at parsed'
    rw [← parsed', name, Option.some.injEq] at empty
    exact scans.named empty
  rw [Admitted, mem_setAfter, own, bound_iff distinct member req.sa events proper]
  simp [scans.everyone, scans.global, unnamed]

def officeHapd : Hapd := ⟨officeBss.ownAddr, officeBss.ssid, true, 6, true⟩

def scanFrom (sa : Mac) : ProbeReq where
  bssid := Vector.replicate 6 0xff
  sa := sa
  short := false
  taken := false
  elems := some { ssid := some [], suppRates := true, ssidList := none, dsParams := none }
  rejected := false
  responds := true

/-- The controller gives the network `office` to a station, and the client associates with it. -/
def commanded : List Event :=
  [.command .addVap twoBss.reverse officeBody officeCommand.body.length cleared 64,
    .associated officeBss.ownAddr client 128]

theorem office_member : officeBss ∈ twoBss.reverse := List.mem_reverse.mpr (List.getLast_mem _)

theorem office_unmistakable : Unmistakable twoBss.reverse cleared .addVap officeCommand.ssid where
  named := by
    intro before bss after shape named
    -- the office is the first BSS, and no other one has its name
    cases before with
    | nil =>
        obtain ⟨rfl, -⟩ := List.cons.inj shape
        exact ⟨fun other inside => absurd inside List.not_mem_nil, by decide⟩
    | cons first rest =>
        obtain ⟨-, others⟩ := List.cons.inj shape
        have member : bss ∈ [twoBss.head (by decide)] := by
          rw [show [twoBss.head (by decide)] = rest ++ bss :: after from others]
          simp
        rw [List.mem_singleton.mp member] at named
        exact absurd named (by decide)
  unnamed := fun unnamed => absurd rfl (unnamed officeBss office_member)

theorem commanded_proper : ∀ event ∈ commanded, Proper twoBss.reverse event := by
  intro event inside
  rcases List.mem_cons.mp inside with rfl | later
  · exact ⟨rfl, officeCommand, officeBody_holds, rfl, ⟨officeBss, office_member, rfl⟩,
      office_unmistakable⟩
  · rw [List.mem_singleton.mp later]
    trivial

theorem commanded_run : ∃ memory, Run memory commanded := by
  have room : DenseStationHash.Fresh Memory.initial.heap 64 :=
    ⟨by decide, by decide, fun p live => absurd rfl live⟩
  have first := DenseStationHash.Run.call .start
      (.add 64 (some ⟨officeBss.ownAddr, macBytes officeCommand.staMacAddr⟩))
    room ⟨1, rfl⟩
  have second := DenseStationHash.Run.call first (.add 128 (some ⟨officeBss.ownAddr, client⟩))
    ⟨by decide, by decide, fun p live => ?_⟩ ⟨1, rfl⟩
  · refine ⟨_, _, second, ?_⟩
    have ordered := command_call officeCommand officeBody_holds office_unmistakable office_member
        rfl 64
    rw [commanded, List.filterMap_cons_some ordered]
    rfl
  · by_cases here : p = 64
    · exact .inl (by rw [here]; decide)
    · exact absurd (Function.update_of_ne here _ _) live

theorem scans_answered_commanded : ∃ memory, Run memory commanded ∧
    ∃ fuel, handleProbeReq fuel memory officeHapd (scanFrom (macBytes officeCommand.staMacAddr))
      .enable .enable =
      some true := by
  obtain ⟨memory, run⟩ := commanded_run
  obtain ⟨fuel, answered, returned, exact'⟩ :=
    scans_answered twoBss.reverse (by decide) memory _ run commanded_proper
    officeBss office_member officeHapd rfl (scanFrom (macBytes officeCommand.staMacAddr))
    ⟨by decide, by decide, ⟨_, rfl, rfl⟩, by decide⟩ .enable .enable
  have given : Given twoBss.reverse officeBss (macBytes officeCommand.staMacAddr)
      (.command .addVap twoBss.reverse officeBody officeCommand.body.length cleared 64) :=
    .inl ⟨officeBody, officeCommand, cleared, 64, rfl, officeBody_holds, rfl, rfl⟩
  have told : answered = true :=
    exact'.mpr ⟨by unfold Suits; decide, rfl, [], _, [_], rfl, given, fun later inside => by
    rw [List.mem_singleton.mp inside]
    simp [Withdrawn, Orders]⟩
  exact ⟨memory, run, fuel, told ▸ returned⟩

end LazyAS.ProbeGate

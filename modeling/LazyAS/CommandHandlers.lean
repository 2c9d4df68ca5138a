import LazyAS.CommandCodec

/-! The command handlers of `fnii_roam.c` as wholes: which bytes behind `msg_buf` they read, and
what they do to the station table and to the stations of a BSS. The bytes behind the body are
readable and hold anything; what the handlers print is left out. -/
namespace LazyAS.CommandHandlers
open WireText CommandCodec
open LinkedChain (Ptr)
open DenseStationHash (Mac CmdMsg Entry Ret entryOf onSet firstByte lastByte)

/-- What goes out to a station at the BSS of an address. -/
inductive Notice where
  | disassoc (bss sta : Mac)
  | onlyDisassoc (bss sta : Mac)
  deriving DecidableEq

/-- The station table as a set, the stations `ap_get_sta` finds at the BSS of an address, the
associated ones, and what was sent. -/
structure Hostapd where
  table : Finset Entry
  known : Mac → Finset Mac
  associated : Mac → Finset Mac
  sent : List Notice

/-! Reading a body. -/

variable (body : Nat → Char)

def segment (start count : Nat) : Text := (List.range count).map fun i => body (start + i)

def ssidLen : Int := atoi (segment body 31 2)

def parsed : Parsed :=
  ⟨fniiGetMac (segment body 2 12), ssidLen body, segment body 33 (ssidLen body).toNat⟩

inductive Reading where
  | refused
  | hangs
  | done (parsed : Parsed)

def readBody (minLen len : Int) : Reading :=
  if len < minLen then .refused
  else if ssidLen body > 31 then .refused
  else if ssidLen body < 0 then .hangs
  else .done (parsed body)

/-- The offsets that are read: the address, the length and as many bytes as it says. -/
def Reads (minLen len : Int) (offset : Nat) : Prop :=
  minLen ≤ len ∧ (2 ≤ offset ∧ offset < 14 ∨ 31 ≤ offset ∧ offset < 33 ∨
    ssidLen body ≤ 31 ∧ 33 ≤ offset ∧ (ssidLen body < 0 ∨ (offset : Int) < 33 + ssidLen body))

/-! The handlers. -/

def onTable (h : Hostapd) (call : DenseStationHash.Call) : Hostapd × Ret :=
  ({ h with table := (onSet h.table call).1 }, (onSet h.table call).2)

/-- `fnii_dense_station_add` on the table, which writes to `block` without a test. -/
def addOnTable (block : Ptr) (h : Hostapd) (addr : CmdMsg) : Option (Hostapd × Ret) :=
  if entryOf addr ∉ h.table ∧ block = 0 then none else some (onTable h (.add block (some addr)))

def delStationOfVap (h : Hostapd) (bss : Option Bss) (addr : Mac) : Hostapd :=
  match bss with
  | none => h
  | some bss =>
      if addr ∈ h.known bss.ownAddr then { h with
        associated := Function.update h.associated bss.ownAddr
          ((h.associated bss.ownAddr).erase addr)
        sent := h.sent ++ [.disassoc bss.ownAddr addr] }
      else h

def delOffline (h : Hostapd) (bss : Option Bss) (addr : Mac) : Hostapd :=
  match bss with
  | none => h
  | some bss =>
      if addr ∈ h.known bss.ownAddr then
        { h with sent := h.sent ++ [.onlyDisassoc bss.ownAddr addr] } else h

variable (iface : List Bss) (len : Int) (h : Hostapd)

/-- The variable `bss` behind the search: without a match, the last BSS. -/
def scanned (p : Parsed) : Option Bss := (findBss iface p).or iface.getLast?

/-- The handler does not clear the address it goes by; `block` is what `os_malloc` gives. -/
def fniiHandleAddVap (garbage : Mac) (block : Ptr) : Option (Hostapd × Ret) :=
  match readBody body 31 len with
  | .refused => some (h, .err)
  | .hangs => none
  | .done p => match addressed iface garbage p with
    | none => some (h, .err)
    | some cmdInfo => addOnTable block h cmdInfo

def cleared : Mac := Vector.replicate 6 0

def fniiHandleDelVap : Option (Hostapd × Ret) :=
  match readBody body 28 len with
  | .refused => some (h, .err)
  | .hangs => none
  | .done p => match addressed iface cleared p with
    | none => some (h, .err)
    | some cmdInfo =>
        let deleted := onTable h (.del (some cmdInfo))
        some (delStationOfVap deleted.1 (scanned iface p) cmdInfo.stamac, deleted.2)

def fniiHandleOfflineVap : Option (Hostapd × Ret) :=
  match readBody body 28 len with
  | .refused => some (h, .err)
  | .hangs => none
  | .done p => match addressed iface cleared p with
    | none => some (h, .err)
    | some cmdInfo => some (delOffline h (scanned iface p) cmdInfo.stamac, .ok)

/-! The three handlers as one. -/

inductive Command where
  | addVap | delVap | offlineVap
  deriving DecidableEq

def run (garbage : Mac) (block : Ptr) : Command → Option (Hostapd × Ret)
  | .addVap => fniiHandleAddVap body iface len h garbage block
  | .delVap => fniiHandleDelVap body iface len h
  | .offlineVap => fniiHandleOfflineVap body iface len h

/-- `FNII_ADD_VAP_MIN_LEN` and `FNII_DEL_VAP_MIN_LEN`. -/
def minLen : Command → Int
  | .addVap => 31
  | .delVap | .offlineVap => 28

def initial (garbage : Mac) : Command → Mac
  | .addVap => garbage
  | .delVap | .offlineVap => cleared

def act (block : Ptr) (bss : Option Bss) (cmdInfo : CmdMsg) : Command → Option (Hostapd × Ret)
  | .addVap => addOnTable block h cmdInfo
  | .delVap =>
      let deleted := onTable h (.del (some cmdInfo))
      some (delStationOfVap deleted.1 bss cmdInfo.stamac, deleted.2)
  | .offlineVap => some (delOffline h bss cmdInfo.stamac, .ok)

theorem run_eq (garbage : Mac) (block : Ptr) (command : Command) :
    run body iface len h garbage block command =
      match readBody body (minLen command) len with
      | .refused => some (h, .err)
      | .hangs => none
      | .done p => match addressed iface (initial garbage command) p with
        | none => some (h, .err)
        | some cmdInfo => act h block (scanned iface p) cmdInfo command := by
  cases command <;> rfl

/-! The bytes a handler goes by. -/

theorem segment_congr (other : Nat → Char) (start count : Nat)
    (same : ∀ offset, start ≤ offset → offset < start + count → other offset = body offset) :
    segment other start count = segment body start count := by
  apply List.map_congr_left
  intro i inside
  rw [List.mem_range] at inside
  exact same (start + i) (by omega) (by omega)

theorem readBody_congr (other : Nat → Char) (minLen : Int)
    (same : ∀ offset, Reads body minLen len offset → other offset = body offset) :
    readBody other minLen len = readBody body minLen len := by
  unfold readBody
  by_cases short : len < minLen
  · rw [if_pos short, if_pos short]
  · have counted : ssidLen other = ssidLen body :=
      congrArg atoi (segment_congr body other 31 2 fun offset low high =>
      same offset ⟨by omega, .inr (.inl ⟨low, by omega⟩)⟩)
    rw [if_neg short, if_neg short, counted]
    by_cases long : ssidLen body > 31
    · rw [if_pos long, if_pos long]
    · rw [if_neg long, if_neg long]
      by_cases negative : ssidLen body < 0
      · rw [if_pos negative, if_pos negative]
      · have address : segment other 2 12 = segment body 2 12 :=
          segment_congr body other 2 12 fun offset low high =>
          same offset ⟨by omega, .inl ⟨low, by omega⟩⟩
        have name : segment other 33 (ssidLen body).toNat = segment body 33 (ssidLen body).toNat :=
          segment_congr body other 33 _ fun offset low high =>
            same offset ⟨by omega, .inr (.inr ⟨by omega, low, .inr (by omega)⟩)⟩
        rw [if_neg negative, if_neg negative, parsed, parsed, counted, address, name]

theorem slice_segment (start count first size : Nat) (inside : first + size ≤ count) :
    ((segment body start count).drop first).take size = segment body (start + first) size := by
  apply List.ext_getElem
  · simp only [segment, List.length_take, List.length_drop, List.length_map, List.length_range]
    omega
  · intro i left right
    simp only [segment, List.getElem_take, List.getElem_drop, List.getElem_map, List.getElem_range]
    congr 1
    omega

theorem readBody_readCommand (minLen : Int) (p : Parsed) :
    readBody body minLen len = .done p ↔ readCommand minLen (segment body 0 64) len = some p := by
  -- the reading of a text that goes on behind the body
  have counted : atoi (((segment body 0 64).drop 31).take 2) = ssidLen body := by
    rw [slice_segment body 0 64 31 2 (by decide)]
    rfl
  have address : fniiGetMac ((segment body 0 64).drop 2) = fniiGetMac (segment body 2 12) := by
    unfold fniiGetMac
    congr 1
    funext i
    rw [List.drop_drop, slice_segment body 0 64 _ 2
      (by omega), slice_segment body 2 12 _ 2 (by omega)]
    congr 3
    omega
  unfold readBody readCommand
  rw [counted, address]
  by_cases short : len < minLen
  · simp [short]
  · rw [if_neg short, if_neg short]
    by_cases long : ssidLen body > 31
    · simp [long]
    · simp only [if_neg long]
      by_cases negative : ssidLen body < 0
      · simp [negative]
      · rw [if_neg negative, if_neg negative, slice_segment body 0 64 33 _ (by omega)]
        simp [parsed]

def twoBss : List Bss :=
  [⟨"office-guest".toList, #v[0x02, 0, 0, 0, 0, 0x01]⟩,
    ⟨"office".toList, #v[0x06, 0, 0, 0, 0, 0x01]⟩]

/-- The name in its zeroed field begins with the bytes of the SSID. -/
def Starts (ssid : Text) (bss : Bss) : Prop := bss.ssid.takeD ssid.length nul = ssid

instance (ssid : Text) (bss : Bss) : Decidable (Starts ssid bss) :=
  inferInstanceAs (Decidable (_ = _))

def Blank (addr : Mac) : Prop := firstByte addr = 0 ∧ lastByte addr = 0

instance (addr : Mac) : Decidable (Blank addr) := inferInstanceAs (Decidable (_ ∧ _))

def held (before : Mac) (ssid : Text) : Mac :=
  ((iface.find? fun bss => decide (Starts ssid bss)).map Bss.ownAddr).getD before

/-- The handler acts on the BSS with the SSID of the command, and on nothing if there is none. -/
structure Selects (garbage : Mac) (command : Command) (sta : Mac) (ssid : Text) : Prop where
  named : ∀ h block bss, bss ∈ iface → bss.ssid = ssid →
    run body iface len h garbage block command = act h block (some bss) ⟨bss.ownAddr, sta⟩ command
  unnamed : (∀ bss ∈ iface, bss.ssid ≠ ssid) → ∀ h block,
    run body iface len h garbage block command = some (h, .err)

/-- The BSS of the SSID is the first one whose name begins with it and its address is not blank;
without such a BSS the address behind the search is blank. -/
structure Unmistakable (garbage : Mac) (command : Command) (ssid : Text) : Prop where
  named : ∀ before bss after, iface = before ++ bss :: after → bss.ssid = ssid →
    (∀ other ∈ before, ¬ Starts ssid other) ∧ ¬ Blank bss.ownAddr
  unnamed : (∀ bss ∈ iface, bss.ssid ≠ ssid) → Blank (held iface (initial garbage command) ssid)

def Holds (data : CommandData) : Prop := ∀ i (inside : i < data.body.length), body i = data.body[i]

theorem readBody_holds (data : CommandData) (holds : Holds body data) (command : Command) :
    readBody body (minLen command) data.body.length =
      .done ⟨macBytes data.staMacAddr, data.ssid.length, data.ssid⟩ := by
  have size := body_length data
  have room := data.ssidSize
  have front : segment body 0 data.body.length = data.body := by
    apply List.ext_getElem
    · simp [segment]
    · intro i left right
      simp only [segment, List.getElem_map, List.getElem_range, Nat.zero_add]
      exact holds i right
  have shape : segment body 0 64 = data.body ++
      segment body data.body.length (64 - data.body.length) := by
    have first := slice_segment body 0 64 0 data.body.length (by omega)
    have rest := slice_segment body 0 64 data.body.length (64 - data.body.length) (by omega)
    rw [List.drop_zero, Nat.zero_add, front] at first
    rw [Nat.zero_add, List.take_of_length_le (by simp [segment])] at rest
    rw [← rest]
    exact (List.take_append_drop data.body.length _).symm.trans (by rw [first])
  rw [readBody_readCommand, shape]
  exact readCommand_body data _ (minLen command) (by cases command <;> decide)

theorem addressed_held (before : Mac) (sta : Mac) (ssid : Text) :
    addressed iface before ⟨sta, ssid.length, ssid⟩ =
      if Blank (held iface before ssid) then none else some ⟨held iface before ssid, sta⟩ := rfl

def bare (table : Finset Entry) : Hostapd := ⟨table, fun _ => ∅, fun _ => ∅, []⟩

theorem act_separates (first second : Bss) (sta : Mac) (command : Command)
    (same : ∀ h, act h 64 (some first) ⟨first.ownAddr, sta⟩ command =
      act h 64 (some second) ⟨second.ownAddr, sta⟩ command) : first.ownAddr = second.ownAddr := by
  -- two BSS that a handler never tells apart have one address
  cases command with
  | addVap =>
      have tables := congrArg (Option.map fun result => result.1.table) (same (bare ∅))
      have entry : entryOf ⟨first.ownAddr, sta⟩ ∈
          ({entryOf ⟨second.ownAddr, sta⟩} : Finset Entry) := by
        have inserted : ({entryOf ⟨first.ownAddr, sta⟩} : Finset Entry) =
            {entryOf ⟨second.ownAddr, sta⟩} := by
          simpa [act, addOnTable, onTable, onSet, bare] using tables
        rw [← inserted]
        exact Finset.mem_singleton_self _
      exact (Entry.mk.inj (Finset.mem_singleton.mp entry)).2
  | delVap =>
      have answers := congrArg (Option.map Prod.snd) (same (bare {entryOf ⟨first.ownAddr, sta⟩}))
      by_contra different
      have absent : entryOf ⟨second.ownAddr, sta⟩ ∉
          ({entryOf ⟨first.ownAddr, sta⟩} : Finset Entry) := by
        intro member
        exact different (Entry.mk.inj (Finset.mem_singleton.mp member)).2.symm
      simp [act, onTable, onSet, bare, absent] at answers
  | offlineVap =>
      have notices := congrArg (Option.map fun result => result.1.sent)
          (same ⟨∅, fun _ => {sta}, fun _ => ∅, []⟩)
      have notice : Notice.onlyDisassoc first.ownAddr sta = .onlyDisassoc second.ownAddr sta := by
        simpa [act, delOffline] using notices
      exact (Notice.onlyDisassoc.inj notice).1

theorem act_succeeds (bss : Option Bss) (cmdInfo : CmdMsg) (command : Command) :
    ∃ h after, act h 64 bss cmdInfo command = some (after, .ok) := by
  cases command with
  | addVap => exact ⟨bare ∅, _, rfl⟩
  | delVap => exact ⟨bare {entryOf cmdInfo}, _, by simp [act, onTable, onSet, bare]; rfl⟩
  | offlineVap => exact ⟨bare ∅, _, rfl⟩

theorem run_command (data : CommandData) (holds : Holds body data) (garbage : Mac) (block : Ptr)
    (command : Command) :
    run body iface data.body.length h garbage block command =
      if Blank (held iface (initial garbage command) data.ssid) then some (h, .err)
      else act h block ((iface.find? fun bss => decide (Starts data.ssid bss)).or iface.getLast?)
        ⟨held iface (initial garbage command) data.ssid, macBytes data.staMacAddr⟩ command := by
  rw [run_eq, readBody_holds body data holds command]
  dsimp only
  rw [addressed_held]
  by_cases blank : Blank (held iface (initial garbage command) data.ssid)
  · rw [if_pos blank, if_pos blank]
  · rw [if_neg blank, if_neg blank]
    rfl

theorem starts_self (bss : Bss) : Starts bss.ssid bss := by
  unfold Starts
  rw [List.takeD_eq_take _ le_rfl, List.take_length]

/-- For BSS with names and addresses of their own, the SSID of a command selects its BSS exactly
when no other one can be mistaken for it. -/
theorem ssid_selects_iff (distinct : iface.Pairwise fun a b => a.ssid ≠ b.ssid ∧
      a.ownAddr ≠ b.ownAddr)
    (garbage : Mac) (command : Command) (data : CommandData) (holds : Holds body data) :
    Selects body iface data.body.length garbage command (macBytes data.staMacAddr) data.ssid ↔
      Unmistakable iface garbage command data.ssid := by
  have runs := fun h block => run_command body iface h data holds garbage block command
  constructor
  · intro selects
    constructor
    · intro before bss after shape named
      have member : bss ∈ iface := by simp [shape]
      have acts := fun h => selects.named h 64 bss member named
      cases found : iface.find? fun bss => decide (Starts data.ssid bss) with
      | none =>
          have never := List.find?_eq_none.mp found bss member
          exact absurd (named ▸ starts_self bss) (by simpa using never)
      | some first =>
          have address : held iface (initial garbage command) data.ssid = first.ownAddr := by
            rw [held, found]
            rfl
          simp only [address, found, Option.some_or] at runs
          have visible : ¬ Blank first.ownAddr := by
            intro blank
            obtain ⟨h, after, succeeds⟩ :=
              act_succeeds (some bss) ⟨bss.ownAddr, macBytes data.staMacAddr⟩ command
            have failed := (runs h 64).symm.trans (acts h)
            rw [if_pos blank, succeeds] at failed
            exact absurd failed (by simp)
          have same := act_separates first bss (macBytes data.staMacAddr) command fun h => by
            have one := (runs h 64).symm.trans (acts h)
            rwa [if_neg visible] at one
          refine ⟨?_, same ▸ visible⟩
          intro other inFront starts
          -- a match in front of the BSS is the first match or lies behind it
          have early : first ∈ before := by
            rw [shape, List.find?_append] at found
            cases front : before.find? fun bss => decide (Starts data.ssid bss) with
            | none => exact absurd starts (by simpa using List.find?_eq_none.mp front other inFront)
            | some head =>
                rw [front, Option.some_or] at found
                exact Option.some.inj found ▸ List.mem_of_find?_eq_some front
          rw [shape] at distinct
          exact ((List.pairwise_append.mp distinct).2.2 first early bss List.mem_cons_self).2 same
    · intro unnamed
      by_contra visible
      obtain ⟨h, after, succeeds⟩ := act_succeeds
        ((iface.find? fun bss => decide (Starts data.ssid bss)).or iface.getLast?)
        ⟨held iface (initial garbage command) data.ssid, macBytes data.staMacAddr⟩ command
      have failed := (runs h 64).symm.trans (selects.unnamed unnamed h 64)
      rw [if_neg visible, succeeds] at failed
      exact absurd failed (by simp)
  · intro plain
    constructor
    · intro h block bss member named
      obtain ⟨before, after, shape⟩ := List.append_of_mem member
      obtain ⟨behind, visible⟩ := plain.named before bss after shape named
      have found : iface.find? (fun bss => decide (Starts data.ssid bss)) = some bss := by
        have front : before.find? (fun bss => decide (Starts data.ssid bss)) = none :=
          List.find?_eq_none.mpr fun other inFront => by simpa using behind other inFront
        rw [shape, List.find?_append, front, Option.none_or]
        exact List.find?_cons_of_pos (by simpa using named ▸ starts_self bss)
      have address : held iface (initial garbage command) data.ssid = bss.ownAddr := by
        rw [held, found]
        rfl
      rw [runs, address, found, if_neg visible, Option.some_or]
    · intro unnamed h block
      rw [runs, if_pos (plain.unnamed unnamed)]

theorem first_id_digits : "0001".toList.length = 4 ∧ ∀ c ∈ "0001".toList, c.isDigit :=
  ⟨rfl, each_char (by decide)⟩

def officeCommand : CommandData where
  msgId := "0001".toList
  staMacAddr := "001122334455".toList
  mode := "010".toList
  ssid := "office".toList
  idDigits := first_id_digits
  macDigits := ⟨rfl, each_char (by decide)⟩
  modeSize := rfl
  ssidSize := by decide
  ssidBytes := each_char (by decide)

def officeBody (offset : Nat) : Char := officeCommand.body.getD offset nul

theorem officeBody_holds : Holds officeBody officeCommand := by
  intro i inside
  rw [officeBody, List.getD_eq_getElem?_getD, List.getElem?_eq_getElem inside, Option.getD_some]

theorem only_office_selected :
    twoBss.reverse.Pairwise (fun a b => a.ssid ≠ b.ssid ∧ a.ownAddr ≠ b.ownAddr) ∧
    (Selects officeBody twoBss.reverse officeCommand.body.length cleared .delVap
      (macBytes officeCommand.staMacAddr)
      officeCommand.ssid ↔ Unmistakable twoBss.reverse cleared .delVap officeCommand.ssid) :=
  ⟨by decide, ssid_selects_iff officeBody twoBss.reverse (by decide) cleared .delVap officeCommand
    officeBody_holds⟩

/-- The pair of the BSS in front is added, whose name only begins with the SSID. -/
theorem prefix_taken_for_ssid :
    twoBss.Pairwise (fun a b => a.ssid ≠ b.ssid ∧ a.ownAddr ≠ b.ownAddr) ∧
    ¬ Selects officeBody twoBss officeCommand.body.length cleared .addVap
      (macBytes officeCommand.staMacAddr)
      officeCommand.ssid := by
  refine ⟨by decide, ?_⟩
  intro selects
  have acts := selects.named (bare ∅) 64 ⟨"office".toList, #v[0x06, 0, 0, 0, 0, 0x01]⟩
      (.tail _ (.head _)) rfl
  have tables := congrArg (Option.map fun result => result.1.table) acts
  exact absurd tables (by decide +kernel)

end LazyAS.CommandHandlers

import LazyAS.ProbeThrottle
import LazyAS.ReportCodec

/-! From the management frames of the driver to the probe reports that the controller reads:
`hostapd_wpa_event` of `drv_callbacks.c` picks the probe requests and bounds their signal,
`fnii_send_msg` thins them out, and what it sends is read by `processMsgProbeInfo`. -/
namespace LazyAS.ProbeSighting
open WireText Master ApReports ApSender ReportCodec ProbeThrottle

/-- An `EVENT_RX_MGMT`; the frequency is in MHz and the signal in dBm. -/
structure RxMgmt where
  frame : List (Fin 256)
  freq : Int
  ssiSignal : Int

def RxMgmt.byte (rx : RxMgmt) (offset : Nat) : Fin 256 := rx.frame.getD offset 0

def RxMgmt.frameControl (rx : RxMgmt) : Nat := (rx.byte 0).val + 256 * (rx.byte 1).val

def fcType (fc : Nat) : Nat := (fc &&& 0x000c) >>> 2

def fcStype (fc : Nat) : Nat := (fc &&& 0x00f0) >>> 4

def isLocalMac (first : Fin 256) : Bool := first.val &&& 0x02 = 0x02

def clipped (ssiSignal : Int) : Int := if ssiSignal > -10 then -10 else ssiSignal

/-- What `hostapd_wpa_event` passes to `fnii_send_msg`. -/
def sighting (rx : RxMgmt) : Option ApSender.ProbeInfo :=
  if rx.frame.length < 24 then none
  else if fcType rx.frameControl = 0 ∧ fcStype rx.frameControl = 4 then
    let stationMac : Mac := fun i => rx.byte (10 + i.val)
    if isLocalMac (rx.byte 10) = false ∧ clipped rx.ssiSignal > -90 then
      some ⟨stationMac, clipped rx.ssiSignal, rx.freq⟩
    else none
  else none

variable (getApAu : Int → Int)

/-- The bytes that go out for the frames of the driver, over a working link. -/
def reports (sender : Sender) : List RxMgmt → List Text
  | [] => []
  | rx :: rest => match sighting rx with
    | none => reports sender rest
    | some info =>
        let sent := fniiSendMsg getApAu sender (.probeInfo info) true
        sent.offered.toList ++ reports sent.sender rest

/-- What `processMsgProbeInfo` takes from the bytes of one report, beside its number. -/
def readProbe (bytes : Text) : Option (Text × Int × Int × Int × Text) := do
  let message ← received (.bytes bytes)
  let probe ← takeProbe message
  return (probe.staMacAddr, probe.rssi, probe.au, probe.channel, probe.mode)

def shown (info : ApSender.ProbeInfo) : Text × Int × Int × Int × Text :=
  (macText info.stationMac, info.rssi, airtime getApAu info, probeChannel info.channel,
    modeText (probeChannel info.channel))

/-- The sightings that are due: of those of one station in a row the 1st, the 21st, the 41st and so
on, where the frequency is one of a channel up to 200. -/
def due (before : List ApSender.ProbeInfo) : List ApSender.ProbeInfo → List ApSender.ProbeInfo
  | [] => []
  | info :: rest =>
      let later := due (before ++ [info]) rest
      if streak info.stationMac before % 20 = 0 ∧ InRange info then info :: later else later

theorem clipped_le (ssiSignal : Int) : clipped ssiSignal ≤ -10 := by
  unfold clipped
  split
  · exact Int.le_refl _
  · omega

theorem sighting_bounds {rx : RxMgmt} {info : ApSender.ProbeInfo} (seen : sighting rx = some info) :
    -90 < info.rssi ∧ info.rssi ≤ -10 := by
  unfold sighting at seen
  split at seen
  · exact absurd seen (by simp)
  · split at seen
    · dsimp only at seen
      split at seen
      · next near =>
          rw [← Option.some.inj seen]
          exact ⟨near.2, clipped_le rx.ssiSignal⟩
      · exact absurd seen (by simp)
    · exact absurd seen (by simp)

variable {getApAu}

theorem sent_probe {sender : Sender} (enabled : sender.enabled = true) (info : ApSender.ProbeInfo) :
    fniiSendMsg getApAu sender (.probeInfo info) true =
      finish true (fniiSendMsgProbeInfo getApAu (counted sender) info) := by
  rcases fniiSendMsg_enabled getApAu sender enabled (.probeInfo info) true with ⟨-, illegal⟩ |
      ⟨ends, -⟩
  · exact absurd illegal (by simp [Message.type, Message.isNull])
  · exact ends

theorem report_read (au : ∀ mode, 0 ≤ getApAu mode ∧ getApAu mode ≤ 100) {rx : RxMgmt}
    {info : ApSender.ProbeInfo} (seen : sighting rx = some info) {sender : Sender} {bytes : Text}
    (reported : (fniiSendMsgProbeInfo getApAu sender info).2 = .bytes bytes) :
    readProbe bytes = some (shown getApAu info) := by
  obtain ⟨weak, strong⟩ := sighting_bounds seen
  obtain ⟨message, arrives, taken⟩ :=
    probe_survives getApAu sender info bytes reported ⟨by omega, by omega⟩ (au _)
  unfold readProbe
  rw [arrives.job]
  simp only [Option.bind_eq_bind, Option.bind_some, taken]
  rfl

/-- The sender's throttle stands as after these sightings. -/
def Follows (getApAu : Int → Int) (globals sender : Sender) (before : List ApSender.ProbeInfo) :
    Prop :=
  sender.enabled = true ∧ sender.probeMac = (after getApAu globals before).probeMac ∧
    sender.probeCount = (after getApAu globals before).probeCount

theorem Follows.throttled {globals sender : Sender} {before : List ApSender.ProbeInfo}
    (follows : Follows getApAu globals sender before) (info : ApSender.ProbeInfo) :
    Throttled (counted sender) info ↔ Throttled (after getApAu globals before) info := by
  obtain ⟨-, mac, count⟩ := follows
  unfold Throttled
  rw [← mac, ← count]
  rfl

theorem silenced_step {globals sender : Sender} {before : List ApSender.ProbeInfo}
    {info : ApSender.ProbeInfo} (follows : Follows getApAu globals sender before)
    (silenced : Throttled (counted sender) info) :
    Follows getApAu globals (fniiSendMsg getApAu sender (.probeInfo info) true).sender
      (before ++ [info]) ∧
      (fniiSendMsg getApAu sender (.probeInfo info) true).offered = none := by
  have there := (follows.throttled info).mp silenced
  obtain ⟨enabled, mac, count⟩ := follows
  rw [sent_probe enabled, call_silenced getApAu _ info silenced]
  refine ⟨⟨enabled, ?_, ?_⟩, rfl⟩
  · rw [after_concat, call, call_silenced getApAu _ info there]
    exact mac
  · rw [after_concat, call, call_silenced getApAu _ info there]
    exact congrArg (· + 1) count

theorem recorded_step {globals sender : Sender} {before : List ApSender.ProbeInfo}
    {info : ApSender.ProbeInfo} (follows : Follows getApAu globals sender before)
    (passes : ¬ Throttled (counted sender) info) :
    Follows getApAu globals (fniiSendMsg getApAu sender (.probeInfo info) true).sender
      (before ++ [info]) ∧
      (InRange info → ∃ text, (fniiSendMsgProbeInfo getApAu (counted sender) info).2 = .bytes text ∧
        (fniiSendMsg getApAu sender (.probeInfo info) true).offered = some text) ∧
      (¬ InRange info → (fniiSendMsg getApAu sender (.probeInfo info) true).offered = none) := by
  -- any other sighting starts the count anew, and goes out if its frequency is in range
  obtain ⟨recorded, sends⟩ := call_recorded getApAu (counted sender) info passes
  have anew := (call_recorded getApAu _ info fun silenced => passes
      ((follows.throttled info).mpr silenced)).1
  have later : Follows getApAu globals { counted sender with
      probeMac := info.stationMac, probeCount := 1 }
      (before ++ [info]) := by
    rw [Follows, after_concat, anew]
    exact ⟨follows.1, rfl, rfl⟩
  rw [sent_probe follows.1]
  cases outcome : fniiSendMsgProbeInfo getApAu (counted sender) info with
  | mk left encoded =>
      have throttle : left = { counted sender with
          probeMac := info.stationMac, probeCount := 1 } := by
        rw [← recorded, call, outcome]
      subst throttle
      cases encoded with
      | refused =>
          -- the payload is neither missing nor too long
          have refused : (fniiSendMsgProbeInfo getApAu (counted sender) info).2 =
              .refused := by rw [outcome]
          have nothing := (encode_refused getApAu (counted sender) (.probeInfo info)).mp refused
          simp [Message.Oversized, Message.isNull] at nothing
      | silent =>
          refine ⟨later, ?_, fun _ => rfl⟩
          intro inside
          obtain ⟨text, transmitted⟩ := sends.mpr inside
          rw [outcome] at transmitted
          exact absurd transmitted (by simp)
      | bytes text =>
          refine ⟨later, fun _ => ⟨text, rfl, rfl⟩, ?_⟩
          intro outside
          exact absurd (sends.mp ⟨text, by rw [outcome]⟩) outside

theorem report_step (au : ∀ mode, 0 ≤ getApAu mode ∧ getApAu mode ≤ 100) {globals sender : Sender}
    {before : List ApSender.ProbeInfo} {rx : RxMgmt} {info : ApSender.ProbeInfo}
    (follows : Follows getApAu globals sender before) (seen : sighting rx = some info)
    (addressed : ∀ first ∈ (before ++ [info]).head?, first.stationMac ≠ fun _ => 0) :
    Follows getApAu globals (fniiSendMsg getApAu sender (.probeInfo info) true).sender
      (before ++ [info]) ∧
      (fniiSendMsg getApAu sender (.probeInfo info) true).offered.toList.map readProbe =
        if streak info.stationMac before % 20 = 0 ∧ InRange info then [some (shown getApAu info)]
          else [] := by
  -- the throttle lets pass the 1st, the 21st, .. of a row, and only the frequency can still stop
  -- these
  have places := (follows.throttled info).trans
      (throttled_iff getApAu globals before info addressed)
  by_cases silenced : Throttled (counted sender) info
  · obtain ⟨later, nothing⟩ := silenced_step follows silenced
    have other : ¬ (streak info.stationMac before % 20 = 0 ∧ InRange info) := fun due =>
        places.mp silenced due.1
    rw [nothing, if_neg other]
    exact ⟨later, rfl⟩
  · have starts : streak info.stationMac before % 20 = 0 := by
      by_contra waits
      exact silenced (places.mpr waits)
    obtain ⟨later, sent, unsent⟩ := recorded_step follows silenced
    refine ⟨later, ?_⟩
    by_cases inside : InRange info
    · obtain ⟨text, transmitted, offered⟩ := sent inside
      rw [offered, if_pos ⟨starts, inside⟩]
      show [readProbe text] = _
      rw [report_read au seen transmitted]
    · rw [unsent inside, if_neg fun due => inside due.2]
      rfl

theorem reports_due (au : ∀ mode, 0 ≤ getApAu mode ∧ getApAu mode ≤ 100) {globals sender : Sender}
    {before : List ApSender.ProbeInfo} (follows : Follows getApAu globals sender before)
    (frames : List RxMgmt)
    (addressed : ∀ first ∈ (before ++ frames.filterMap sighting).head?,
      first.stationMac ≠ fun _ => 0) :
    (reports getApAu sender frames).map readProbe =
      (due before (frames.filterMap sighting)).map fun info => some (shown getApAu info) := by
  induction frames generalizing sender before with
  | nil => rfl
  | cons rx frames ih =>
      cases seen : sighting rx with
      | none =>
          rw [List.filterMap_cons_none seen] at addressed ⊢
          rw [reports, seen]
          exact ih follows addressed
      | some info =>
          rw [List.filterMap_cons_some seen] at addressed ⊢
          have heads : (before ++ info :: frames.filterMap sighting).head? =
              (before ++ [info]).head? := by
            cases before <;> rfl
          obtain ⟨later, read⟩ := report_step au follows seen (heads ▸ addressed)
          have rest := ih later (by rw [List.append_assoc]; exact addressed)
          rw [reports, seen]
          dsimp only
          rw [List.map_append, read, rest, due]
          split
          · rfl
          · rfl

/-- Over a working link the controller reads, of all frames of the driver, exactly the probe
requests that are due: those of stations with global addresses above -90 dBm, each with its address,
its bounded signal and its channel. -/
theorem sightings_read (getApAu : Int → Int) (au : ∀ mode, 0 ≤ getApAu mode ∧ getApAu mode ≤ 100)
    (globals : Sender) (enabled : globals.enabled = true) (frames : List RxMgmt)
    (addressed : ∀ first ∈ (frames.filterMap sighting).head?, first.stationMac ≠ fun _ => 0) :
    (reports getApAu (initial globals) frames).map readProbe =
      (due [] (frames.filterMap sighting)).map fun info => some (shown getApAu info) := by
  have start : Follows getApAu globals (initial globals) [] := ⟨enabled, rfl, rfl⟩
  exact reports_due au start frames addressed

def probeRequest : List (Fin 256) :=
  [0x40, 0, 0, 0, 0xff, 0xff, 0xff, 0xff, 0xff, 0xff, 0x10, 0x10, 0x10, 0x10, 0x10, 0x10, 0xff,
    0xff, 0xff, 0xff, 0xff,
    0xff, 0, 0]

/-- A station next to the access point is heard twice, and reported once with -10 dBm. -/
theorem sightings_read_near : ((0 : Int) ≤ 50 ∧ (50 : Int) ≤ 100) ∧
    (reports (fun _ => 50) (initial { enabled := true }) [⟨probeRequest, 2437, -4⟩,
      ⟨probeRequest, 2437, -95⟩,
      ⟨probeRequest, 2437, -60⟩]).map readProbe =
          [some ("101010101010".toList, -10, 50, 6, "010".toList)] := by
  have read := sightings_read (fun _ => 50) (fun _ => by decide) { enabled := true } rfl
      [⟨probeRequest, 2437, -4⟩,
    ⟨probeRequest, 2437, -95⟩, ⟨probeRequest, 2437, -60⟩] (by decide)
  refine ⟨by decide, read.trans ?_⟩
  decide

end LazyAS.ProbeSighting

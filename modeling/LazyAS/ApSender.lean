import LazyAS.ApLink
import LazyAS.ApReports
import Mathlib.Data.Fintype.Pi

/-! `fnii_send_msg` of `fnii_roam.c` and the senders below it, for any payload: what each prints
into its zeroed buffer, how many bytes of it go to `send`, and what an error does to the link.
What an over-long text does to the memory behind a buffer is not modelled. -/
namespace LazyAS.ApSender
open WireText ApReports

/-- The globals of the senders: the counters of `Ap`, the status of the socket, how often it was
shut down, whether a heartbeat was answered, and the station of the last probes with their count. -/
structure Sender extends ApLink.Ap where
  enabled : Bool := false
  shutdowns : Nat := 0
  beatLive : Bool := false
  probeMac : Mac := fun _ => 0
  probeCount : Nat := 0

/-! The payloads. A name is what `strlen` and `%s` read of it. -/

structure StationFlow where
  stationMac : Mac
  rxByte : Int32Value
  txByte : Int32Value

structure UpdateStation where
  apMac : Mac
  staMac : Mac
  ssid : Text

/-- `interface_all_info_s` with its first `ssid_num` names. -/
structure InterfaceAll where
  vapNum : Int
  channel : Int
  ssids : List Text

structure InterfaceInfo where
  vifMac : Mac
  channel : Int
  ssid : Text

/-- `probe_info_s` as the driver fills it; the channel is a frequency in MHz. -/
structure ProbeInfo where
  stationMac : Mac
  rssi : Int
  channel : Int

def handled : List Int := [100, 101, 104, 105, 106, 107, 108, 109, 110, 111, 116]

inductive Message where
  | ok (idf : Fin 4 → Char)
  | err (idf : Fin 4 → Char)
  | newSta (info : UpdateStation)
  | delSta (info : UpdateStation)
  | flowInfo (info : StationFlow)
  | probeInfo (info : ProbeInfo)
  | interfaceInfo (info : InterfaceInfo)
  | localMac (mac : Text)
  | heartBeat
  | interfaceNum (info : InterfaceAll)
  | updateStation (vifMac staMac : Mac)
  | other (msgType : Int) (unhandled : msgType ∉ handled)
  | null (msgType : Int)

def Message.type : Message → Int
  | .ok _ => 100
  | .err _ => 101
  | .newSta _ => 104
  | .delSta _ => 105
  | .flowInfo _ => 106
  | .probeInfo _ => 107
  | .interfaceInfo _ => 108
  | .localMac _ => 109
  | .heartBeat => 110
  | .interfaceNum _ => 111
  | .updateStation _ _ => 116
  | .other msgType _ | .null msgType => msgType

def Message.isNull : Message → Bool
  | .null _ => true
  | _ => false

/-- How a sender ends: FNII_RET_ERR before any `send`, FNII_RET_OK without one, or with bytes
for `send`. -/
inductive Encoded where
  | refused
  | silent
  | bytes (text : Text)
  deriving DecidableEq

def idText (sender : Sender) : Text := zeroPad 4 (sender.msgIdf % 9999 : Nat)

def buffered (count : Nat) (text : Text) : Text := (text ++ List.replicate count nul).take count

def workMode (channel : Int) : Int := if channel ≥ 36 then 1 else 0

def fniiSendMsgOk (idf : Fin 4 → Char) : Encoded :=
  .bytes (buffered 13 (List.ofFn idf ++ "100002OK;".toList))

def fniiSendMsgErr (idf : Fin 4 → Char) : Encoded :=
  .bytes (buffered 14 (List.ofFn idf ++ "101003ERR;".toList))

def fniiSendMsgFlowInfo (sender : Sender) (info : StationFlow) : Encoded :=
  .bytes (buffered 61 (idText sender ++ "10605012".toList ++ macText info.stationMac ++
    "16".toList ++ zeroPad 16 info.txByte.val ++ "16".toList ++ zeroPad 16 info.rxByte.val ++
      [';']))

/-- Both station reports; `ssid_len` is a `UINT8`. -/
def stationReport (type : Text) (sender : Sender) (info : UpdateStation) : Encoded :=
  let ssidLen := info.ssid.length % 256
  if ssidLen > 31 then .refused
  else .bytes (buffered 81 (idText sender ++ type ++ zeroPad 3 (30 + ssidLen : Nat) ++
    "12".toList ++ macText info.staMac ++ "12".toList ++ macText info.apMac ++
    zeroPad 2 ssidLen ++ info.ssid ++ [';']))

def fniiSendMsgDelSta (sender : Sender) (info : UpdateStation) : Encoded :=
  stationReport "105".toList sender info

def fniiSendMsgNewSta (sender : Sender) (info : UpdateStation) : Encoded :=
  stationReport "104".toList sender info

def patch (text : Text) (start : Nat) (field : Text) : Text :=
  text.take start ++ field ++ text.drop (start + field.length)

def fniiSendMsgInerfaceAll (sender : Sender) (info : InterfaceAll) : Encoded :=
  let fixed := idText sender ++ "11100002".toList ++ zeroPad 2 info.vapNum ++ "03".toList ++
    zeroPad 3 info.channel ++ "01".toList ++ zeroPad 1 (workMode info.channel)
  let printed := info.ssids.foldl (fun text ssid => text ++ (zeroPad 2 ssid.length ++ ssid)) fixed
  .bytes (patch printed 7 ((zeroPad 3 ((printed.length : Int) - 10)).take 3) ++ [';'])

def fniiSendMsgIfInfo (sender : Sender) (info : InterfaceInfo) : Encoded :=
  let ssidLen := (info.ssid.length : Int).bmod 256
  .bytes (idText sender ++ "108".toList ++ zeroPad 3 (ssidLen + 23) ++ "12".toList ++
    macText info.vifMac ++ "02".toList ++ zeroPad 2 info.channel ++ zeroPad 2 ssidLen ++
      info.ssid ++
    "01".toList ++ zeroPad 1 (workMode info.channel) ++ [';'])

def probeChannel (frequency : Int) : Int :=
  if frequency ≥ 5180 then (frequency - 5180).tdiv 5 + 36 else (frequency - 2407).tdiv 5

/-- A station's first 19 probes after a reported one are counted only. -/
def fniiSendMsgProbeInfo (getApAu : Int → Int) (sender : Sender) (info : ProbeInfo) :
    Sender × Encoded :=
  if sender.probeMac = info.stationMac ∧ sender.probeCount < 20 then
    ({ sender with probeCount := sender.probeCount + 1 }, .silent)
  else
    let counted := { sender with probeMac := info.stationMac, probeCount := 1 }
    let channel := probeChannel info.channel
    if channel > 200 ∨ channel < 0 then (counted, .silent)
    else (counted, .bytes (buffered 43
      (idText sender ++ "10703212".toList ++ macText info.stationMac ++
      "03".toList ++ zeroPad 3 info.rssi ++ "03".toList ++ zeroPad 3 (getApAu (workMode channel)) ++
      "03".toList ++ zeroPad 3 channel ++ "01".toList ++ zeroPad 1 (workMode channel) ++ [';'])))

def fniiSendMsgLocalMac (sender : Sender) (mac : Text) : Encoded :=
  .bytes (buffered 25 (idText sender ++ "10901412".toList ++ mac ++ [';']))

def fniiSendMsgUpdateStation (sender : Sender) (vifMac staMac : Mac) : Encoded :=
  .bytes (buffered 39 (idText sender ++ "11602812".toList ++ macText vifMac ++ "12".toList ++
    macText staMac ++ [';']))

def fniiSendMsgBeat (sender : Sender) : Sender × Encoded :=
  ({ sender with beatLive := false },
    .bytes (buffered 11 (ApLink.beatId sender.beatCseq ++ "110000;".toList)))

/-- The `switch` of `fnii_send_msg`; the senders refuse a null pointer. -/
def encode (getApAu : Int → Int) (sender : Sender) : Message → Sender × Encoded
  | .ok idf => (sender, fniiSendMsgOk idf)
  | .err idf => (sender, fniiSendMsgErr idf)
  | .flowInfo info => (sender, fniiSendMsgFlowInfo sender info)
  | .delSta info => (sender, fniiSendMsgDelSta sender info)
  | .interfaceNum info => (sender, fniiSendMsgInerfaceAll sender info)
  | .interfaceInfo info => (sender, fniiSendMsgIfInfo sender info)
  | .newSta info => (sender, fniiSendMsgNewSta sender info)
  | .probeInfo info => fniiSendMsgProbeInfo getApAu sender info
  | .localMac mac => (sender, fniiSendMsgLocalMac sender mac)
  | .heartBeat => fniiSendMsgBeat { sender with beatCseq := sender.msgIdf }
  | .updateStation vifMac staMac => (sender, fniiSendMsgUpdateStation sender vifMac staMac)
  | .other .. => (sender, .silent)
  | .null _ => (sender, .refused)

/-- What a call of `fnii_send_msg` returns, leaves and has handed to `send`. -/
structure Sent where
  ok : Bool
  sender : Sender
  offered : Option Text

/-- SOCKET_STATUS_DISABLE, `shutdown` and `close`. -/
def closeLink (sender : Sender) : Sender :=
  { sender with enabled := false, shutdowns := sender.shutdowns + 1 }

/-- A sender's end: `written` is whether `send` gets its bytes through. -/
def finish (written : Bool) : Sender × Encoded → Sent
  | (sender, .refused) => ⟨false, closeLink sender, none⟩
  | (sender, .silent) => ⟨true, sender, none⟩
  | (sender, .bytes text) =>
      if written then ⟨true, sender, some text⟩ else ⟨false, closeLink sender, some text⟩

def counted (sender : Sender) : Sender := { sender with msgIdf := ApLink.nextIdf sender.toAp }

def fniiSendMsg (getApAu : Int → Int) (sender : Sender) (message : Message) (written : Bool) :
    Sent :=
  if message.type < 100 ∨ message.type > 118 then ⟨false, sender, none⟩
  else if sender.enabled = false ∧ message.type ≠ 109 ∧ message.type ≠ 108 ∧ message.type ≠ 111 then
    ⟨false, sender, none⟩
  else if message.isNull then ⟨false, sender, none⟩
  else finish written (encode getApAu (counted sender) message)

/-! What closes the link. -/

variable (getApAu : Int → Int) (sender : Sender)

/-- The link is closed after a failed `send` only, and a payload that is refused leaves it alone. -/
structure LinkKept (message : Message) (written : Bool) : Prop where
  transport : ((fniiSendMsg getApAu sender message written).sender.enabled = false ∨
      (fniiSendMsg getApAu sender message written).sender.shutdowns ≠ sender.shutdowns) →
    (fniiSendMsg getApAu sender message written).offered.isSome ∧ written = false
  refused : (encode getApAu (counted sender) message).2 = .refused →
    (fniiSendMsg getApAu sender message written).ok = false ∧
      (fniiSendMsg getApAu sender message written).sender.enabled = sender.enabled ∧
      (fniiSendMsg getApAu sender message written).sender.shutdowns = sender.shutdowns

/-- A station report with a name the sender has no room for. -/
def Message.Oversized : Message → Prop
  | .newSta info | .delSta info => 31 < info.ssid.length % 256
  | _ => False

theorem encode_link (message : Message) :
    (encode getApAu sender message).1.enabled = sender.enabled ∧
    (encode getApAu sender message).1.shutdowns = sender.shutdowns := by
  cases message with
  | probeInfo info =>
      simp only [encode, fniiSendMsgProbeInfo]
      by_cases again : sender.probeMac = info.stationMac ∧ sender.probeCount < 20
      · rw [if_pos again]
        exact ⟨rfl, rfl⟩
      · rw [if_neg again]
        split
        · exact ⟨rfl, rfl⟩
        · exact ⟨rfl, rfl⟩
  | _ => exact ⟨rfl, rfl⟩

theorem encode_refused (message : Message) : (encode getApAu sender message).2 = .refused ↔
    message.Oversized ∨ message.isNull := by
  -- among the payloads only an oversized station report is refused
  have station (type : Text) (info : UpdateStation) :
      stationReport type sender info = .refused ↔ 31 < info.ssid.length % 256 := by
    unfold stationReport
    by_cases long : info.ssid.length % 256 > 31
    · simp [long]
    · simp [long]
  cases message with
  | newSta info => simp [encode, fniiSendMsgNewSta, station, Message.Oversized, Message.isNull]
  | delSta info => simp [encode, fniiSendMsgDelSta, station, Message.Oversized, Message.isNull]
  | probeInfo info =>
      simp only [encode, fniiSendMsgProbeInfo, Message.Oversized, Message.isNull]
      by_cases again : sender.probeMac = info.stationMac ∧ sender.probeCount < 20
      · simp [again]
      · rw [if_neg again]
        by_cases outside : probeChannel info.channel > 200 ∨ probeChannel info.channel < 0
        · simp [outside]
        · simp [outside]
  | null msgType => simp [encode, Message.isNull]
  | _ =>
      simp [encode, Message.Oversized, Message.isNull, fniiSendMsgOk, fniiSendMsgErr,
        fniiSendMsgFlowInfo, fniiSendMsgInerfaceAll, fniiSendMsgIfInfo, fniiSendMsgLocalMac,
        fniiSendMsgUpdateStation, fniiSendMsgBeat]

theorem fniiSendMsg_enabled (enabled : sender.enabled = true) (message : Message) (written : Bool) :
    (fniiSendMsg getApAu sender message written = ⟨false, sender, none⟩ ∧
      (message.type < 100 ∨ message.type > 118 ∨ message.isNull)) ∨
    (fniiSendMsg getApAu sender message written =
      finish written (encode getApAu (counted sender) message) ∧
      message.isNull = false) := by
  unfold fniiSendMsg
  by_cases illegal : message.type < 100 ∨ message.type > 118
  · rw [if_pos illegal]
    exact .inl ⟨rfl, illegal.imp_right .inl⟩
  · rw [if_neg illegal, if_neg (by simp [enabled])]
    by_cases null : message.isNull
    · rw [if_pos null]
      exact .inl ⟨rfl, .inr (.inr null)⟩
    · rw [if_neg null]
      exact .inr ⟨rfl, by simpa using null⟩

theorem oversized_legal (message : Message) (oversized : message.Oversized) :
    ¬ (message.type < 100 ∨ message.type > 118 ∨ message.isNull) := by
  cases message with
  | newSta info => simp [Message.type, Message.isNull]
  | delSta info => simp [Message.type, Message.isNull]
  | _ => exact oversized.elim

/-- While the socket is enabled, only transport failures close the link, exactly for the payloads
that are not oversized. -/
theorem link_kept_iff (enabled : sender.enabled = true) (message : Message) (written : Bool) :
    LinkKept getApAu sender message written ↔ ¬ message.Oversized := by
  have refusal := encode_refused getApAu (counted sender) message
  have link := encode_link getApAu (counted sender) message
  constructor
  · intro kept oversized
    have refused := refusal.mpr (.inl oversized)
    rcases fniiSendMsg_enabled getApAu sender enabled message written with ⟨-, illegal⟩ | ⟨ends, -⟩
    · exact oversized_legal message oversized illegal
    · have closed : (fniiSendMsg getApAu sender message written).sender.enabled = false := by
        rw [ends, ← Prod.mk.eta (p := encode getApAu (counted sender) message), refused]
        rfl
      have unchanged := (kept.refused refused).2.1
      rw [closed, enabled] at unchanged
      exact absurd unchanged (by decide)
  · intro fits
    rcases fniiSendMsg_enabled getApAu sender enabled message written with ⟨ends, -⟩ |
        ⟨ends, payload⟩
    · constructor
      · intro changed
        rw [ends] at changed
        rcases changed with off | shut
        · exact absurd (off.symm.trans enabled) (by decide)
        · exact absurd rfl shut
      · intro _
        rw [ends]
        exact ⟨rfl, rfl, rfl⟩
    · have notRefused : (encode getApAu (counted sender) message).2 ≠ .refused := by
        intro refused
        rcases refusal.mp refused with oversized | null
        · exact fits oversized
        · rw [payload] at null
          exact absurd null (by decide)
      constructor
      · rw [ends]
        generalize encode getApAu (counted sender) message = ended at link notRefused
        obtain ⟨next, encoded⟩ := ended
        have same : next.enabled = true := link.1.trans enabled
        have unshut : next.shutdowns = sender.shutdowns := link.2
        cases encoded with
        | refused => exact absurd rfl notRefused
        | silent => simp [finish, same, unshut]
        | bytes text => cases written <;> simp [finish, same, unshut]
      · intro refused
        exact absurd refused notRefused

def longName : Message :=
  .newSta { apMac := fun _ => 2, staMac := fun _ => 16, ssid := List.replicate 32 'A' }

theorem heartbeat_keeps_link : ({ enabled := true } : Sender).enabled = true ∧
    (LinkKept (fun _ => 50) { enabled := true } .heartBeat false ↔ ¬ Message.heartBeat.Oversized) :=
  ⟨rfl, link_kept_iff (fun _ => 50) { enabled := true } rfl .heartBeat false⟩

/-- Nothing is handed to `send`, and the link is closed all the same. -/
theorem long_name_closes_link :
    (fniiSendMsg (fun _ => 50) { enabled := true } longName true).offered = none ∧
      (fniiSendMsg (fun _ => 50) { enabled := true } longName true).sender.enabled = false ∧
      ¬ LinkKept (fun _ => 50) { enabled := true } longName true := by
  have closed : (fniiSendMsg (fun _ => 50) { enabled := true } longName true).sender.enabled =
      false := by
    decide
  refine ⟨by decide, closed, ?_⟩
  intro kept
  exact absurd (kept.transport (.inl closed)).1 (by decide)

end LazyAS.ApSender

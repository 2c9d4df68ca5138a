import LazyAS.ApLink
import LazyAS.DenseStationHash

/-! The AP's side of a command frame (`fnii_roam.c`): `fnii_parse_msg` and its three command
handlers, which read at fixed offsets what the controller's runnables wrote. What the handlers
go on to do to the tables of hostapd is only named. `msgBuf` is the text from a pointer on. -/
namespace LazyAS.CommandCodec
open WireText ControllerView Master ApLink
open DenseStationHash (Mac CmdMsg firstByte lastByte)

def hexValue (c : Char) : Option Nat :=
  if c.isDigit then some (c.toNat - 48)
  else if 97 ≤ c.toNat ∧ c.toNat ≤ 102 then some (c.toNat - 87)
  else if 65 ≤ c.toNat ∧ c.toNat ≤ 70 then some (c.toNat - 55)
  else none

def isHex (c : Char) : Bool := (hexValue c).isSome

def hexNumber (digits : Text) : Nat :=
  digits.foldl (fun value c => 16 * value + (hexValue c).getD 0) 0

/-- `strtol(text, NULL, 16)` on a text of a few characters. -/
def strtol16 (text : Text) : Int :=
  let body := text.dropWhile isSpace
  let unsigned := if body.head? = some '-' ∨ body.head? = some '+' then body.tail else body
  let digits := match unsigned with
    | '0' :: x :: d :: rest => if (x = 'x' ∨ x = 'X') ∧ isHex d then d :: rest else unsigned
    | _ => unsigned
  let magnitude : Int := hexNumber (digits.takeWhile isHex)
  if body.head? = some '-' then -magnitude else magnitude

def fniiGetMac (buf : Text) : Mac :=
  Vector.ofFn fun i => UInt8.ofInt (strtol16 ((buf.drop (2 * i.val)).take 2))

/-- What the handlers read: `cmd_info.stamac`, `ssid_len` and `ssid`. -/
structure Parsed where
  stamac : Mac
  ssidLen : Int
  ssid : Text
  deriving DecidableEq

/-- The common start of the handlers; `none` is FNII_RET_ERR. -/
def readCommand (minLen : Int) (msgBuf : Text) (msgBufLen : Int) : Option Parsed :=
  if msgBufLen < minLen then none
  else
    let ssidLen := atoi ((msgBuf.drop 31).take 2)
    if ssidLen > 31 then none
    -- the copy of a negative length does not return
    else if ssidLen < 0 then none
    else some ⟨fniiGetMac (msgBuf.drop 2), ssidLen, (msgBuf.drop 33).take ssidLen.toNat⟩

structure Bss where
  ssid : Text
  ownAddr : Mac

/-- The search for the BSS compares `ssid_len` bytes only, so a longer name is found as well. -/
def findBss (iface : List Bss) (parsed : Parsed) : Option Bss :=
  iface.find? fun bss => bss.ssid.takeD parsed.ssidLen.toNat nul = parsed.ssid

inductive Action where
  | denseStationAdd (cmdInfo : CmdMsg)
  | denseStationDel (cmdInfo : CmdMsg)
  | delOffline (stamac : Mac)
  deriving DecidableEq

/-- `cmd_info.bssid` is taken from the BSS, if there is one; a zero address is an error. -/
def addressed (iface : List Bss) (initial : Mac) (parsed : Parsed) : Option CmdMsg :=
  let bssid := ((findBss iface parsed).map Bss.ownAddr).getD initial
  if firstByte bssid = 0 ∧ lastByte bssid = 0 then none else some ⟨bssid, parsed.stamac⟩

def fniiHandleAddVap (garbage : Mac) (iface : List Bss) (msgBuf : Text) (msgBufLen : Int) :
    Option Action := do
  let parsed ← readCommand 31 msgBuf msgBufLen
  let cmdInfo ← addressed iface garbage parsed
  return .denseStationAdd cmdInfo

def fniiHandleDelVap (iface : List Bss) (msgBuf : Text) (msgBufLen : Int) : Option Action := do
  let parsed ← readCommand 28 msgBuf msgBufLen
  let cmdInfo ← addressed iface (Vector.replicate 6 0) parsed
  return .denseStationDel cmdInfo

def fniiHandleOfflineVap (iface : List Bss) (msgBuf : Text) (msgBufLen : Int) : Option Action := do
  let parsed ← readCommand 28 msgBuf msgBufLen
  let cmdInfo ← addressed iface (Vector.replicate 6 0) parsed
  return .delOffline cmdInfo.stamac

inductive Handler where
  | addVap | delVap | offlineVap | beat
  deriving DecidableEq, Repr

/-- The handler `fnii_parse_msg` calls and the arguments it passes on. -/
structure Dispatched where
  handler : Handler
  msgBuf : Text
  fieldLen : Int
  cseq : Int
  deriving DecidableEq

/-- `fnii_parse_msg` up to the call. A wrong length is reported and otherwise ignored. -/
def dispatch (msgBuf : Text) (msgBufLen : Int) : Option Dispatched :=
  if msgBufLen < 10 then none
  else
    let call (handler : Handler) : Dispatched :=
      ⟨handler, msgBuf.drop 10, atoi ((msgBuf.drop 7).take 3), atoi (msgBuf.take 4)⟩
    if frameType msgBuf = 102 then some (call .addVap)
    else if frameType msgBuf = 103 then some (call .delVap)
    else if frameType msgBuf = 117 then some (call .offlineVap)
    else if frameType msgBuf = 110 then some (call .beat)
    else none

def Dispatched.read (call : Dispatched) : Option Parsed :=
  match call.handler with
  | .addVap => readCommand 31 call.msgBuf call.fieldLen
  | .delVap | .offlineVap => readCommand 28 call.msgBuf call.fieldLen
  | .beat => none

def Dispatched.run (garbage : Mac) (iface : List Bss) (call : Dispatched) : Option Action :=
  match call.handler with
  | .addVap => fniiHandleAddVap garbage iface call.msgBuf call.fieldLen
  | .delVap => fniiHandleDelVap iface call.msgBuf call.fieldLen
  | .offlineVap => fniiHandleOfflineVap iface call.msgBuf call.fieldLen
  | .beat => none

theorem fniiParseMsg_dispatch (ap : Ap) (frame : Text) (result : Bool) :
    fniiParseMsg ap frame result =
      match dispatch frame (atoi ((frame.drop 7).take 3) + 11) with
      | none => false
      | some call => if call.handler = .beat then fniiHandleBeat ap call.cseq else result := by
  unfold fniiParseMsg dispatch isCommand
  by_cases short : atoi ((frame.drop 7).take 3) + 11 < 10
  · rw [if_pos short, if_pos short]
  · rw [if_neg short, if_neg short]
    by_cases add : frameType frame = 102
    · simp [add]
    · by_cases del : frameType frame = 103
      · simp [del]
      · by_cases offline : frameType frame = 117
        · simp [offline]
        · by_cases beat : frameType frame = 110
          · simp [beat]
          · simp [add, del, offline, beat]

/-! The frames of the controller. -/

structure CommandData where
  msgId : Text
  staMacAddr : Text
  mode : Text
  ssid : Text
  idDigits : msgId.length = 4 ∧ ∀ c ∈ msgId, c.isDigit
  macDigits : staMacAddr.length = 12 ∧ ∀ c ∈ staMacAddr, isHex c
  modeSize : mode.length = 3
  ssidSize : 1 ≤ ssid.length ∧ ssid.length ≤ 31
  ssidBytes : ∀ c ∈ ssid, c.toNat < 256

def CommandData.frame (command : CommandData) (type : CommandType) : Text :=
  commandFrame command.msgId type command.staMacAddr command.mode command.ssid

def handlerOf : CommandType → Handler
  | .addVap | .addVapRoam => .addVap
  | .delVap => .delVap
  | .offlineVap => .offlineVap

def macBytes (staMacAddr : Text) : Mac :=
  Vector.ofFn fun i => UInt8.ofNat (hexNumber ((staMacAddr.drop (2 * i.val)).take 2))

theorem hex_cases (c : Char) (hex : isHex c) : c.isDigit ∨ 65 ≤ c.toNat ∧ c.toNat ≤ 102 := by
  by_cases digit : c.isDigit
  · exact .inl digit
  · apply Or.inr
    by_cases lower : 97 ≤ c.toNat ∧ c.toNat ≤ 102
    · omega
    · by_cases upper : 65 ≤ c.toNat ∧ c.toNat ≤ 70
      · omega
      · simp [isHex, hexValue, digit, lower, upper] at hex

theorem hex_plain (c : Char) (hex : isHex c) : isSpace c = false ∧ c ≠ '-' ∧ c ≠ '+' := by
  rcases hex_cases c hex with digit | letter
  · refine ⟨digit_not_space c digit, ?_, ?_⟩
    · rintro rfl
      exact absurd digit (by decide)
    · rintro rfl
      exact absurd digit (by decide)
  · have code (d : Char) (low : d.toNat < 65) : c ≠ d := by
      rintro rfl
      omega
    refine ⟨?_, code '-' (by decide), code '+' (by decide)⟩
    have blank := code ' ' (by decide)
    have tab := code '\t' (by decide)
    have line := code '\n' (by decide)
    have carriage := code '\r' (by decide)
    simp only [isSpace, blank, tab, line, carriage, decide_false, Bool.false_or,
      Bool.or_eq_false_iff, decide_eq_false_iff_not]
    omega

theorem strtol16_pair (a b : Char) (first : isHex a) (second : isHex b) :
    strtol16 [a, b] = hexNumber [a, b] := by
  obtain ⟨solid, minus, plus⟩ := hex_plain a first
  have body : [a, b].dropWhile isSpace = [a, b] := List.dropWhile_cons_of_neg (by simp [solid])
  have whole : [a, b].takeWhile isHex = [a, b] := by simp [first, second]
  unfold strtol16
  simp only [body, List.head?_cons, Option.some.injEq, minus, plus, or_self, if_false, whole]

theorem byte_ofInt (value : Nat) : UInt8.ofInt value = UInt8.ofNat value := by
  apply UInt8.toNat_inj.mp
  simp only [UInt8.ofInt, UInt8.toNat_ofNat']
  omega

theorem fniiGetMac_bytes (staMacAddr rest : Text) (size : staMacAddr.length = 12)
    (digits : ∀ c ∈ staMacAddr, isHex c) :
    fniiGetMac (staMacAddr ++ rest) = macBytes staMacAddr := by
  unfold fniiGetMac macBytes
  congr 1
  funext i
  have inside : 2 * i.val + 2 ≤ staMacAddr.length := by omega
  have piece : ((staMacAddr ++ rest).drop (2 * i.val)).take 2 =
      (staMacAddr.drop (2 * i.val)).take 2 := by
    rw [List.drop_append_of_le_length (by omega), List.take_append_of_le_length (by simp; omega)]
  have two : ((staMacAddr.drop (2 * i.val)).take 2).length = 2 := by simp; omega
  obtain ⟨a, b, shape⟩ := List.length_eq_two.mp two
  have member : ∀ c ∈ [a, b], isHex c := by
    intro c inside
    rw [← shape] at inside
    exact digits c (List.mem_of_mem_drop (List.mem_of_mem_take inside))
  rw [piece, shape, strtol16_pair a b (member a (by simp)) (member b (by simp))]
  exact byte_ofInt _

theorem slice_field (before field after : Text) (start count : Nat) (first : start = before.length)
    (size : count = field.length) :
    ((before ++ (field ++ after)).drop start).take count = field := by
  subst first size
  rw [List.drop_left, List.take_left]

/-- The body of a frame, behind the ten characters of its header. -/
def CommandData.body (command : CommandData) : Text :=
  "12".toList ++ (command.staMacAddr ++ ("12ffffffffffff".toList ++ (command.mode ++
    (zeroPad 2 command.ssid.length ++ command.ssid))))

theorem body_length (command : CommandData) : command.body.length = 33 + command.ssid.length := by
  have size := command.ssidSize
  have field := zeroPad_length 2 command.ssid.length (by omega) (by decide)
  have address : "12".toList.length = 2 ∧ "12ffffffffffff".toList.length = 14 := by decide
  simp only [CommandData.body, List.length_append, command.macDigits.1, command.modeSize, field,
    address]
  omega

theorem frame_shape (command : CommandData) (type : CommandType) :
    command.frame type = command.msgId ++ (commandCode type ++ (zeroPad 3 command.body.length ++
      (command.body ++ [';']))) := by
  have twelve : Nat.toDigits 10 12 = "12".toList := by decide
  have same : Nat.toDigits 10 command.staMacAddr.length ++ command.staMacAddr ++
      Nat.toDigits 10 command.staMacAddr.length ++ "ffffffffffff".toList ++ command.mode ++
      zeroPad 2 command.ssid.length ++ command.ssid = command.body := by
    rw [command.macDigits.1, twelve]
    simp [CommandData.body]
  unfold CommandData.frame commandFrame
  dsimp only
  rw [same]
  simp only [List.append_assoc]

theorem code_length (type : CommandType) : (commandCode type).length = 3 := by
  cases type <;> rfl

theorem frame_fields (command : CommandData) (type : CommandType) (behind : Text) :
    ((command.frame type ++ behind).drop 4).take 3 = commandCode type ∧
      ((command.frame type ++ behind).drop 7).take 3 = zeroPad 3 command.body.length ∧
      (command.frame type ++ behind).drop 10 = command.body ++ (';' :: behind) := by
  have size := body_length command
  have room := command.ssidSize
  have field := zeroPad_length 3 command.body.length (by omega) (by decide)
  have code := code_length type
  have id := command.idDigits.1
  rw [frame_shape]
  simp only [List.append_assoc]
  refine ⟨?_, ?_, ?_⟩
  · exact slice_field _ _ _ _ _ id.symm code.symm
  · rw [← List.append_assoc command.msgId]
    apply slice_field
    · rw [List.length_append, id, code]
    · exact field.symm
  · rw [← List.append_assoc command.msgId, ← List.append_assoc (_ ++ _) (zeroPad 3 _)]
    apply List.drop_left'
    simp only [List.length_append, id, code, field]

theorem frame_length (command : CommandData) (type : CommandType) :
    (command.frame type).length = command.body.length + 11 := by
  have size := body_length command
  have room := command.ssidSize
  have field := zeroPad_length 3 command.body.length (by omega) (by decide)
  rw [frame_shape]
  simp only [List.length_append, command.idDigits.1, code_length, field, List.length_cons,
    List.length_nil]
  omega

theorem code_type (command : CommandData) (type : CommandType) (behind : Text) :
    frameType (command.frame type ++ behind) = match type with
      | .addVap | .addVapRoam => 102
      | .delVap => 103
      | .offlineVap => 117 := by
  unfold frameType
  rw [(frame_fields command type behind).1]
  cases type <;> decide

theorem dispatch_frame (command : CommandData) (type : CommandType) (behind : Text) :
    dispatch (command.frame type ++ behind) (command.frame type).length =
      some ⟨handlerOf type, command.body ++ (';' :: behind), command.body.length,
        atoi command.msgId⟩ := by
  obtain ⟨-, length, body⟩ := frame_fields command type behind
  have id : (command.frame type ++ behind).take 4 = command.msgId := by
    rw [frame_shape, List.append_assoc]
    exact List.take_left' command.idDigits.1
  have value := atoi_digits _ _ (zeroPad_digitsValue 3 command.body.length)
  unfold dispatch
  rw [frame_length, if_neg (by omega), code_type, length, body, id, value]
  cases type <;> rfl

theorem body_fields (command : CommandData) (behind : Text) :
    fniiGetMac ((command.body ++ behind).drop 2) = macBytes command.staMacAddr ∧
      ((command.body ++ behind).drop 31).take 2 = zeroPad 2 command.ssid.length ∧
      ((command.body ++ behind).drop 33).take command.ssid.length = command.ssid := by
  -- the fields of the body lie where every handler looks for them
  have room := command.ssidSize
  have field := zeroPad_length 2 command.ssid.length (by omega) (by decide)
  have mac := command.macDigits.1
  have mode := command.modeSize
  have address : "12".toList.length = 2 ∧ "12ffffffffffff".toList.length = 14 := by decide
  have front : ("12".toList ++
      (command.staMacAddr ++ ("12ffffffffffff".toList ++ command.mode))).length = 31 := by
    simp only [List.length_append, mac, mode, address]
  refine ⟨?_, ?_, ?_⟩
  · have start : (command.body ++ behind).drop 2 = command.staMacAddr ++
        (("12ffffffffffff".toList ++
          (command.mode ++ (zeroPad 2 command.ssid.length ++ command.ssid))) ++
          behind) := by
      simp only [CommandData.body, List.append_assoc]
      exact List.drop_left' address.1
    rw [start]
    exact fniiGetMac_bytes _ _ mac command.macDigits.2
  · have shape : command.body ++ behind =
        ("12".toList ++ (command.staMacAddr ++ ("12ffffffffffff".toList ++ command.mode))) ++
          (zeroPad 2 command.ssid.length ++ (command.ssid ++ behind)) := by
      simp only [CommandData.body, List.append_assoc]
    rw [shape]
    exact slice_field _ _ _ _ _ front.symm field.symm
  · have shape : command.body ++ behind =
        (("12".toList ++ (command.staMacAddr ++ ("12ffffffffffff".toList ++ command.mode))) ++
          zeroPad 2 command.ssid.length) ++ (command.ssid ++ behind) := by
      simp only [CommandData.body, List.append_assoc]
    rw [shape]
    apply slice_field
    · rw [List.length_append, front, field]
    · rfl

theorem readCommand_body (command : CommandData) (behind : Text) (minLen : Int)
    (low : minLen ≤ 34) :
    readCommand minLen (command.body ++ behind) command.body.length =
      some ⟨macBytes command.staMacAddr, command.ssid.length, command.ssid⟩ := by
  obtain ⟨mac, length, ssid⟩ := body_fields command behind
  have size := body_length command
  have room := command.ssidSize
  have value := atoi_digits _ _ (zeroPad_digitsValue 2 command.ssid.length)
  unfold readCommand
  rw [if_neg (by omega)]
  simp only [length, value, mac, Int.toNat_natCast, ssid]
  rw [if_neg (by omega), if_neg (by omega)]

/-- Every frame of the controller reaches the handler of its type, which reads the station's
address and the SSID the command was built from. -/
theorem command_round_trip (command : CommandData) (type : CommandType) (behind : Text) :
    ∃ call, dispatch (command.frame type ++ behind) (command.frame type).length = some call ∧
      call.handler = handlerOf type ∧ call.fieldLen + 11 = (command.frame type).length ∧
      call.read = some ⟨macBytes command.staMacAddr, command.ssid.length, command.ssid⟩ := by
  refine ⟨_, dispatch_frame command type behind, rfl, ?_, ?_⟩
  · rw [frame_length]
    rfl
  · have read := readCommand_body command (';' :: behind)
    unfold Dispatched.read
    cases type with
    | addVap => exact read 31 (by decide)
    | addVapRoam => exact read 31 (by decide)
    | delVap => exact read 28 (by decide)
    | offlineVap => exact read 28 (by decide)

end LazyAS.CommandCodec

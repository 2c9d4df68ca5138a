import LazyAS.ReportCodec
import LazyAS.TextInput
import Mathlib.Algebra.Order.BigOperators.Group.List
import Mathlib.Algebra.GroupWithZero.Nat

/-! `fnii_get_flow_info` of `fnii_roam.c`: two nested loops over what `iw dev <vif> station dump`
prints, which hand the counters of a station to `fnii_send_msg`. The inner loop ends with the second
counter it meets and with nothing else, so what a dump of several stations comes to depends on the
counters `iw` leaves out. -/
namespace LazyAS.FlowDump
open WireText TextInput ApReports ApSender ReportCodec
open CommandCodec (isHex hexNumber hex_plain)

/-! `fnii_roam.c`. -/

def LINE_LENGTH : Nat := 128

def stationFormat : List Directive :=
  literal "Station" ++ (.blank :: .hexadecimal ::
    ((List.replicate 5 [.character ':', .hexadecimal]).flatten ++
    (.blank :: (literal "(on" ++ (.blank :: literal "wlan")))))

def txFormat : List Directive :=
  .blank :: (literal "tx" ++ (.blank :: (literal "bytes:" ++ [.unsigned])))

def rxFormat : List Directive :=
  .blank :: (literal "rx" ++ (.blank :: (literal "bytes:" ++ [.unsigned])))

/-! The words a line is recognised by. -/

def stationWord : Text := "Station".toList

def txWord : Text := "\ttx bytes".toList

def rxWord : Text := "\trx bytes".toList

structure Locals where
  staMac : Fin 6 → UInt32
  stationFlowInfo : StationFlow

/-- A line that starts with `Station`: what `sscanf` does not assign is left as it was. -/
def readStation (convert : Convert) (locals : Locals) (line : Text) : Locals :=
  let values := sscanf convert stationFormat (cString line)
  let staMac := fun i : Fin 6 => (values[i.val]?).getD (locals.staMac i)
  { staMac := staMac
    stationFlowInfo := { locals.stationFlowInfo with
      stationMac := fun i => Fin.ofNat 256 (staMac i).toNat } }

/-- A line of the inner loop, with `get_info_num`. -/
def readCounter (convert : Convert) (info : StationFlow) (getInfoNum : Nat) (line : Text) :
    StationFlow × Nat :=
  if startsWith txWord line then
    ({ info with
        txByte := ((sscanf convert txFormat (cString line)).head?.map storeCounter).getD
          info.txByte },
      getInfoNum + 1)
  else if startsWith rxWord line then
    ({ info with
        rxByte := ((sscanf convert rxFormat (cString line)).head?.map storeCounter).getD
          info.rxByte },
      getInfoNum + 1)
  else (info, getInfoNum)

mutual

def outerLoop (convert : Convert) (locals : Locals) : List Text → List StationFlow
  | [] => []
  | line :: rest =>
      if startsWith stationWord line then innerLoop convert (readStation convert locals line) 0 rest
      else outerLoop convert locals rest

def innerLoop (convert : Convert) (locals : Locals) (getInfoNum : Nat) :
    List Text → List StationFlow
  | [] => []
  | line :: rest =>
      let (info, num) := readCounter convert locals.stationFlowInfo getInfoNum line
      let locals := { locals with stationFlowInfo := info }
      if num = 2 then info :: outerLoop convert locals rest else innerLoop convert locals num rest

end

def noFlow : StationFlow := ⟨fun _ => 0, storeCounter 0, storeCounter 0⟩

/-- What is handed to `fnii_send_msg`, in order; `none` is FNII_RET_ERR. `dump` is what the pipe
gives, if it opens, and `staMac` what the stack holds at the start. -/
def fniiGetFlowInfo (convert : Convert) (staMac : Fin 6 → UInt32) (dump : Option Text) :
    Option (List StationFlow) :=
  dump.map fun text => outerLoop convert ⟨staMac, noFlow⟩ (fgetsAll (LINE_LENGTH - 1) [] text)

/-! What `iw` prints. -/

structure Device where
  name : Text
  plain : ∀ c ∈ name, c ≠ '\n' ∧ c ≠ nul
  short : name.length ≤ 15

structure OtherLine where
  text : Text
  plain : ∀ c ∈ text, c ≠ '\n' ∧ c ≠ nul
  short : text.length < LINE_LENGTH - 1
  apart : ∀ word ∈ [stationWord, txWord, rxWord], ¬ word <+: text

inductive Entry where
  | tx (bytes : UInt32)
  | rx (bytes : UInt32)
  | other (line : OtherLine)

def Entry.text : Entry → Text
  | .tx bytes => txWord ++ (":\t".toList ++ zeroPad 0 bytes.toNat)
  | .rx bytes => rxWord ++ (":\t".toList ++ zeroPad 0 bytes.toNat)
  | .other line => line.text

def Entry.tx? : Entry → Option UInt32
  | .tx bytes => some bytes
  | _ => none

def Entry.rx? : Entry → Option UInt32
  | .rx bytes => some bytes
  | _ => none

/-- A station of the dump; each counter is printed once at most. -/
structure Station where
  mac : Mac
  entries : List Entry
  txOnce : (entries.filterMap Entry.tx?).length ≤ 1
  rxOnce : (entries.filterMap Entry.rx?).length ≤ 1

def colonMac (mac : Mac) : Text :=
  hexByte (mac 0) ++ (List.ofFn fun i : Fin 5 => mac i.succ).flatMap fun byte => ':' :: hexByte byte

def headerLine (device : Device) (mac : Mac) : Text :=
  stationWord ++ (" ".toList ++ (colonMac mac ++ (" (on ".toList ++ (device.name ++ ")".toList))))

def Station.lines (device : Device) (station : Station) : List Text :=
  headerLine device station.mac :: station.entries.map Entry.text

def dumpText (device : Device) (dump : List Station) : Text :=
  (dump.flatMap (Station.lines device)).flatMap (· ++ ['\n'])

def Station.counters (station : Station) : Nat :=
  (station.entries.filterMap Entry.tx?).length + (station.entries.filterMap Entry.rx?).length

def Station.complete (station : Station) : Bool := decide (station.counters = 2)

/-- A station's own report, if `iw` prints both counters for it. -/
def Station.own (station : Station) : Option StationFlow := do
  let tx ← (station.entries.filterMap Entry.tx?).head?
  let rx ← (station.entries.filterMap Entry.rx?).head?
  return flowOf station.mac tx rx

/-! One line. -/

section
variable (convert : Convert) (device : Device)

theorem hexByte_digits (byte : Fin 256) :
    isHex (Nat.digitChar (byte / 16)) ∧ isHex (Nat.digitChar (byte % 16)) ∧
      hexNumber (hexByte byte) = byte := by
  revert byte
  decide +kernel

theorem sscanf_byte (exact' : convert.Exact) (byte : Fin 256) (format : List Directive)
    (rest : Text) (ends : ∀ c ∈ rest.head?, isHex c = false) :
    sscanf convert (.hexadecimal :: format) (hexByte byte ++ rest) =
      UInt32.ofNat byte :: sscanf convert format rest := by
  obtain ⟨first, second, value⟩ := hexByte_digits byte
  have read := takeHexadecimal_pair convert exact' _ _ rest first second (by
    have small := byte.isLt
    rw [hexByte] at value
    omega) ends
  have text : hexByte byte ++ rest = Nat.digitChar (byte / 16) :: Nat.digitChar (byte % 16) ::
      rest := rfl
  rw [text, sscanf, read]
  simp only
  rw [← hexByte, value]

theorem sscanf_bytes (exact' : convert.Exact) (bytes : List (Fin 256)) (format : List Directive)
    (rest : Text) (ends : ∀ c ∈ rest.head?, isHex c = false) :
    sscanf convert ((List.replicate bytes.length [.character ':', .hexadecimal]).flatten ++ format)
      (bytes.flatMap (fun byte => ':' :: hexByte byte) ++ rest) =
      bytes.map (fun byte => UInt32.ofNat byte.val) ++ sscanf convert format rest := by
  induction bytes with
  | nil => rfl
  | cons byte bytes ih =>
      have apart : ∀ c ∈ (bytes.flatMap (fun byte => ':' :: hexByte byte) ++ rest).head?, isHex c =
          false := by
        cases bytes with
        | nil => exact ends
        | cons next bytes =>
            intro c first
            have same : ':' = c := Option.some.inj first
            rw [← same]
            decide
      have field := sscanf_byte convert exact' byte
        ((List.replicate bytes.length [.character ':', .hexadecimal]).flatten ++ format) _ apart
      rw [List.length_cons, List.replicate_succ, List.flatten_cons, List.flatMap_cons]
      simp only [List.cons_append, List.nil_append, List.append_assoc, List.map_cons]
      rw [sscanf, if_pos rfl, field, ih]

theorem sscanf_mac (exact' : convert.Exact) (mac : Mac) (rest : Text) : ∃ more,
    sscanf convert stationFormat
      (stationWord ++ (" ".toList ++ (colonMac mac ++ (" (on ".toList ++ rest)))) =
      (List.ofFn mac).map (fun byte => UInt32.ofNat byte.val) ++ more := by
  -- all six bytes of an address are assigned
  have digit : ∀ c ∈ (colonMac mac ++ (" (on ".toList ++ rest)).head?, isSpace c = false := by
    intro c first
    obtain ⟨hex, -, -⟩ := hexByte_digits (mac 0)
    have same : Nat.digitChar (mac 0 / 16) = c := Option.some.inj first
    rw [← same]
    exact (hex_plain _ hex).1
  have colon : ∀ c ∈ ((List.ofFn fun i : Fin 5 => mac i.succ).flatMap
      (fun byte => ':' :: hexByte byte) ++
      (" (on ".toList ++ rest)).head?, isHex c = false := by
    intro c first
    rw [List.ofFn_succ] at first
    have same : ':' = c := Option.some.inj first
    rw [← same]
    decide
  have blank : ∀ c ∈ (" (on ".toList ++ rest).head?, isHex c = false := by
    intro c first
    have same : ' ' = c := Option.some.inj first
    rw [← same]
    decide
  have others := sscanf_bytes convert exact' (List.ofFn fun i : Fin 5 => mac i.succ)
    (.blank :: (literal "(on" ++ (.blank :: literal "wlan"))) _ blank
  rw [List.length_ofFn] at others
  constructor
  unfold stationWord
  rw [stationFormat, sscanf_literal, sscanf_blank convert _ " ".toList _ (each_char rfl) digit,
    colonMac, List.append_assoc, sscanf_byte convert exact' _ _ _ colon, others, List.ofFn_succ,
    List.map_cons]
  rfl

/-- A line with neither an end nor a zero byte inside. -/
def Single (line : Text) : Prop := ∀ c ∈ line, c ≠ '\n' ∧ c ≠ nul

theorem single_append {first second : Text} (left : Single first) (right : Single second) :
    Single (first ++ second) := by
  intro c member
  rcases List.mem_append.mp member with inside | inside
  · exact left c inside
  · exact right c inside

theorem plain_single {text : Text} (plain : ∀ c ∈ text, Plain c) : Single text := by
  intro c member
  have visible := (plain c member).1
  constructor
  · rintro rfl
    exact absurd visible (by decide)
  · rintro rfl
    exact absurd visible (by decide)

theorem closed_single {text : Text} (all : text.all (fun c => decide (c ≠ '\n' ∧ c ≠ nul)) = true) :
    Single text :=
  each_char all

theorem headerLine_single (mac : Mac) : Single (headerLine device mac) := by
  have digits : Single (colonMac mac) := by
    apply plain_single
    intro c member
    simp only [colonMac, List.mem_append, List.mem_flatMap] at member
    rcases member with first | ⟨byte, -, colon | digit⟩
    · exact hexByte_plain _ c first
    · decide
    · next inside => exact hexByte_plain _ c inside
  exact single_append (closed_single (by decide)) (single_append (closed_single (by decide))
    (single_append digits (single_append (closed_single (by decide))
      (single_append device.plain (closed_single (by decide))))))

theorem counterLine_single (word : Text) (bytes : UInt32) (single : Single word) :
    Single (word ++ (":\t".toList ++ zeroPad 0 bytes.toNat)) :=
  single_append single (single_append (closed_single (by decide))
    (plain_single fun c member => zeroPad_plain 0 (bytes.toNat : Nat) c member))

theorem entry_single (entry : Entry) : Single entry.text := by
  cases entry with
  | tx bytes => exact counterLine_single _ bytes (closed_single (by decide))
  | rx bytes => exact counterLine_single _ bytes (closed_single (by decide))
  | other line => exact line.plain

theorem headerLine_short (mac : Mac) : (headerLine device mac).length < LINE_LENGTH - 1 := by
  have digits : (colonMac mac).length = 17 := by simp [colonMac, hexByte, List.ofFn_succ]
  have name := device.short
  simp only [headerLine, List.length_append, digits, String.length_toList]
  have station : stationWord.length = 7 := by decide
  have words : " ".length = 1 ∧ " (on ".length = 5 ∧ ")".length = 1 := by decide
  obtain ⟨blank, on, close⟩ := words
  simp only [station, blank, on, close, LINE_LENGTH]
  omega

theorem counterLine_short (word : Text) (bytes : UInt32) (size : word.length = 9) :
    (word ++ (":\t".toList ++ zeroPad 0 bytes.toNat)).length < LINE_LENGTH - 1 := by
  have small := bytes.toNat_lt
  have digits : (zeroPad 0 (bytes.toNat : Nat)).length ≤ 10 := by
    have ten := (Nat.length_toDigits_le_iff (b := 10) (n := bytes.toNat) (k := 10)
        (by decide) (by decide)).mpr
      (by omega)
    have positive : ¬ ((bytes.toNat : Int) < 0) := by omega
    simp only [zeroPad, if_neg positive, Int.natAbs_natCast, Nat.zero_sub, List.replicate_zero,
      List.nil_append]
    exact ten
  have two : ":\t".length = 2 := by decide
  simp only [List.length_append, size, String.length_toList, two, LINE_LENGTH]
  omega

theorem entry_short (entry : Entry) : entry.text.length < LINE_LENGTH - 1 := by
  cases entry with
  | tx bytes => exact counterLine_short _ bytes (by decide)
  | rx bytes => exact counterLine_short _ bytes (by decide)
  | other line => exact line.short

theorem dumpText_lines (dump : List Station) :
    fgetsAll (LINE_LENGTH - 1) [] (dumpText device dump) =
    (dump.flatMap (Station.lines device)).map (· ++ ['\n']) := by
  have each : ∀ line ∈ dump.flatMap (Station.lines device), Single line ∧
      line.length < LINE_LENGTH - 1 := by
    intro line member
    simp only [List.mem_flatMap, Station.lines, List.mem_cons, List.mem_map] at member
    obtain ⟨station, -, rfl | ⟨entry, -, rfl⟩⟩ := member
    · exact ⟨headerLine_single device _, headerLine_short device _⟩
    · exact ⟨entry_single entry, entry_short entry⟩
  apply fgetsAll_lines
  · intro line member c inside
    exact ((each line member).1 c inside).1
  · intro line member
    exact (each line member).2

theorem cString_line {line : Text} (single : Single line) :
    cString (line ++ ['\n']) = line ++ ['\n'] := by
  apply cString_plain
  intro c member
  rcases List.mem_append.mp member with inside | last
  · exact (single c inside).2
  · rw [List.mem_singleton.mp last]
    decide

theorem startsWith_line {line : Text} (word : Text) (single : Single line) :
    startsWith word (line ++ ['\n']) = word.isPrefixOf (line ++ ['\n']) := by
  rw [startsWith, cString_line single]

theorem other_apart (line : OtherLine) (word : Text) (listed : word ∈ [stationWord, txWord,
    rxWord]) : startsWith word (line.text ++ ['\n']) = false := by
  rw [startsWith_line word line.plain, Bool.eq_false_iff]
  intro starts
  rcases List.prefix_concat_iff.mp (List.isPrefixOf_iff_prefix.mp starts) with whole | inside
  · have ended : ∀ text ∈ [stationWord, txWord, rxWord], '\n' ∉ text := by decide
    apply ended word listed
    rw [whole]
    simp
  · exact line.apart word listed inside

/-- What an entry changes of `station_flow_info`. -/
def Entry.applied (info : StationFlow) : Entry → StationFlow
  | .tx bytes => { info with txByte := storeCounter bytes }
  | .rx bytes => { info with rxByte := storeCounter bytes }
  | .other _ => info

def Entry.count : Entry → Nat
  | .tx _ => 1
  | .rx _ => 1
  | .other _ => 0

theorem counter_value (exact' : convert.Exact) (word : String) (bytes : UInt32)
    (solid : ∀ c ∈ (word.toList ++ ([' '] ++ ("bytes:".toList ++ ['\t']))).head?,
      isSpace c = false) :
    (sscanf convert (.blank :: (literal word ++ (.blank :: (literal "bytes:" ++ [.unsigned]))))
      ('\t' :: (word.toList ++
        ([' '] ++ ("bytes:".toList ++ (['\t'] ++ (zeroPad 0 bytes.toNat ++ ['\n']))))))) =
      [bytes] := by
  have start : ∀ c ∈ (word.toList ++
      ([' '] ++ ("bytes:".toList ++ (['\t'] ++ (zeroPad 0 bytes.toNat ++
      ['\n']))))).head?, isSpace c = false := by
    cases letters : word.toList with
    | nil =>
        rw [letters] at solid
        exact absurd (solid ' ' rfl) (by decide)
    | cons c rest =>
        rw [letters] at solid
        intro d first
        exact solid d first
  have ends : ∀ c ∈ ['\n'].head?, c.isDigit = false := by
    intro c first
    have same : '\n' = c := Option.some.inj first
    rw [← same]
    decide
  have number := takeUnsigned_printed convert exact' ['\t'] ['\n'] (each_char rfl) bytes ends
  have tab := sscanf_blank convert (literal word ++ (.blank :: (literal "bytes:" ++ [.unsigned])))
      ['\t'] _
    (each_char rfl) start
  have gap := sscanf_blank convert (literal "bytes:" ++ [.unsigned]) [' ']
    ("bytes:".toList ++ (['\t'] ++ (zeroPad 0 bytes.toNat ++ ['\n']))) (each_char rfl) (by
      intro c first
      have same : 'b' = c := Option.some.inj first
      rw [← same]
      decide)
  rw [List.singleton_append] at tab
  rw [tab, sscanf_literal, gap, sscanf_literal, sscanf, number]
  rfl

theorem counterLine_split (word rest : Text) (letters : String)
    (spelled : word ++ ":\t".toList = '\t' ::
      (letters.toList ++ ([' '] ++ ("bytes:".toList ++ ['\t'])))) :
    word ++ (":\t".toList ++ rest) ++ ['\n'] =
      '\t' :: (letters.toList ++ ([' '] ++ ("bytes:".toList ++ (['\t'] ++ (rest ++ ['\n']))))) := by
  rw [← List.append_assoc word, spelled]
  simp only [List.cons_append, List.append_assoc]

theorem rx_not_tx (rest : Text) : txWord.isPrefixOf (rxWord ++ rest) = false := rfl

theorem readCounter_entry (exact' : convert.Exact) (info : StationFlow) (num : Nat)
    (entry : Entry) :
    readCounter convert info num (entry.text ++ ['\n']) =
      (entry.applied info, num + entry.count) := by
  -- a line of the inner loop does what its entry says
  cases entry with
  | tx bytes =>
      have single := entry_single (.tx bytes)
      have value := counter_value convert exact' "tx" bytes (by
        intro c first
        have same : 't' = c := Option.some.inj first
        rw [← same]
        decide)
      have starts : startsWith txWord ((Entry.tx bytes).text ++ ['\n']) = true := by
        rw [startsWith_line _ single, Entry.text, List.append_assoc]
        exact List.isPrefixOf_iff_prefix.mpr (List.prefix_append _ _)
      unfold readCounter
      rw [if_pos starts, cString_line single, txFormat]
      simp only [Entry.applied, Entry.count, Prod.mk.injEq, and_true]
      rw [Entry.text, counterLine_split txWord (zeroPad 0 bytes.toNat) "tx" (by decide), value]
      rfl
  | rx bytes =>
      have single := entry_single (.rx bytes)
      have value := counter_value convert exact' "rx" bytes (by
        intro c first
        have same : 'r' = c := Option.some.inj first
        rw [← same]
        decide)
      have apart : ¬ startsWith txWord ((Entry.rx bytes).text ++ ['\n']) = true := by
        rw [startsWith_line _ single, Entry.text, List.append_assoc, rx_not_tx]
        exact Bool.false_ne_true
      have starts : startsWith rxWord ((Entry.rx bytes).text ++ ['\n']) = true := by
        rw [startsWith_line _ single, Entry.text, List.append_assoc]
        exact List.isPrefixOf_iff_prefix.mpr (List.prefix_append _ _)
      unfold readCounter
      rw [if_neg apart, if_pos starts, cString_line single, rxFormat]
      simp only [Entry.applied, Entry.count, Prod.mk.injEq, and_true]
      rw [Entry.text, counterLine_split rxWord (zeroPad 0 bytes.toNat) "rx" (by decide), value]
      rfl
  | other line =>
      unfold readCounter
      rw [Entry.text, other_apart line _ (by simp), other_apart line _ (by simp)]
      rfl

theorem header_starts (mac : Mac) :
    startsWith stationWord (headerLine device mac ++ ['\n']) = true := by
  rw [startsWith_line _ (headerLine_single device mac), headerLine, List.append_assoc]
  exact List.isPrefixOf_iff_prefix.mpr (List.prefix_append _ _)

theorem readStation_header (exact' : convert.Exact) (locals : Locals) (mac : Mac) :
    (readStation convert locals (headerLine device mac ++ ['\n'])).stationFlowInfo =
      { locals.stationFlowInfo with stationMac := mac } := by
  obtain ⟨more, values⟩ := sscanf_mac convert exact' mac (device.name ++ (")".toList ++ ['\n']))
  have text : headerLine device mac ++ ['\n'] = stationWord ++
      (" ".toList ++ (colonMac mac ++ (" (on ".toList ++
      (device.name ++ (")".toList ++ ['\n']))))) := by
    rw [headerLine]
    simp only [List.append_assoc]
  have assigned (i : Fin 6) :
      ((List.ofFn mac).map (fun byte => UInt32.ofNat byte.val) ++ more)[i.val]? =
      some (UInt32.ofNat (mac i)) := by
    rw [List.getElem?_append_left (by simp), List.getElem?_map, List.getElem?_ofFn, dif_pos i.isLt]
    rfl
  unfold readStation
  rw [cString_line (headerLine_single device mac), text, values]
  simp only [StationFlow.mk.injEq, and_true]
  funext i
  rw [assigned i, Option.getD_some]
  have small := (mac i).isLt
  apply Fin.ext
  rw [Fin.ofNat_eq_cast, Fin.val_natCast, UInt32.toNat_ofNat']
  omega

theorem header_not_counter (word rest : Text) (listed : word ∈ [txWord, rxWord]) :
    word.isPrefixOf (stationWord ++ rest) = false := by
  simp only [List.mem_cons, List.not_mem_nil, or_false] at listed
  rcases listed with rfl | rfl
  · rfl
  · rfl

theorem entry_not_header (entry : Entry) :
    startsWith stationWord (entry.text ++ ['\n']) = false := by
  cases entry with
  | tx bytes =>
      rw [startsWith_line _ (entry_single (.tx bytes)), Entry.text, List.append_assoc]
      rfl
  | rx bytes =>
      rw [startsWith_line _ (entry_single (.rx bytes)), Entry.text, List.append_assoc]
      rfl
  | other line => exact other_apart line stationWord (by simp)

/-! The loops over any lines. -/

def isCounter (line : Text) : Bool := startsWith txWord line || startsWith rxWord line

theorem readCounter_num (info : StationFlow) (num : Nat) (line : Text) :
    (readCounter convert info num line).2 = num + (if isCounter line then 1 else 0) ∧
      (readCounter convert info num line).1.stationMac = info.stationMac := by
  unfold readCounter isCounter
  by_cases tx : startsWith txWord line
  · simp [tx]
  · by_cases rx : startsWith rxWord line
    · simp [tx, rx]
    · simp [tx, rx]

theorem innerLoop_few (locals : Locals) (num : Nat) (lines : List Text)
    (few : num + lines.countP isCounter < 2) : innerLoop convert locals num lines = [] := by
  induction lines generalizing locals num with
  | nil => rfl
  | cons line lines ih =>
      obtain ⟨counted, -⟩ := readCounter_num convert locals.stationFlowInfo num line
      rw [List.countP_cons] at few
      unfold innerLoop
      simp only [counted]
      rw [if_neg (by omega)]
      apply ih
      omega

theorem innerLoop_many (locals : Locals) (num : Nat) (lines : List Text) (below : num < 2)
    (many : 2 ≤ num + lines.countP isCounter) : ∃ info later,
    innerLoop convert locals num lines = info :: later ∧
      info.stationMac = locals.stationFlowInfo.stationMac := by
  -- with two or more the station the loop is at is the next one sent
  induction lines generalizing locals num with
  | nil =>
      simp only [List.countP_nil] at many
      omega
  | cons line lines ih =>
      obtain ⟨counted, mac⟩ := readCounter_num convert locals.stationFlowInfo num line
      rw [List.countP_cons] at many
      unfold innerLoop
      simp only [counted]
      by_cases second : num + (if isCounter line then 1 else 0) = 2
      · rw [if_pos second]
        exact ⟨_, _, rfl, mac⟩
      · rw [if_neg second]
        have step : (if isCounter line then 1 else 0) ≤ 1 := by
          split
          · exact Nat.le_refl 1
          · exact Nat.zero_le 1
        obtain ⟨info, later, sent, same⟩ := ih
          { locals with stationFlowInfo := (readCounter convert locals.stationFlowInfo num line).1 }
          (num + (if isCounter line then 1 else 0)) (by omega) (by omega)
        exact ⟨info, later, sent, same.trans mac⟩

/-! The loops over the entries of a station. -/

def entryLines (entries : List Entry) : List Text := entries.map fun entry => entry.text ++ ['\n']

def countEntries (entries : List Entry) : Nat := (entries.map Entry.count).sum

def applyEntries (info : StationFlow) (entries : List Entry) : StationFlow :=
  entries.foldl Entry.applied info

theorem outerLoop_entries (locals : Locals) (entries : List Entry) (rest : List Text) :
    outerLoop convert locals (entryLines entries ++ rest) = outerLoop convert locals rest := by
  induction entries with
  | nil => rfl
  | cons entry entries ih =>
      rw [entryLines, List.map_cons, List.cons_append, outerLoop,
        if_neg (by simp [entry_not_header])]
      exact ih

theorem applyEntries_none (info : StationFlow) (entries : List Entry)
    (none' : countEntries entries = 0) :
    applyEntries info entries = info := by
  induction entries generalizing info with
  | nil => rfl
  | cons entry entries ih =>
      rw [countEntries, List.map_cons, List.sum_cons, Nat.add_eq_zero_iff] at none'
      have same : entry.applied info = info := by
        cases entry with
        | tx bytes => exact absurd none'.1 Nat.one_ne_zero
        | rx bytes => exact absurd none'.1 Nat.one_ne_zero
        | other line => rfl
      rw [applyEntries, List.foldl_cons, same]
      exact ih info none'.2

theorem innerLoop_entries (exact' : convert.Exact) (locals : Locals) (num : Nat)
    (entries : List Entry) (rest : List Text) (below : num < 2)
    (both : num + countEntries entries = 2) : ∃ after,
    innerLoop convert locals num (entryLines entries ++ rest) =
      applyEntries locals.stationFlowInfo entries :: outerLoop convert after rest := by
  -- the inner loop leaves with the second counter of a station that has both
  induction entries generalizing locals num with
  | nil =>
      rw [countEntries, List.map_nil, List.sum_nil] at both
      omega
  | cons entry entries ih =>
      rw [countEntries, List.map_cons, List.sum_cons] at both
      rw [entryLines, List.map_cons, List.cons_append, innerLoop]
      simp only [readCounter_entry convert exact']
      by_cases second : num + entry.count = 2
      · have none' : countEntries entries = 0 := by
          rw [countEntries]
          omega
        rw [if_pos second, applyEntries, List.foldl_cons]
        have kept := applyEntries_none (entry.applied locals.stationFlowInfo) entries none'
        rw [applyEntries] at kept
        rw [kept]
        exact ⟨_, congrArg _ (outerLoop_entries convert _ entries rest)⟩
      · rw [if_neg second, applyEntries, List.foldl_cons]
        have step : entry.count ≤ 1 := by
          cases entry with
          | tx bytes => exact Nat.le_refl 1
          | rx bytes => exact Nat.le_refl 1
          | other line => exact Nat.zero_le 1
        exact ih { locals with stationFlowInfo := entry.applied locals.stationFlowInfo }
          (num + entry.count)
          (by omega) (by rw [countEntries]; omega)

/-! Dumps. -/

def dumpLines (dump : List Station) : List Text :=
  (dump.flatMap (Station.lines device)).map (· ++ ['\n'])

def totalCounters (dump : List Station) : Nat := (dump.map Station.counters).sum

theorem dumpLines_cons (station : Station) (dump : List Station) :
    dumpLines device (station :: dump) =
    (headerLine device station.mac ++ ['\n']) ::
      (entryLines station.entries ++ dumpLines device dump) := by
  simp only [dumpLines, Station.lines, entryLines, List.flatMap_cons, List.map_append,
    List.map_cons, List.map_map, List.cons_append, Function.comp_def]

theorem countEntries_split (entries : List Entry) : countEntries entries =
    (entries.filterMap Entry.tx?).length + (entries.filterMap Entry.rx?).length := by
  induction entries with
  | nil => rfl
  | cons entry entries ih =>
      rw [countEntries, List.map_cons, List.sum_cons]
      rw [countEntries] at ih
      rw [ih]
      cases entry with
      | tx bytes =>
          simp only [List.filterMap_cons, Entry.tx?, Entry.rx?, Entry.count, List.length_cons]
          omega
      | rx bytes =>
          simp only [List.filterMap_cons, Entry.tx?, Entry.rx?, Entry.count, List.length_cons]
          omega
      | other line =>
          simp only [List.filterMap_cons, Entry.tx?, Entry.rx?, Entry.count]
          omega

theorem entry_isCounter (entry : Entry) :
    (if isCounter (entry.text ++ ['\n']) then 1 else 0) = entry.count := by
  have counted := readCounter_num (fun _ => UInt32.ofNat) noFlow 0 (entry.text ++ ['\n'])
  have same := readCounter_entry (fun _ => UInt32.ofNat) (fun _ _ => rfl) noFlow 0 entry
  rw [same] at counted
  omega

theorem header_isCounter (mac : Mac) : isCounter (headerLine device mac ++ ['\n']) = false := by
  unfold isCounter
  rw [startsWith_line _ (headerLine_single device mac),
    startsWith_line _ (headerLine_single device mac), headerLine, List.append_assoc,
    header_not_counter _ _ (by simp), header_not_counter _ _ (by simp)]
  rfl

theorem dumpLines_counters (dump : List Station) :
    (dumpLines device dump).countP isCounter = totalCounters dump := by
  have entries (entries : List Entry) : (entryLines entries).countP isCounter =
      countEntries entries := by
    induction entries with
    | nil => rfl
    | cons entry entries ih =>
        rw [entryLines, List.map_cons, List.countP_cons, entry_isCounter, countEntries,
          List.map_cons, List.sum_cons, Nat.add_comm]
        exact congrArg _ ih
  induction dump with
  | nil => rfl
  | cons station dump ih =>
      rw [dumpLines_cons, List.countP_cons_of_neg
        (by simp [header_isCounter]), List.countP_append, entries, ih, countEntries_split]
      simp [totalCounters, Station.counters]

theorem last_stored (bytes : UInt32) (others : List UInt32) (old : Int32Value) :
    ((bytes :: others).getLast?.map storeCounter).getD old =
      (others.getLast?.map storeCounter).getD (storeCounter bytes) := by
  cases others with
  | nil => rfl
  | cons next others =>
      rw [List.getLast?_cons_cons, List.getLast?_eq_some_getLast (List.cons_ne_nil next others)]
      rfl

theorem applyEntries_fields (info : StationFlow) (entries : List Entry) :
    applyEntries info entries =
    { stationMac := info.stationMac
      rxByte := ((entries.filterMap Entry.rx?).getLast?.map storeCounter).getD info.rxByte
      txByte := ((entries.filterMap Entry.tx?).getLast?.map storeCounter).getD info.txByte } := by
  induction entries generalizing info with
  | nil => rfl
  | cons entry entries ih =>
      have rest := ih (entry.applied info)
      rw [applyEntries] at rest
      rw [applyEntries, List.foldl_cons, rest]
      cases entry with
      | tx bytes =>
          simp only [Entry.applied, List.filterMap_cons, Entry.tx?, Entry.rx?, last_stored]
      | rx bytes =>
          simp only [Entry.applied, List.filterMap_cons, Entry.tx?, Entry.rx?, last_stored]
      | other line => simp only [Entry.applied, List.filterMap_cons, Entry.tx?, Entry.rx?]

theorem complete_own (station : Station) (complete : station.complete = true) (info : StationFlow)
    (mac : info.stationMac = station.mac) :
    station.own = some (applyEntries info station.entries) := by
  have two : station.counters = 2 := of_decide_eq_true complete
  have once := station.txOnce
  have once' := station.rxOnce
  unfold Station.counters at two
  obtain ⟨tx, oneTx⟩ := List.length_eq_one_iff.mp
    (show (station.entries.filterMap Entry.tx?).length = 1 by omega)
  obtain ⟨rx, oneRx⟩ := List.length_eq_one_iff.mp
    (show (station.entries.filterMap Entry.rx?).length = 1 by omega)
  rw [applyEntries_fields, Station.own, oneTx, oneRx, mac]
  rfl

theorem incomplete_own (station : Station) (incomplete : station.complete = false) :
    station.own = none := by
  have notTwo : station.counters ≠ 2 := of_decide_eq_false incomplete
  have once := station.txOnce
  have once' := station.rxOnce
  unfold Station.counters at notTwo
  unfold Station.own
  by_cases noTx : station.entries.filterMap Entry.tx? = []
  · rw [noTx]
    rfl
  · have oneTx := List.length_pos_iff.mpr noTx
    have noRx : station.entries.filterMap Entry.rx? = [] := List.length_eq_zero_iff.mp (by omega)
    rw [noRx]
    cases (station.entries.filterMap Entry.tx?).head? with
    | none => rfl
    | some tx => rfl

theorem own_mac (station : Station) (info : StationFlow) (own : station.own = some info) :
    info.stationMac = station.mac := by
  cases complete : station.complete with
  | false =>
      rw [incomplete_own station complete] at own
      exact absurd own (by simp)
  | true =>
      rw [complete_own station complete { noFlow with stationMac := station.mac } rfl] at own
      rw [← Option.some.inj own, applyEntries_fields]

theorem loops_own_iff (exact' : convert.Exact) (locals : Locals) (dump : List Station)
    (distinct : (dump.map Station.mac).Nodup) :
    outerLoop convert locals (dumpLines device dump) = dump.filterMap Station.own ↔
      totalCounters (dump.dropWhile Station.complete) ≤ 1 := by
  -- the loops from any state of their variables
  induction dump generalizing locals with
  | nil => simp [dumpLines, outerLoop, totalCounters]
  | cons station dump ih =>
      obtain ⟨fresh, others⟩ := List.nodup_cons.mp distinct
      have info := readStation_header convert device exact' locals station.mac
      rw [dumpLines_cons, outerLoop, if_pos (header_starts device station.mac)]
      cases complete : station.complete with
      | true =>
          have two : 0 + countEntries station.entries = 2 := by
            rw [countEntries_split, Nat.zero_add]
            exact of_decide_eq_true complete
          obtain ⟨after, sent⟩ := innerLoop_entries convert exact'
            (readStation convert locals (headerLine device station.mac ++ ['\n'])) 0 station.entries
            (dumpLines device dump) (by decide) two
          rw [sent, List.filterMap_cons_some (complete_own station complete
            (readStation convert locals (headerLine device station.mac ++ ['\n'])).stationFlowInfo
              (by rw [info])),
            List.dropWhile_cons_of_pos complete, List.cons_inj_right]
          exact ih after others
      | false =>
          rw [List.filterMap_cons_none (incomplete_own station complete),
            List.dropWhile_cons_of_neg (by simp [complete])]
          have whole := dumpLines_counters device (station :: dump)
          rw [dumpLines_cons, List.countP_cons_of_neg (by simp [header_isCounter])] at whole
          constructor
          · intro same
            by_contra more
            obtain ⟨first, later, sent, mac⟩ := innerLoop_many convert
              (readStation convert locals (headerLine device station.mac ++ ['\n'])) 0
              (entryLines station.entries ++ dumpLines device dump) (by decide) (by omega)
            rw [sent] at same
            have member : first ∈ dump.filterMap Station.own := by
              rw [← same]
              exact List.mem_cons_self
            obtain ⟨other, inside, own⟩ := List.mem_filterMap.mp member
            apply fresh
            rw [List.mem_map]
            exact ⟨other, inside, by rw [← own_mac other first own, mac, info]⟩
          · intro few
            rw [innerLoop_few convert _ 0 _ (by omega)]
            symm
            rw [List.filterMap_eq_nil_iff]
            intro other inside
            apply incomplete_own
            have part : other.counters ≤ (dump.map Station.counters).sum :=
              List.le_sum_of_mem (List.mem_map.mpr ⟨other, inside, rfl⟩)
            simp only [totalCounters, List.map_cons, List.sum_cons] at few
            simp only [Station.complete, decide_eq_false_iff_not]
            omega

/-- Every station with both counters is reported with its own and no other report is sent, exactly
when fewer than two counters follow the first station that lacks one. -/
theorem flows_own_iff (exact' : convert.Exact) (staMac : Fin 6 → UInt32) (dump : List Station)
    (distinct : (dump.map Station.mac).Nodup) :
    fniiGetFlowInfo convert staMac (some (dumpText device dump)) =
      some (dump.filterMap Station.own) ↔
      totalCounters (dump.dropWhile Station.complete) ≤ 1 := by
  rw [fniiGetFlowInfo, Option.map_some, dumpText_lines, Option.some_inj]
  exact loops_own_iff convert device exact' ⟨staMac, noFlow⟩ dump distinct

end

def wlan1 : Device := ⟨"wlan1".toList, closed_single (by decide), by decide⟩

def authorized : OtherLine :=
  ⟨"\tauthorized:\tyes".toList, closed_single (by decide), by decide, by decide⟩

def talking : Station :=
  ⟨fun _ => 16, [.rx 2000, .other authorized, .tx 1000], by decide, by decide⟩

def silent : Station := ⟨fun _ => 32, [.other authorized], by decide, by decide⟩

/-- With the silent station last both are reported as they should, with it first they are not. -/
theorem flows_own_two : ([talking, silent].map Station.mac).Nodup ∧
    fniiGetFlowInfo (fun _ => UInt32.ofNat) (fun _ => 7) (some (dumpText wlan1 [talking, silent])) =
      some ([talking, silent].filterMap Station.own) ∧
    fniiGetFlowInfo (fun _ => UInt32.ofNat) (fun _ => 7) (some (dumpText wlan1 [silent, talking])) ≠
      some ([silent, talking].filterMap Station.own) := by
  have apart : (fun _ => 16 : Mac) ≠ fun _ => 32 := by
    intro same
    exact absurd (congrFun same 0) (by decide)
  have distinct : ([talking, silent].map Station.mac).Nodup := by simp [talking, silent, apart]
  have distinct' : ([silent, talking].map Station.mac).Nodup := by simp [talking, silent,
      apart.symm]
  refine ⟨distinct, ?_, ?_⟩
  · exact (flows_own_iff (fun _ => UInt32.ofNat) wlan1 (fun _ _ => rfl) (fun _ => 7) _ distinct).mpr
      (by decide)
  · intro same
    have few := (flows_own_iff (fun _ => UInt32.ofNat) wlan1 (fun _ _ => rfl)
        (fun _ => 7) _ distinct').mp same
    exact absurd few (by decide)

/-! What the controller reads of them. -/

section
variable (getApAu : Int → Int) (convert : Convert) (device : Device)

/-- The bytes `fnii_send_msg` gets through for the reports of one dump. -/
def sendFlows (sender : Sender) : List StationFlow → List Text
  | [] => []
  | info :: rest =>
      let sent := fniiSendMsg getApAu sender (.flowInfo info) true
      sent.offered.toList ++ sendFlows sent.sender rest

/-- What `processMsgFlowInfo` takes from the bytes of one report. -/
def readFlow (bytes : Text) : Option (Text × Int × Int) := do
  let message ← received (.bytes bytes)
  let (staMacAddr, upTraffic, downTraffic) ← takeFlow message
  return (staMacAddr, upTraffic.toInt, downTraffic.toInt)

def Station.shown (station : Station) : Option (Text × Int × Int) := do
  let tx ← (station.entries.filterMap Entry.tx?).head?
  let rx ← (station.entries.filterMap Entry.rx?).head?
  return (macText station.mac, (tx.toNat : Int), (rx.toNat : Int))

def Station.Small (station : Station) : Prop :=
  (∀ tx ∈ station.entries.filterMap Entry.tx?, tx.toNat < 2 ^ 31) ∧
    ∀ rx ∈ station.entries.filterMap Entry.rx?, rx.toNat < 2 ^ 31

theorem sendFlows_read (sender : Sender) (enabled : sender.enabled = true)
    (flows : List StationFlow) :
    (sendFlows getApAu sender flows).map readFlow =
      flows.map fun info => some (macText info.stationMac, info.txByte.val, info.rxByte.val) := by
  -- every report arrives with the fields it was sent with
  induction flows generalizing sender with
  | nil => rfl
  | cons info flows ih =>
      obtain ⟨message, arrives, taken⟩ := flow_frame (counted sender) info
      obtain ⟨pad, bytes⟩ := arrives.sent
      have reaches : fniiSendMsg getApAu sender (.flowInfo info) true =
          finish true (counted sender, fniiSendMsgFlowInfo (counted sender) info) := by
        rcases fniiSendMsg_enabled getApAu sender enabled (.flowInfo info) true with ⟨-, illegal⟩ |
            ⟨ends, -⟩
        · exact absurd illegal (by simp [Message.type, Message.isNull])
        · exact ends
      rw [bytes] at reaches
      have value (counter : Int32Value) : (Int64.ofInt counter.val).toInt = counter.val :=
        Int64.toInt_ofInt_of_le (by have := counter.2; omega) (by have := counter.2; omega)
      have read : readFlow (message ++ ';' :: List.replicate pad nul) =
          some (macText info.stationMac, info.txByte.val, info.rxByte.val) := by
        have job := arrives.job
        rw [bytes] at job
        unfold readFlow
        rw [job]
        simp only [Option.bind_eq_bind, Option.bind_some, taken, value]
        rfl
      have others := ih (counted sender) enabled
      unfold sendFlows
      rw [reaches]
      simp only [finish, if_true, Option.toList_some, List.map_append, List.map_cons, List.map_nil,
        read]
      rw [others]
      rfl

theorem own_shown (station : Station) (complete : station.complete = true) : ∃ tx rx,
    station.own = some (flowOf station.mac tx rx) ∧
      station.shown = some (macText station.mac, (tx.toNat : Int), (rx.toNat : Int)) ∧
      (station.Small ↔ tx.toNat < 2 ^ 31 ∧ rx.toNat < 2 ^ 31) := by
  have two : station.counters = 2 := of_decide_eq_true complete
  have once := station.txOnce
  have once' := station.rxOnce
  unfold Station.counters at two
  obtain ⟨tx, oneTx⟩ := List.length_eq_one_iff.mp
    (show (station.entries.filterMap Entry.tx?).length = 1 by omega)
  obtain ⟨rx, oneRx⟩ := List.length_eq_one_iff.mp
    (show (station.entries.filterMap Entry.rx?).length = 1 by omega)
  refine ⟨tx, rx, ?_, ?_, ?_⟩
  · rw [Station.own, oneTx, oneRx]
    rfl
  · rw [Station.shown, oneTx, oneRx]
    rfl
  · rw [Station.Small, oneTx, oneRx]
    simp

theorem shown_complete (station : Station) (shown : station.shown.isSome) :
    station.complete = true := by
  cases complete : station.complete with
  | true => rfl
  | false =>
      have none' := incomplete_own station complete
      unfold Station.own at none'
      unfold Station.shown at shown
      cases tx : (station.entries.filterMap Entry.tx?).head? with
      | none =>
          rw [tx] at shown
          exact absurd shown Bool.false_ne_true
      | some bytes =>
          cases rx : (station.entries.filterMap Entry.rx?).head? with
          | none =>
              rw [tx, rx] at shown
              exact absurd shown Bool.false_ne_true
          | some bytes' =>
              rw [tx, rx] at none'
              exact absurd none' (by simp)

/-- From the text of `iw` to the controller's handler: over a working link the controller reads the
counters shown for each station, in their order and with nothing else, exactly when every station of
the dump has both and none has reached 2 GiB. -/
theorem dump_read_iff (exact' : convert.Exact) (staMac : Fin 6 → UInt32) (sender : Sender)
    (enabled : sender.enabled = true) (dump : List Station)
    (distinct : (dump.map Station.mac).Nodup) :
    (fniiGetFlowInfo convert staMac (some (dumpText device dump))).map
        (fun flows => (sendFlows getApAu sender flows).map readFlow) =
          some (dump.map Station.shown) ↔
      ∀ station ∈ dump, station.complete = true ∧ station.Small := by
  have reports := loops_own_iff convert device exact' ⟨staMac, noFlow⟩ dump distinct
  rw [fniiGetFlowInfo, Option.map_some, Option.map_some, dumpText_lines, Option.some_inj]
  rw [dumpLines] at reports
  have whole (complete : ∀ station ∈ dump, station.complete = true) :
      totalCounters (dump.dropWhile Station.complete) ≤ 1 := by
    rw [List.dropWhile_eq_nil_iff.mpr complete]
    exact Nat.zero_le 1
  rw [sendFlows_read getApAu sender enabled]
  -- reports are read as something, so that both sides put every station among the complete ones
  have each (complete : ∀ station ∈ dump, station.complete = true) :
      (outerLoop convert ⟨staMac, noFlow⟩
        ((dump.flatMap (Station.lines device)).map (· ++ ['\n']))).map
          (fun info => some (macText info.stationMac, info.txByte.val, info.rxByte.val)) =
            dump.map Station.shown ↔
        ∀ station ∈ dump, station.Small := by
    rw [reports.mpr (whole complete)]
    clear reports whole distinct
    induction dump with
    | nil => simp
    | cons station dump ih =>
        obtain ⟨tx, rx, own, shown, small⟩ :=
          own_shown station (complete station List.mem_cons_self)
        have rest := ih fun other member => complete other (List.mem_cons_of_mem _ member)
        rw [List.filterMap_cons_some own, List.map_cons, List.map_cons, List.cons_eq_cons, rest,
          shown, List.forall_mem_cons, small, ← storeCounter_value tx, ← storeCounter_value rx]
        simp [flowOf]
  constructor
  · intro same
    have complete : ∀ station ∈ dump, station.complete = true := by
      intro station member
      have inside : station.shown ∈ dump.map Station.shown := List.mem_map_of_mem member
      rw [← same] at inside
      obtain ⟨info, -, read⟩ := List.mem_map.mp inside
      exact shown_complete station (by rw [← read]; rfl)
    intro station member
    exact ⟨complete station member, (each complete).mp same station member⟩
  · intro all
    exact (each fun station member => (all station member).1).mpr fun station member =>
      (all station member).2

end

theorem dump_read_talking : ([talking].map Station.mac).Nodup ∧
    (fniiGetFlowInfo (fun _ => UInt32.ofNat) (fun _ => 7) (some (dumpText wlan1 [talking]))).map
        (fun flows => (sendFlows (fun _ => 0) { enabled := true } flows).map readFlow) =
      some [some ("101010101010".toList, 1000, 2000)] := by
  have distinct : ([talking].map Station.mac).Nodup := List.nodup_singleton _
  have read := (dump_read_iff (fun _ => 0) (fun _ => UInt32.ofNat) wlan1 (fun _ _ => rfl)
      (fun _ => 7)
    { enabled := true } rfl [talking] distinct).mpr (by
      intro station member
      rw [List.mem_singleton.mp member]
      exact ⟨by decide, by simp [talking, Entry.tx?], by simp [talking, Entry.rx?]⟩)
  exact ⟨distinct, read⟩

end LazyAS.FlowDump

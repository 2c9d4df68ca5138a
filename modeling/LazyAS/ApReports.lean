import LazyAS.WireText
import Mathlib.Data.List.OfFn

/-! The reports of an AP: what the `fnii_send_msg_*` functions put on the connection.
Each sender formats its text into a zeroed buffer and sends a fixed number of bytes of
it; what an over-long text does to the memory behind the buffer is not modelled. -/
namespace LazyAS.ApReports
open WireText

instance byteValues : NeZero (256 : Nat) := ⟨by decide⟩

abbrev Mac := Fin 6 → Fin 256

def hexByte (byte : Fin 256) : Text := [Nat.digitChar (byte / 16), Nat.digitChar (byte % 16)]

def macText (mac : Mac) : Text := (List.ofFn mac).flatMap hexByte

/-- A network name as the senders accept it, without blanks and semicolons. -/
structure Ssid where
  text : Text
  short : text.length ≤ 31
  printable : ∀ c ∈ text, 33 ≤ c.toNat ∧ c.toNat ≤ 126 ∧ c ≠ ';'

/-- The four bytes of a controller frame's id that a reply copies. -/
structure ReplyId where
  text : Text
  digits : text.length = 4 ∧ ∀ c ∈ text, c.isDigit

abbrev Int32Value := { value : Int // -(2 ^ 31) ≤ value ∧ value < 2 ^ 31 }

abbrev Rssi := { value : Int // -99 ≤ value ∧ value ≤ 999 }

/-- What the AP reports. An `idf` is `fnii_msg_idf % 9999`; a channel above 200 is
never sent, and the work mode follows from the channel. -/
inductive Report where
  | newSta (idf : Fin 9999) (sta ap : Mac) (ssid : Ssid)
  | delSta (idf : Fin 9999) (sta ap : Mac) (ssid : Ssid)
  | flowInfo (idf : Fin 9999) (sta : Mac) (tx rx : Int32Value)
  | probeInfo (idf : Fin 9999) (sta : Mac) (rssi : Rssi) (au : Int) (channel : Fin 201)
  | beat (cseq : Fin 9999)
  | ok (idf : ReplyId)
  | err (idf : ReplyId)

def Report.idText : Report → Text
  | .newSta idf _ _ _ | .delSta idf _ _ _ | .flowInfo idf _ _ _ | .probeInfo idf _ _ _ _
  | .beat idf => zeroPad 4 idf.val
  | .ok idf | .err idf => idf.text

def Report.typeText : Report → Text
  | .newSta .. => ['1', '0', '4']
  | .delSta .. => ['1', '0', '5']
  | .flowInfo .. => ['1', '0', '6']
  | .probeInfo .. => ['1', '0', '7']
  | .beat .. => ['1', '1', '0']
  | .ok .. => ['1', '0', '0']
  | .err .. => ['1', '0', '1']

def Report.lengthText : Report → Text
  | .newSta _ _ _ ssid | .delSta _ _ _ ssid => zeroPad 3 (30 + ssid.text.length : Nat)
  | .flowInfo .. => ['0', '5', '0']
  | .probeInfo .. => ['0', '3', '2']
  | .beat .. => ['0', '0', '0']
  | .ok .. => ['0', '0', '2']
  | .err .. => ['0', '0', '3']

def stationText (sta ap : Mac) (ssid : Ssid) : Text :=
  ['1', '2'] ++ macText sta ++ ['1', '2'] ++ macText ap ++ zeroPad 2 ssid.text.length ++ ssid.text

def workMode (channel : Fin 201) : Text := if 36 ≤ channel.val then ['1'] else ['0']

def Report.body : Report → Text
  | .newSta _ sta ap ssid | .delSta _ sta ap ssid => stationText sta ap ssid
  | .flowInfo _ sta tx rx =>
      ['1', '2'] ++ macText sta ++ ['1', '6'] ++ zeroPad 16 tx.val ++ ['1', '6'] ++
        zeroPad 16 rx.val
  | .probeInfo _ sta rssi au channel =>
      ['1', '2'] ++ macText sta ++ ['0', '3'] ++ zeroPad 3 rssi.val ++ ['0', '3'] ++ zeroPad 3 au ++
        ['0', '3'] ++ zeroPad 3 channel.val ++ ['0', '1'] ++ workMode channel
  | .beat _ => []
  | .ok _ => ['O', 'K']
  | .err _ => ['E', 'R', 'R']

def Report.message (report : Report) : Text :=
  report.idText ++ (report.typeText ++ (report.lengthText ++ report.body))

/-- The number of bytes the sender hands to `send`. -/
def Report.sentLength : Report → Nat
  | .newSta .. | .delSta .. => 81
  | .flowInfo .. => 61
  | .probeInfo .. => 43
  | .beat .. => 11
  | .ok .. => 13
  | .err .. => 14

def Report.sent (report : Report) : Text :=
  (report.message ++ ';' :: List.replicate report.sentLength nul).take report.sentLength

/-- The airtime of a probe report prints in three characters. -/
def Report.AuFits : Report → Prop
  | .probeInfo _ _ _ au _ => -99 ≤ au ∧ au ≤ 999
  | _ => True

def Report.Padded : Report → Prop
  | .newSta .. | .delSta .. => True
  | _ => False

/-! The text of a report. -/

def Plain (c : Char) : Prop := 33 ≤ c.toNat ∧ c ≠ ';'

instance (c : Char) : Decidable (Plain c) := inferInstanceAs (Decidable (_ ∧ _))

theorem digit_plain (c : Char) (digit : c.isDigit) : Plain c := by
  refine ⟨?_, ?_⟩
  · have visible := digit_not_trimmed c digit
    simp only [isTrimmed, decide_eq_false_iff_not] at visible
    omega
  · rintro rfl
    exact absurd digit (by decide)

theorem zeroPad_plain (width : Nat) (value : Int) : ∀ c ∈ zeroPad width value, Plain c := by
  intro c member
  rcases zeroPad_chars width value c member with rfl | digit
  · exact ⟨by decide, by decide⟩
  · exact digit_plain c digit

theorem hexByte_plain (byte : Fin 256) : ∀ c ∈ hexByte byte, Plain c := by
  have digit : ∀ n : Fin 16, Plain (Nat.digitChar n.val) := by decide
  intro c member
  simp only [hexByte, List.mem_cons, List.not_mem_nil, or_false] at member
  rcases member with rfl | rfl
  · exact digit ⟨byte / 16, by omega⟩
  · exact digit ⟨byte % 16, by omega⟩

theorem macText_plain (mac : Mac) : ∀ c ∈ macText mac, Plain c := by
  intro c member
  obtain ⟨byte, -, inside⟩ := List.mem_flatMap.mp member
  exact hexByte_plain byte c inside

theorem macText_length (mac : Mac) : (macText mac).length = 12 := by
  simp [macText, List.ofFn_succ, hexByte]

theorem append_plain (a b : Text) (first : ∀ c ∈ a, Plain c) (second : ∀ c ∈ b, Plain c) :
    ∀ c ∈ a ++ b, Plain c := by
  intro c member
  exact (List.mem_append.mp member).elim (first c) (second c)

theorem workMode_plain (channel : Fin 201) : ∀ c ∈ workMode channel, Plain c := by
  rw [workMode]
  by_cases wide : 36 ≤ channel.val
  · rw [if_pos wide]
    exact each_char (by decide)
  · rw [if_neg wide]
    exact each_char (by decide)

theorem body_plain (report : Report) : ∀ c ∈ report.body, Plain c := by
  have literal {text : Text} (all : text.all (fun c => decide (Plain c)) = true := by decide) :
      ∀ c ∈ text, Plain c := each_char all
  have station : ∀ sta ap ssid, ∀ c ∈ stationText sta ap ssid, Plain c := by
    intro sta ap ssid
    refine append_plain _ _ (append_plain _ _ (append_plain _ _ (append_plain _ _ (append_plain _ _
      literal (macText_plain sta)) literal) (macText_plain ap)) (zeroPad_plain _ _)) ?_
    intro c member
    have bounds := ssid.printable c member
    exact ⟨bounds.1, bounds.2.2⟩
  cases report with
  | newSta idf sta ap ssid => exact station sta ap ssid
  | delSta idf sta ap ssid => exact station sta ap ssid
  | flowInfo idf sta tx rx =>
      exact append_plain _ _ (append_plain _ _ (append_plain _ _ (append_plain _ _ (append_plain _ _
        literal (macText_plain sta)) literal) (zeroPad_plain _ _)) literal)
        (zeroPad_plain _ _)
  | probeInfo idf sta rssi au channel =>
      exact append_plain _ _ (append_plain _ _ (append_plain _ _ (append_plain _ _ (append_plain _ _
        (append_plain _ _ (append_plain _ _ (append_plain _ _ (append_plain _ _ literal
          (macText_plain sta)) literal) (zeroPad_plain _ _)) literal) (zeroPad_plain _ _))
          literal) (zeroPad_plain _ _)) literal) (workMode_plain channel)
  | beat cseq => exact fun c member => absurd member List.not_mem_nil
  | ok idf => exact (each_char (by decide) : ∀ c ∈ ['O', 'K'], Plain c)
  | err idf => exact (each_char (by decide) : ∀ c ∈ ['E', 'R', 'R'], Plain c)

theorem idText_plain (report : Report) : ∀ c ∈ report.idText, Plain c := by
  cases report with
  | ok idf => exact fun c member => digit_plain c (idf.digits.2 c member)
  | err idf => exact fun c member => digit_plain c (idf.digits.2 c member)
  | _ => simp only [Report.idText]; exact zeroPad_plain 4 _

theorem typeText_plain (report : Report) : ∀ c ∈ report.typeText, Plain c := by
  cases report <;> simp only [Report.typeText] <;> exact each_char (by decide)

theorem lengthText_plain (report : Report) : ∀ c ∈ report.lengthText, Plain c := by
  cases report with
  | newSta idf sta ap ssid => simp only [Report.lengthText]; exact zeroPad_plain 3 _
  | delSta idf sta ap ssid => simp only [Report.lengthText]; exact zeroPad_plain 3 _
  | _ => simp only [Report.lengthText]; exact each_char (by decide)

theorem message_plain (report : Report) : ∀ c ∈ report.message, Plain c :=
  append_plain _ _ (idText_plain report) (append_plain _ _ (typeText_plain report)
    (append_plain _ _ (lengthText_plain report) (body_plain report)))

theorem idText_length (report : Report) : report.idText.length = 4 := by
  cases report with
  | ok idf => exact idf.digits.1
  | err idf => exact idf.digits.1
  | newSta idf _ _ _ | delSta idf _ _ _ | flowInfo idf _ _ _ | probeInfo idf _ _ _ _ | beat idf =>
      simp only [Report.idText]
      exact zeroPad_length 4 idf.val (by omega) (by decide)

theorem stationText_length (sta ap : Mac) (ssid : Ssid) :
    (stationText sta ap ssid).length = 30 + ssid.text.length := by
  have short := ssid.short
  have field := zeroPad_length 2 ssid.text.length (by omega) (by decide)
  simp only [stationText, List.length_append, macText_length, field, List.length_cons,
    List.length_nil]

theorem flow_length (idf : Fin 9999) (sta : Mac) (tx rx : Int32Value) :
    (Report.flowInfo idf sta tx rx).body.length = 50 := by
  have first := (zeroPad_length_iff 16 tx.val (by decide)).mpr
      ⟨by have := tx.2; omega, by have := tx.2; omega⟩
  have second := (zeroPad_length_iff 16 rx.val (by decide)).mpr
      ⟨by have := rx.2; omega, by have := rx.2; omega⟩
  simp only [Report.body, List.length_append, macText_length, first, second, List.length_cons,
    List.length_nil]

theorem probe_length (idf : Fin 9999) (sta : Mac) (rssi : Rssi) (au : Int) (channel : Fin 201) :
    (Report.probeInfo idf sta rssi au channel).body.length = 29 + (zeroPad 3 au).length := by
  have signal := (zeroPad_length_iff 3 rssi.val (by decide)).mpr
    ⟨by have := rssi.2; omega, by have := rssi.2; omega⟩
  have band := zeroPad_length 3 channel.val (by omega) (by decide)
  have mode : (workMode channel).length = 1 := by
    rw [workMode]
    split <;> rfl
  simp only [Report.body, List.length_append, macText_length, signal, band, mode,
    List.length_cons, List.length_nil]
  omega

theorem lengthText_value (report : Report) : ∃ len :
    Nat, parseInt report.lengthText = some (len : Int) ∧
    (report.AuFits ↔ report.body.length = len) := by
  -- the length field is the length of the body, unless a probe's airtime is too long
  have station : ∀ ssid : Ssid, parseInt (zeroPad 3 (30 + ssid.text.length : Nat)) =
      some ((30 + ssid.text.length : Nat) : Int) := by
    intro ssid
    have short := ssid.short
    exact parseInt_zeroPad 3 _ (by omega)
  cases report with
  | newSta idf sta ap ssid =>
      exact ⟨_, station ssid, iff_of_true trivial (stationText_length sta ap ssid)⟩
  | delSta idf sta ap ssid =>
      exact ⟨_, station ssid, iff_of_true trivial (stationText_length sta ap ssid)⟩
  | flowInfo idf sta tx rx =>
      exact ⟨50, by simp only [Report.lengthText]; decide, iff_of_true trivial (flow_length idf sta
        tx rx)⟩
  | probeInfo idf sta rssi au channel =>
      refine ⟨32, by simp only [Report.lengthText]; decide, ?_⟩
      have width := zeroPad_length_iff 3 au (by decide)
      rw [probe_length]
      simp only [Report.AuFits]
      omega
  | beat cseq => exact ⟨0, by simp only [Report.lengthText]; decide, iff_of_true trivial rfl⟩
  | ok idf => exact ⟨2, by simp only [Report.lengthText]; decide, iff_of_true trivial rfl⟩
  | err idf => exact ⟨3, by simp only [Report.lengthText]; decide, iff_of_true trivial rfl⟩

theorem typeText_length (report : Report) : report.typeText.length = 3 := by
  cases report <;> rfl

theorem lengthText_length (report : Report) : report.lengthText.length = 3 := by
  cases report with
  | newSta idf sta ap ssid =>
      have short := ssid.short
      simp only [Report.lengthText]
      exact zeroPad_length 3 _ (by omega) (by decide)
  | delSta idf sta ap ssid =>
      have short := ssid.short
      simp only [Report.lengthText]
      exact zeroPad_length 3 _ (by omega) (by decide)
  | _ => rfl

theorem message_length (report : Report) : report.message.length = 10 + report.body.length := by
  simp only [Report.message, List.length_append, idText_length, typeText_length, lengthText_length]
  omega

/-- The bytes sent have room for the text and its `;`, with more room only behind the
reports of stations. -/
theorem sentLength_message (report : Report) (fits : report.AuFits) :
    (report.Padded ∧ report.message.length + 1 < report.sentLength) ∨
      (¬ report.Padded ∧ report.message.length + 1 = report.sentLength) := by
  have size := message_length report
  have station : ∀ sta ap ssid, (stationText sta ap ssid).length ≤ 61 := by
    intro sta ap ssid
    rw [stationText_length]
    have short := ssid.short
    omega
  cases report with
  | newSta idf sta ap ssid =>
      have short := station sta ap ssid
      exact .inl ⟨trivial, by rw [size]; simp only [Report.body, Report.sentLength]; omega⟩
  | delSta idf sta ap ssid =>
      have short := station sta ap ssid
      exact .inl ⟨trivial, by rw [size]; simp only [Report.body, Report.sentLength]; omega⟩
  | flowInfo idf sta tx rx =>
      exact .inr ⟨id, by rw [size, flow_length]; rfl⟩
  | probeInfo idf sta rssi au channel =>
      simp only [Report.AuFits] at fits
      have width := (zeroPad_length_iff 3 au (by decide)).mpr ⟨by omega, by omega⟩
      exact .inr ⟨id, by rw [size, probe_length, width]; rfl⟩
  | beat cseq => exact .inr ⟨id, by rw [size]; rfl⟩
  | ok idf => exact .inr ⟨id, by rw [size]; rfl⟩
  | err idf => exact .inr ⟨id, by rw [size]; rfl⟩

/-- With fitting airtime the sender sends the whole text, its `;` and zero bytes;
zero bytes only behind a padded report. -/
theorem sent_shape (report : Report) (fits : report.AuFits) : ∃ pad,
    report.sent = report.message ++ ';' :: List.replicate pad nul ∧ (report.Padded ↔ 0 < pad) := by
  have room := sentLength_message report fits
  refine ⟨report.sentLength - (report.message.length + 1), ?_, ?_⟩
  · rw [Report.sent, List.take_append, List.take_of_length_le (by omega)]
    congr 1
    obtain ⟨n, exact'⟩ : ∃ n, report.sentLength - report.message.length = n + 1 :=
      ⟨report.sentLength - report.message.length - 1, by omega⟩
    rw [exact', List.take_succ_cons, List.take_replicate]
    congr 2
    omega
  · rcases room with ⟨padded, more⟩ | ⟨exact', same⟩
    · exact iff_of_true padded (by omega)
    · exact iff_of_false exact' (by omega)

end LazyAS.ApReports

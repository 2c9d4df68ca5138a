import LazyAS.WireText

/-! The receive loop of `fnii_receive_msg_thread` on one connection. The buffer has
two slots of 68 bytes: `recv` fills the second one and the bytes of an unfinished
frame are moved in front of it. Pointers are offsets into the buffer; `none` is
undefined behaviour, an access outside the buffer or a copy of negative size. -/
namespace LazyAS.FrameReassembly
open WireText

def slot : Nat := 68

/-- A controller frame: id, type, length of the body, body and `;`. -/
structure Frame where
  id : Text
  type : Text
  body : Text
  idDigits : id.length = 4 ∧ ∀ c ∈ id, c.isDigit
  typeDigits : type.length = 3 ∧ ∀ c ∈ type, c.isDigit
  bodyShort : body.length ≤ 65

def Frame.header (frame : Frame) : Text :=
  frame.id ++ (frame.type ++ zeroPad 3 frame.body.length)

def Frame.text (frame : Frame) : Text := frame.header ++ (frame.body ++ [';'])

/-- The receiver between two calls of `recv`; `calls` records, for every call of
`fnii_parse_msg`, the bytes at the position and of the length it is given. -/
structure Receiver where
  msgBuf : Text
  msgAlig : Int
  calls : List Text

def readBytes (buf : Text) (start : Int) (count : Nat) : Option Text :=
  if 0 ≤ start ∧ start + count ≤ buf.length then some ((buf.drop start.toNat).take count) else none

/-- The inner loop. A pass that consumes nothing can only come from a length field
below -10; `fuel` bounds the passes. -/
def drain (buf : Text) : Nat → Int → Int → List Text → Option (Int × List Text)
  | 0, _, _, _ => none
  | fuel + 1, msgAlig, msgLen, calls =>
      if msgLen < 10 then some (msgLen, calls)
      else do
        let field ← readBytes buf (msgAlig + 7) 3
        let msgSgLen := atoi field
        -- the source forgets the semicolon here: a frame may miss its last byte
        if msgSgLen > msgLen - 10 then some (msgLen, calls)
        else
          -- `fnii_parse_msg` reads the ten bytes of the header
          let _ ← readBytes buf msgAlig 10
          let call := (buf.drop msgAlig.toNat).take (msgSgLen + 11).toNat
          drain buf fuel (msgAlig + (msgSgLen + 11)) (msgLen - (msgSgLen + 11)) (calls ++ [call])

/-- `os_memcpy(msg_buf - msg_len + 68, msg_buf + 136 - msg_len, msg_len)`. -/
def relocate (buf : Text) (msgLen : Int) : Option Text := do
  if msgLen < 0 ∨ msgLen > slot then none
  else
    -- the last bytes of the slot, not the last bytes received
    let kept ← readBytes buf (2 * slot - msgLen) msgLen.toNat
    return buf.take (slot - msgLen.toNat) ++ kept ++ buf.drop slot

/-- One pass of the outer loop, in which `recv` delivers `piece`. -/
def receive (fuel : Nat) (receiver : Receiver) (piece : Text) : Option Receiver := do
  let buf := receiver.msgBuf.take slot ++ piece ++ List.replicate (slot - piece.length) nul
  let msgLen : Int := piece.length + (slot - receiver.msgAlig)
  let (left, calls) ← drain buf fuel receiver.msgAlig msgLen receiver.calls
  let moved ← relocate buf left
  return ⟨moved, slot - left, calls⟩

def receiveAll (fuel : Nat) (receiver : Receiver) (pieces : List Text) : Option Receiver :=
  pieces.foldlM (receive fuel) receiver

/-- The receiver right after the connection is set up; the buffer is not initialised. -/
def Receiver.fresh (garbage : Fin (2 * slot) → Char) : Receiver := ⟨List.ofFn garbage, slot, []⟩

theorem header_length (frame : Frame) : frame.header.length = 10 := by
  have short := frame.bodyShort
  have field := zeroPad_length 3 frame.body.length (by omega) (by decide)
  simp only [Frame.header, List.length_append, frame.idDigits.1, frame.typeDigits.1, field]

theorem frame_length (frame : Frame) : frame.text.length = frame.body.length + 11 := by
  simp only [Frame.text, List.length_append, header_length, List.length_cons, List.length_nil]
  omega

theorem header_field (frame : Frame) :
    frame.header.drop 7 = zeroPad 3 frame.body.length := by
  rw [Frame.header, ← List.append_assoc]
  exact List.drop_left' (by simp [frame.idDigits.1, frame.typeDigits.1])

/-! The inner loop on a buffer split at the read position. -/

theorem readBytes_front (front middle rest : Text) (start : Int) (count : Nat)
    (first : start = front.length) (size : count = middle.length) :
    readBytes (front ++ (middle ++ rest)) start count = some middle := by
  subst first size
  have bounds : 0 ≤ (front.length : Int) ∧
      (front.length : Int) + middle.length ≤ ((front ++ (middle ++ rest)).length : Nat) := by
    simp only [List.length_append]
    omega
  rw [readBytes, if_pos bounds, Int.toNat_natCast, List.drop_left, List.take_left]

theorem readBytes_field (front rest : Text) (frame : Frame) :
    readBytes (front ++ (frame.header ++ rest)) (front.length + 7) 3 =
      some (zeroPad 3 frame.body.length) := by
  -- the length field the loop reads at the header of a frame
  have split : frame.header = frame.header.take 7 ++ zeroPad 3 frame.body.length := by
    rw [← header_field, List.take_append_drop]
  have short := frame.bodyShort
  have seven : (frame.header.take 7).length = 7 := by simp [header_length]
  have field := zeroPad_length 3 frame.body.length (by omega) (by decide)
  have shape : front ++ (frame.header ++ rest) =
      (front ++ frame.header.take 7) ++ (zeroPad 3 frame.body.length ++ rest) := by
    rw [List.append_assoc front, ← List.append_assoc (frame.header.take 7), ← split]
  rw [shape]
  exact readBytes_front _ _ _ _ _ (by simp [header_length]) field.symm

theorem field_value (frame : Frame) :
    atoi (zeroPad 3 frame.body.length) = frame.body.length :=
  atoi_digits _ _ (zeroPad_digitsValue 3 frame.body.length)

theorem drain_call (front rest : Text) (frame : Frame) (fuel : Nat) (msgLen : Int)
    (calls : List Text) (enough : 10 + frame.body.length ≤ msgLen) :
    drain (front ++ (frame.header ++ rest)) (fuel + 1) front.length msgLen calls =
      drain (front ++ (frame.header ++ rest)) fuel (front.length + (frame.body.length + 11))
        (msgLen - (frame.body.length + 11))
        (calls ++ [(frame.header ++ rest).take (frame.body.length + 11)]) := by
  have header := readBytes_front front frame.header rest front.length 10 rfl
    (header_length frame).symm
  rw [drain, if_neg (by omega)]
  simp only [readBytes_field, header, field_value, Option.bind_eq_bind, Option.bind_some]
  rw [if_neg (by omega), Int.toNat_natCast, List.drop_left]
  congr 1

theorem drain_wait (front rest : Text) (frame : Frame) (fuel : Nat) (msgLen : Int)
    (calls : List Text) (missing : msgLen < 10 + frame.body.length) :
    drain (front ++ (frame.header ++ rest)) (fuel + 1) front.length msgLen calls =
      some (msgLen, calls) := by
  rw [drain]
  by_cases short : msgLen < 10
  · rw [if_pos short]
  · rw [if_neg short]
    simp only [readBytes_field, field_value, Option.bind_eq_bind, Option.bind_some]
    rw [if_pos (by omega)]

theorem drain_frame (front rest : Text) (frame : Frame) (fuel : Nat) (msgLen : Int)
    (calls : List Text) (enough : 0 ≤ msgLen) :
    drain (front ++ (frame.text ++ rest)) (fuel + 1) front.length
      (frame.text.length + msgLen) calls =
      drain ((front ++ frame.text) ++ rest) fuel (front ++ frame.text).length msgLen
        (calls ++ [frame.text]) := by
  have shape : frame.text ++ rest = frame.header ++ ((frame.body ++ [';']) ++ rest) := by
    rw [Frame.text, List.append_assoc]
  have whole : (frame.header ++ ((frame.body ++ [';']) ++ rest)).take (frame.body.length + 11) =
      frame.text := by
    rw [← shape]
    exact List.take_left' (frame_length frame)
  have ahead : ((front ++ frame.text).length : Int) = front.length + (frame.body.length + 11) := by
    rw [List.length_append, frame_length]
    omega
  rw [shape, drain_call front _ frame fuel _ calls (by rw [frame_length]; omega), whole, ← shape,
    List.append_assoc, ahead]
  congr 1
  rw [frame_length]
  omega

theorem drain_frames (frames : List Frame) (front rest : Text) (fuel : Nat) (msgLen : Int)
    (calls : List Text) (enough : 0 ≤ msgLen) :
    drain (front ++ (frames.flatMap Frame.text ++ rest)) (frames.length + fuel) front.length
        ((frames.flatMap Frame.text).length + msgLen) calls =
      drain ((front ++ frames.flatMap Frame.text) ++ rest) fuel
        (front ++ frames.flatMap Frame.text).length msgLen (calls ++ frames.map Frame.text) := by
  -- the loop hands over all frames that are complete and stops in front of the rest
  induction frames generalizing front calls with
  | nil => simp
  | cons frame frames ih =>
      have count : (frame :: frames).length + fuel = (frames.length + fuel) + 1 := by
        rw [List.length_cons]; omega
      have size : ((((frame :: frames).flatMap Frame.text).length : Nat) : Int) + msgLen =
          frame.text.length + ((frames.flatMap Frame.text).length + msgLen) := by
        rw [List.flatMap_cons, List.length_append]; omega
      rw [count, size, List.flatMap_cons, List.append_assoc, drain_frame _ _ _ _ _ _ (by omega),
        ih, List.map_cons]
      simp only [List.append_assoc, List.cons_append, List.nil_append]

theorem drain_part (front rest : Text) (frame : Frame) (part fuel : Nat) (calls : List Text)
    (missing : part + 1 < frame.text.length) :
    drain (front ++ (frame.text.take part ++ rest)) (fuel + 1) front.length part calls =
      some ((part : Int), calls) := by
  rw [frame_length] at missing
  by_cases short : part < 10
  · rw [drain, if_pos (by omega)]
  · have shape : frame.text.take part ++ rest =
        frame.header ++ ((frame.body ++ [';']).take (part - 10) ++ rest) := by
      rw [Frame.text, List.take_append, header_length,
        List.take_of_length_le (by rw [header_length]; omega), List.append_assoc]
    rw [shape]
    exact drain_wait front _ frame fuel part calls (by omega)

theorem drain_cut (front rest : Text) (frame : Frame) (part fuel : Nat) (calls : List Text)
    (missing : part + 1 = frame.text.length) :
    ∃ after, drain (front ++ (frame.text.take part ++ rest)) (fuel + 2) front.length part calls =
      some (-1, after) := by
  rw [frame_length] at missing
  have shape : frame.text.take part ++ rest =
      frame.header ++ ((frame.body ++ [';']).take (part - 10) ++ rest) := by
    rw [Frame.text, List.take_append, header_length,
      List.take_of_length_le (by rw [header_length]; omega), List.append_assoc]
  have passed : (part : Int) - (frame.body.length + 11) = -1 := by omega
  rw [shape, drain_call front _ frame (fuel + 1) part calls (by omega), passed, drain,
    if_pos (by omega)]
  exact ⟨_, rfl⟩

/-! The state between two receives. -/

/-- The bytes of `carry` stand right in front of the receive slot. -/
structure Carries (receiver : Receiver) (carry : Text) : Prop where
  size : receiver.msgBuf.length = 2 * slot
  short : carry.length ≤ slot
  aligned : receiver.msgAlig = (slot - carry.length : Nat)
  held : receiver.msgBuf.take slot = receiver.msgBuf.take (slot - carry.length) ++ carry

/-- What the loop sees: the carried bytes, the piece and the zeroed rest of the slot. -/
def window (carry piece : Text) : Text :=
  carry ++ (piece ++ List.replicate (slot - piece.length) nul)

theorem window_length (carry piece : Text) (fits : piece.length ≤ slot) :
    (window carry piece).length = carry.length + slot := by
  simp only [window, List.length_append, List.length_replicate]
  omega

theorem receive_eq (fuel : Nat) (receiver : Receiver) (carry piece : Text)
    (carries : Carries receiver carry) :
    ∃ front : Text, front.length + carry.length = slot ∧
      receive fuel receiver piece =
        (drain (front ++ window carry piece) fuel front.length (carry.length + piece.length)
          receiver.calls).bind fun drained =>
            (relocate (front ++ window carry piece) drained.1).map fun moved =>
              ⟨moved, slot - drained.1, drained.2⟩ := by
  have short := carries.short
  have size : (receiver.msgBuf.take (slot - carry.length)).length = slot - carry.length := by
    rw [List.length_take, carries.size]
    omega
  refine ⟨receiver.msgBuf.take (slot - carry.length), by omega, ?_⟩
  have buffer : receiver.msgBuf.take slot ++ piece ++ List.replicate (slot - piece.length) nul =
      receiver.msgBuf.take (slot - carry.length) ++ window carry piece := by
    rw [carries.held, window]
    simp only [List.append_assoc]
  have count : (piece.length : Int) + (slot - receiver.msgAlig) = carry.length + piece.length := by
    rw [carries.aligned]
    omega
  simp only [receive, buffer, count, Option.bind_eq_bind]
  rw [carries.aligned, size]
  congr 1
  funext drained
  cases relocate (receiver.msgBuf.take (slot - carry.length) ++ window carry piece) drained.1 <;>
    rfl

theorem relocate_fails (buf : Text) (left : Int) (bad : left < 0 ∨ left > slot) :
    relocate buf left = none := by
  simp only [relocate, if_pos bad]

theorem relocate_carries (front rest : Text) (left : Nat) (calls : List Text)
    (size : front.length + rest.length = 2 * slot) (fits : left ≤ slot) :
    ∃ moved, relocate (front ++ rest) left = some moved ∧
      Carries ⟨moved, slot - left, calls⟩ ((front ++ rest).drop (2 * slot - left)) := by
  have total : (front ++ rest).length = 2 * slot := by rw [List.length_append, size]
  have kept : readBytes (front ++ rest) (2 * slot - left) left =
      some ((front ++ rest).drop (2 * slot - left)) := by
    have bounds : 0 ≤ (2 * slot - left : Int) ∧
        (2 * slot - left : Int) + left ≤ ((front ++ rest).length : Nat) := by
      rw [total]; omega
    have start : (2 * slot - left : Int).toNat = 2 * slot - left := by omega
    rw [readBytes, if_pos bounds, start, List.take_of_length_le]
    rw [List.length_drop, total]
    omega
  have carried : ((front ++ rest).drop (2 * slot - left)).length = left := by
    rw [List.length_drop, total]
    omega
  have head : ((front ++ rest).take (slot - left)).length = slot - left := by
    rw [List.length_take, total]
    omega
  refine ⟨(front ++ rest).take (slot - left) ++ (front ++ rest).drop (2 * slot - left) ++
    (front ++ rest).drop slot, ?_, ?_, ?_, ?_, ?_⟩
  · rw [relocate, if_neg (by omega), Int.toNat_natCast, kept]
    rfl
  · simp only [List.length_append, carried, head, List.length_drop]
    rw [List.length_append] at total
    omega
  · omega
  · rw [carried]
    show (slot : Int) - left = (slot - left : Nat)
    omega
  · rw [carried, List.append_assoc, List.take_left' head]
    rw [← List.append_assoc]
    exact List.take_left' (by rw [List.length_append, carried, head]; omega)

theorem receive_left (fuel left : Nat) (receiver : Receiver) (carry piece front : Text)
    (after : List Text) (whole : front.length + carry.length = slot) (fits : piece.length ≤ slot)
    (short : left ≤ slot) (before : left ≤ (window carry piece).length)
    (same : receive fuel receiver piece =
      (drain (front ++ window carry piece) fuel front.length (carry.length + piece.length)
        receiver.calls).bind fun drained =>
          (relocate (front ++ window carry piece) drained.1).map fun moved =>
            ⟨moved, slot - drained.1, drained.2⟩)
    (drained : drain (front ++ window carry piece) fuel front.length (carry.length + piece.length)
      receiver.calls = some ((left : Int), after)) :
    ∃ next, receive fuel receiver piece = some next ∧ next.calls = after ∧
      Carries next ((window carry piece).drop (carry.length + slot - left)) := by
  -- a receive whose loop leaves `left` bytes, from the loop's result
  have size := window_length carry piece fits
  obtain ⟨moved, copied, carries⟩ :=
    relocate_carries front (window carry piece) left after (by omega) short
  refine ⟨⟨moved, slot - left, after⟩, ?_, rfl, ?_⟩
  · rw [same, drained, Option.bind_some, copied, Option.map_some]
  · have cut : (front ++ window carry piece).drop (2 * slot - left) =
        (window carry piece).drop (carry.length + slot - left) := by
      rw [List.drop_append, List.drop_of_length_le (by omega), List.nil_append]
      congr 1
      omega
    rwa [cut] at carries

end LazyAS.FrameReassembly

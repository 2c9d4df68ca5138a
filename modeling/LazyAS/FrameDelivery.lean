import LazyAS.FrameReassembly

/-! When the receive loop hands over what the controller sent. A state that holds exactly
the bytes of the unfinished frame keeps doing so while every `recv` is tolerated; the
first one that is not leaves the buffer or damages the bytes for good. -/
namespace LazyAS.FrameDelivery
open WireText FrameReassembly

/-- Every frame was handed to `fnii_parse_msg` once, in order, with its own bytes. -/
def Delivered (result : Option Receiver) (frames : List Frame) : Prop :=
  ∃ receiver, result = some receiver ∧ receiver.calls = frames.map Frame.text

structure Segmented (frames : List Frame) (pieces : List Text) : Prop where
  stream : pieces.flatten = frames.flatMap Frame.text
  sized : ∀ piece ∈ pieces, 1 ≤ piece.length ∧ piece.length ≤ slot

/-- After `received` bytes: how much of the unfinished frame has come, and its length. -/
def unfinished : List Frame → Nat → Option (Nat × Nat)
  | [], _ => none
  | frame :: rest, received =>
      if frame.text.length ≤ received then unfinished rest (received - frame.text.length)
      else if received = 0 then none
      else some (received, frame.text.length)

/-- A `recv` of `size` bytes that ends at a frame boundary, or fills the slot and leaves
at most a slot of an unfinished frame that misses more than its last byte. -/
def Tolerated (frames : List Frame) (received size : Nat) : Prop :=
  ∀ part whole, unfinished frames received = some (part, whole) →
    size = slot ∧ part ≤ slot ∧ part + 1 ≠ whole

def AllTolerated (frames : List Frame) : Nat → List Text → Prop
  | _, [] => True
  | received, piece :: pieces =>
      Tolerated frames (received + piece.length) piece.length ∧
        AllTolerated frames (received + piece.length) pieces

/-! Cutting the stream into frames. -/

theorem flatMap_length (frames : List Frame) :
    11 * frames.length ≤ (frames.flatMap Frame.text).length := by
  induction frames with
  | nil => simp
  | cons frame frames ih =>
      rw [List.flatMap_cons, List.length_append, List.length_cons, frame_length]
      omega

theorem split_stream (todo : List Frame) (data more : Text)
    (stream : data ++ more = todo.flatMap Frame.text) :
    ∃ fin rest part, todo = fin ++ rest ∧ data = fin.flatMap Frame.text ++ part ∧
      part ++ more = rest.flatMap Frame.text ∧ (rest = [] → part = []) ∧
      ∀ frame tail, rest = frame :: tail → part.length < frame.text.length := by
  -- any front of a stream is a number of whole frames and a part of the next one
  induction todo generalizing data with
  | nil =>
      have empty : data = [] := (List.append_eq_nil_iff.mp stream).1
      exact ⟨[], [], data, rfl, rfl, stream, fun _ => empty, by simp⟩
  | cons frame todo ih =>
      rw [List.flatMap_cons] at stream
      by_cases whole : frame.text.length ≤ data.length
      · obtain ⟨below, cut, same⟩ | ⟨beyond, cut, same⟩ := List.append_eq_append_iff.mp stream
        · have empty : below = [] := by
            rw [cut, List.length_append] at whole
            exact List.eq_nil_of_length_eq_zero (by omega)
          subst empty
          obtain ⟨fin, rest, part, split, read, left, none, short⟩ := ih [] (by simpa using same)
          refine ⟨frame :: fin, rest, part, by rw [split]; rfl, ?_, left, none, short⟩
          rw [List.flatMap_cons, List.append_assoc, ← read, cut]
          simp
        · obtain ⟨fin, rest, part, split, read, left, none, short⟩ := ih beyond same.symm
          refine ⟨frame :: fin, rest, part, by rw [split]; rfl, ?_, left, none, short⟩
          rw [List.flatMap_cons, List.append_assoc, ← read, cut]
      · refine ⟨[], frame :: todo, data, rfl, rfl, ?_, by simp, ?_⟩
        · rw [List.flatMap_cons, stream]
        · intro other tail same
          obtain ⟨rfl, rfl⟩ := List.cons.inj same
          omega

theorem unfinished_skip (done rest : List Frame) (part : Nat) :
    unfinished (done ++ rest) ((done.flatMap Frame.text).length + part) = unfinished rest part := by
  induction done with
  | nil => simp
  | cons frame done ih =>
      rw [List.flatMap_cons, List.cons_append, unfinished, List.length_append, if_pos (by omega)]
      have left : frame.text.length + (done.flatMap Frame.text).length + part - frame.text.length =
          (done.flatMap Frame.text).length + part := by omega
      rw [left, ih]

/-- What `Tolerated` asks of a receive that leaves `part` of the first frame of `rest`. -/
theorem tolerated_iff (done rest : List Frame) (part size : Nat)
    (ended : rest = [] → part = 0)
    (short : ∀ frame tail, rest = frame :: tail → part < frame.text.length) :
    Tolerated (done ++ rest) ((done.flatMap Frame.text).length + part) size ↔
      (part = 0 ∨ ∃ frame tail, rest = frame :: tail ∧
        size = slot ∧ part ≤ slot ∧ part + 1 ≠ frame.text.length) := by
  rw [Tolerated, unfinished_skip]
  cases rest with
  | nil => simp [unfinished, ended rfl]
  | cons frame tail =>
      have open' := short frame tail rfl
      by_cases zero : part = 0
      · have positive : ¬ frame.text.length ≤ 0 := by omega
        simp [unfinished, zero, positive]
      · have notWhole : ¬ frame.text.length ≤ part := by omega
        have value : unfinished (frame :: tail) part = some (part, frame.text.length) := by
          rw [unfinished, if_neg notWhole, if_neg zero]
        rw [value]
        constructor
        · intro holds
          exact .inr ⟨frame, tail, rfl, holds part _ rfl⟩
        · rintro (none | ⟨other, rest, same, fits⟩) x y found
          · exact absurd none zero
          · obtain ⟨rfl, rfl⟩ := List.cons.inj same
            obtain ⟨rfl, rfl⟩ := Prod.mk.inj (Option.some.inj found)
            exact fits

/-! One receive from a state that holds exactly what was sent. -/

theorem part_take (frame : Frame) (tail : List Frame) (part more : Text)
    (stream : part ++ more = (frame :: tail).flatMap Frame.text)
    (short : part.length < frame.text.length) : part = frame.text.take part.length := by
  rw [List.flatMap_cons] at stream
  have cut := congrArg (List.take part.length) stream
  rw [List.take_left, List.take_append_of_le_length (by omega)] at cut
  exact cut

theorem drain_window (fin : List Frame) (carry piece part front : Text) (fuel : Nat)
    (calls : List Text) (fits : piece.length ≤ slot) (short : carry.length ≤ slot)
    (data : carry ++ piece = fin.flatMap Frame.text ++ part) :
    ∃ spare, drain (front ++ window carry piece) (fuel + 14) front.length
        (carry.length + piece.length) calls =
      drain ((front ++ fin.flatMap Frame.text) ++
          (part ++ List.replicate (slot - piece.length) nul)) (spare + 2)
        (front ++ fin.flatMap Frame.text).length part.length (calls ++ fin.map Frame.text) := by
  have count := flatMap_length fin
  have size := congrArg List.length data
  rw [List.length_append, List.length_append] at size
  have bound : slot = 68 := rfl
  have few : fin.length ≤ 12 := by omega
  refine ⟨fuel + 12 - fin.length, ?_⟩
  have shape : window carry piece =
      fin.flatMap Frame.text ++ (part ++ List.replicate (slot - piece.length) nul) := by
    rw [window, ← List.append_assoc, data, List.append_assoc]
  have passes : fuel + 14 = fin.length + (fuel + 12 - fin.length + 2) := by omega
  have length : (carry.length : Int) + piece.length =
      (fin.flatMap Frame.text).length + (part.length : Int) := by omega
  rw [shape, passes, length]
  exact drain_frames fin front _ _ _ calls (by omega)

/-- What a receive leaves in front of the slot when the last `part` bytes are unfinished. -/
def carried (part : Text) (size : Nat) : Text :=
  (part ++ List.replicate (slot - size) nul).drop (slot - size)

theorem window_carried (head carry piece part : Text) (fits : piece.length ≤ slot)
    (data : carry ++ piece = head ++ part) :
    (window carry piece).drop (carry.length + slot - part.length) = carried part piece.length := by
  have size := congrArg List.length data
  rw [List.length_append, List.length_append] at size
  have shape : window carry piece =
      head ++ (part ++ List.replicate (slot - piece.length) nul) := by
    rw [window, ← List.append_assoc, data, List.append_assoc]
  rw [shape, List.drop_append, List.drop_of_length_le (by omega), List.nil_append, carried]
  congr 1
  omega

theorem receive_keeps (done fin rest : List Frame) (carry piece part more : Text) (fuel : Nat)
    (receiver : Receiver) (carries : Carries receiver carry)
    (called : receiver.calls = done.map Frame.text) (fits : piece.length ≤ slot)
    (data : carry ++ piece = fin.flatMap Frame.text ++ part)
    (stream : part ++ more = rest.flatMap Frame.text) (ended : rest = [] → part = [])
    (open' : ∀ frame tail, rest = frame :: tail → part.length + 1 < frame.text.length)
    (short : part.length ≤ slot) :
    ∃ next, receive (fuel + 14) receiver piece = some next ∧
      next.calls = (done ++ fin).map Frame.text ∧ Carries next (carried part piece.length) := by
  obtain ⟨front, whole, same⟩ := receive_eq (fuel + 14) receiver carry piece carries
  obtain ⟨spare, passed⟩ := drain_window fin carry piece part front fuel receiver.calls fits
    carries.short data
  have stopped : drain ((front ++ fin.flatMap Frame.text) ++
      (part ++ List.replicate (slot - piece.length) nul)) (spare + 2)
      (front ++ fin.flatMap Frame.text).length part.length (receiver.calls ++ fin.map Frame.text) =
        some ((part.length : Int), (done ++ fin).map Frame.text) := by
    rw [called, ← List.map_append]
    cases rest with
    | nil => rw [ended rfl, drain, if_pos (by simp)]
    | cons frame tail =>
        have missing := open' frame tail rfl
        have exact' := part_take frame tail part more stream (by omega)
        rw [exact', List.length_take_of_le (by omega)]
        exact drain_part _ _ frame part.length (spare + 1) _ missing
  have size := window_length carry piece fits
  have total := congrArg List.length data
  rw [List.length_append, List.length_append] at total
  obtain ⟨next, received, calls, held⟩ := receive_left (fuel + 14) part.length receiver carry piece
    front _ whole fits short (by omega) same (passed.trans stopped)
  exact ⟨next, received, calls, window_carried _ carry piece part fits data ▸ held⟩

theorem receive_stops (fin tail : List Frame) (frame : Frame) (carry piece part more : Text)
    (fuel : Nat) (receiver : Receiver) (carries : Carries receiver carry)
    (fits : piece.length ≤ slot) (data : carry ++ piece = fin.flatMap Frame.text ++ part)
    (stream : part ++ more = (frame :: tail).flatMap Frame.text)
    (short : part.length < frame.text.length)
    (bad : slot < part.length ∨ part.length + 1 = frame.text.length) :
    receive (fuel + 14) receiver piece = none := by
  obtain ⟨front, -, same⟩ := receive_eq (fuel + 14) receiver carry piece carries
  obtain ⟨spare, passed⟩ := drain_window fin carry piece part front fuel receiver.calls fits
    carries.short data
  have exact' := part_take frame tail part more stream short
  rw [same, passed]
  by_cases last : part.length + 1 = frame.text.length
  · obtain ⟨after, cut⟩ := drain_cut (front ++ fin.flatMap Frame.text)
      (List.replicate (slot - piece.length) nul) frame part.length spare
      (receiver.calls ++ fin.map Frame.text) last
    rw [← exact'] at cut
    rw [cut, Option.bind_some, relocate_fails _ _ (by omega), Option.map_none]
  · have stopped := drain_part (front ++ fin.flatMap Frame.text)
      (List.replicate (slot - piece.length) nul) frame part.length (spare + 1)
      (receiver.calls ++ fin.map Frame.text) (by omega)
    rw [← exact'] at stopped
    rw [stopped, Option.bind_some, relocate_fails _ _ (by omega), Option.map_none]

theorem carried_full (part : Text) : carried part slot = part := by
  simp [carried]

/-! A relocation from a slot that was not full. The bytes handed over and carried are
compared with the bytes received, position by position. -/

/-- Somewhere the record holds only zero bytes and bytes that were sent later, in
front of a position that was sent as something else. -/
def Damaged (record received : Text) : Prop :=
  ∃ q p, q < p ∧ p ≤ received.length ∧ received[q]? ≠ some nul ∧
    ∀ j, q ≤ j → j < p → record[j]? = some nul ∨
      ∃ k, j < k ∧ k < p ∧ record[j]? = received[k]?

theorem damaged_ne (record received : Text) (damaged : Damaged record received) :
    record ≠ received := by
  rintro rfl
  obtain ⟨q, p, ahead, -, start, moved⟩ := damaged
  -- an undamaged byte would have to repeat strictly later, for ever
  have chain : ∀ n j, p - j ≤ n → q ≤ j → j < p → record[j]? ≠ some nul → False := by
    intro n
    induction n with
    | zero => intro j far _ inside _; omega
    | succ n ih =>
        intro j far low inside kept
        rcases moved j low inside with zero | ⟨k, later, bound, same⟩
        · exact kept zero
        · exact ih k (by omega) (by omega) bound (same ▸ kept)
  exact chain p q (by omega) le_rfl ahead start

theorem damaged_append (record received piece : Text) (sized : record.length = received.length)
    (damaged : Damaged record received) : Damaged (record ++ piece) (received ++ piece) := by
  obtain ⟨q, p, ahead, inside, start, moved⟩ := damaged
  refine ⟨q, p, ahead, by rw [List.length_append]; omega, ?_, ?_⟩
  · rwa [List.getElem?_append_left (by omega)]
  · intro j low high
    rw [List.getElem?_append_left (by omega)]
    rcases moved j low high with zero | ⟨k, later, bound, same⟩
    · exact .inl zero
    · exact .inr ⟨k, later, bound, by rw [List.getElem?_append_left (by omega)]; exact same⟩

def Shifted (start : Nat) (record received : Text) : Prop :=
  ∀ j, start ≤ j → j < received.length →
    record[j]? = some nul ∨ ∃ k, j < k ∧ k < received.length ∧ record[j]? = received[k]?

theorem shifted_damaged (start q : Nat) (record received : Text)
    (shifted : Shifted start record received) (low : start ≤ q) (high : q < received.length)
    (kept : received[q]? ≠ some nul) : Damaged record received :=
  ⟨q, received.length, high, le_rfl, kept, fun j after inside =>
    shifted j (by omega) inside⟩

theorem damaged_shift (start : Nat) (record moved received : Text)
    (same : ∀ j < start, moved[j]? = record[j]?) (shifted : Shifted start moved received)
    (damaged : Damaged record received) : Damaged moved received := by
  -- shifting the tail of a damaged record does not repair it
  obtain ⟨q, p, ahead, inside, begun, stays⟩ := damaged
  by_cases before : p ≤ start
  · refine ⟨q, p, ahead, inside, begun, fun j low high => ?_⟩
    rw [same j (by omega)]
    exact stays j low high
  by_cases after : start ≤ q
  · exact shifted_damaged start q moved received shifted after (by omega) begun
  by_cases visible : ∃ r, start ≤ r ∧ r < received.length ∧ received[r]? ≠ some nul
  · obtain ⟨r, low, high, kept⟩ := visible
    exact shifted_damaged start r moved received shifted low high kept
  · -- everything sent from `start` on is zero, so the damage already shows before it
    have blank : ∀ r, start ≤ r → r < received.length → received[r]? = some nul := by
      intro r low high
      by_contra kept
      exact visible ⟨r, low, high, kept⟩
    refine ⟨q, start, by omega, by omega, begun, fun j low high => ?_⟩
    rw [same j high]
    rcases stays j low (by omega) with zero | ⟨k, later, bound, copied⟩
    · exact .inl zero
    · by_cases early : k < start
      · exact .inr ⟨k, later, early, copied⟩
      · exact .inl (by rw [copied]; exact blank k (by omega) (by omega))

theorem carried_shifted (head part old kept piece : Text) (fits : piece.length < slot)
    (short : part.length ≤ slot) (data : head ++ part = old ++ piece)
    (sized : old.length = kept.length) :
    Shifted head.length (head ++ carried part piece.length) (kept ++ piece) := by
  have total := congrArg List.length data
  rw [List.length_append, List.length_append] at total
  intro j low high
  rw [List.length_append] at high
  rw [List.getElem?_append_right low, carried, List.getElem?_drop]
  by_cases inside : slot - piece.length + (j - head.length) < part.length
  · refine .inr ⟨j + (slot - piece.length), by omega, by rw [List.length_append]; omega, ?_⟩
    have place : slot - piece.length + (j - head.length) = j +
        (slot - piece.length) - head.length := by
      omega
    rw [List.getElem?_append_left inside, place, ← List.getElem?_append_right (by omega), data,
      List.getElem?_append_right (by omega), List.getElem?_append_right (by omega), sized]
  · refine .inl ?_
    rw [List.getElem?_append_right (by omega), List.getElem?_replicate, if_pos (by omega)]

theorem drain_cases (buf : Text) (fuel : Nat) (msgAlig msgLen left : Int) (calls after : List Text)
    (drained : drain buf (fuel + 1) msgAlig msgLen calls = some (left, after)) :
    (left = msgLen ∧ after = calls) ∨ ∃ length : Int, length ≤ msgLen - 10 ∧
      drain buf fuel (msgAlig + (length + 11)) (msgLen - (length + 11))
        (calls ++ [(buf.drop msgAlig.toNat).take (length + 11).toNat]) = some (left, after) := by
  -- what one pass of the inner loop can do
  rw [drain] at drained
  by_cases short : msgLen < 10
  · rw [if_pos short] at drained
    obtain ⟨rfl, rfl⟩ := Prod.mk.inj (Option.some.inj drained)
    exact .inl ⟨rfl, rfl⟩
  rw [if_neg short] at drained
  obtain ⟨field, -, drained⟩ := Option.bind_eq_some_iff.mp drained
  simp only at drained
  by_cases wait : atoi field > msgLen - 10
  · rw [if_pos wait] at drained
    obtain ⟨rfl, rfl⟩ := Prod.mk.inj (Option.some.inj drained)
    exact .inl ⟨rfl, rfl⟩
  · rw [if_neg wait] at drained
    obtain ⟨header, -, drained⟩ := Option.bind_eq_some_iff.mp drained
    exact .inr ⟨atoi field, by omega, drained⟩

theorem drain_appends (buf : Text) (fuel : Nat) (msgAlig msgLen left : Int)
    (calls after : List Text) (drained : drain buf fuel msgAlig msgLen calls = some (left, after)) :
    ∃ new, after = calls ++ new := by
  induction fuel generalizing msgAlig msgLen calls with
  | zero => simp [drain] at drained
  | succ fuel ih =>
      obtain ⟨-, same⟩ | ⟨length, -, drained⟩ := drain_cases _ _ _ _ _ _ _ drained
      · exact ⟨[], by simp [same]⟩
      · obtain ⟨new, grown⟩ := ih _ _ _ drained
        exact ⟨_ :: new, by rw [grown, List.append_assoc]; rfl⟩

/-- Whatever the bytes are: a call shorter than any frame, one byte too many, or an
exact cut of the bytes into calls and a rest. -/
theorem drain_general (front rest spare : Text) (fuel : Nat) (left : Int) (calls after : List Text)
    (drained : drain (front ++ (rest ++ spare)) fuel front.length rest.length calls =
      some (left, after)) :
    ∃ new, after = calls ++ new ∧ ((∃ call ∈ new, call.length < 11) ∨ left = -1 ∨
      ∃ part, rest = new.flatten ++ part ∧ left = part.length) := by
  induction fuel generalizing front rest calls with
  | zero => simp [drain] at drained
  | succ fuel ih =>
      obtain ⟨rfl, rfl⟩ | ⟨length, fits, drained⟩ := drain_cases _ _ _ _ _ _ _ drained
      · exact ⟨[], by simp, .inr (.inr ⟨rest, by simp, rfl⟩)⟩
      rw [Int.toNat_natCast, List.drop_left] at drained
      -- a negative length makes a call that is shorter than any frame
      by_cases negative : length < 0
      · obtain ⟨new, grown⟩ := drain_appends _ _ _ _ _ _ _ drained
        refine ⟨_ :: new, by rw [grown, List.append_assoc]; rfl, .inl ⟨_, List.mem_cons_self, ?_⟩⟩
        rw [List.length_take]
        omega
      obtain ⟨n, rfl⟩ := Int.eq_ofNat_of_zero_le (by omega : 0 ≤ length)
      have count : ((n : Int) + 11).toNat = n + 11 := by omega
      rw [count] at drained
      by_cases short : rest.length < n + 11
      · -- the call takes one byte more than there is, and the loop ends
        have ended : (rest.length : Int) - (n + 11) = -1 := by omega
        obtain ⟨new, grown⟩ := drain_appends _ _ _ _ _ _ _ drained
        refine ⟨_ :: new, by rw [grown, List.append_assoc]; rfl, .inr (.inl ?_)⟩
        cases fuel with
        | zero => simp [drain] at drained
        | succ fuel =>
            rw [drain, if_pos (by omega), ended] at drained
            exact (Prod.mk.inj (Option.some.inj drained)).1.symm
      · have cut : rest = rest.take (n + 11) ++ rest.drop (n + 11) :=
          (List.take_append_drop (n + 11) rest).symm
        have size : (rest.take (n + 11)).length = n + 11 := List.length_take_of_le (by omega)
        have ahead : (front.length : Int) + (n + 11) = (front ++ rest.take (n + 11)).length := by
          rw [List.length_append, size]
          omega
        have fewer : (rest.length : Int) - (n + 11) = (rest.drop (n + 11)).length := by
          rw [List.length_drop]
          omega
        have shape : front ++ (rest ++ spare) =
            (front ++ rest.take (n + 11)) ++ (rest.drop (n + 11) ++ spare) := by
          rw [List.append_assoc, ← List.append_assoc (rest.take (n + 11)), ← cut]
        rw [ahead, fewer, shape, List.take_append_of_le_length (by omega)] at drained
        obtain ⟨new, grown, outcome⟩ := ih _ _ _ drained
        refine ⟨rest.take (n + 11) :: new, by rw [grown, List.append_assoc]; rfl, ?_⟩
        rcases outcome with ⟨call, member, short⟩ | last | ⟨part, split, size'⟩
        · exact .inl ⟨call, List.mem_cons_of_mem _ member, short⟩
        · exact .inr (.inl last)
        · refine .inr (.inr ⟨part, ?_, size'⟩)
          rw [List.flatten_cons, List.append_assoc, ← split, ← cut]

/-- A receiver that can no longer deliver what it received: a call was shorter than any
frame, or the bytes it handed over and carries are damaged. -/
def Spoiled (receiver : Receiver) (received : Text) : Prop :=
  (∃ call ∈ receiver.calls, call.length < 11) ∨
    ∃ carry, Carries receiver carry ∧ (receiver.calls.flatten ++ carry).length = received.length ∧
      Damaged (receiver.calls.flatten ++ carry) received

theorem carried_length (part : Text) (size : Nat) : (carried part size).length = part.length := by
  simp [carried]

theorem spoiled_receive (fuel : Nat) (receiver next : Receiver) (received piece : Text)
    (fits : piece.length ≤ slot) (spoiled : Spoiled receiver received)
    (step : receive fuel receiver piece = some next) : Spoiled next (received ++ piece) := by
  obtain ⟨call, member, short⟩ | ⟨carry, carries, sized, damaged⟩ := spoiled
  · obtain ⟨drained, loop, step⟩ := Option.bind_eq_some_iff.mp step
    obtain ⟨new, grown⟩ := drain_appends _ _ _ _ _ _ _ loop
    obtain ⟨moved, -, step⟩ := Option.bind_eq_some_iff.mp step
    obtain rfl := Option.some.inj step
    exact .inl ⟨call, by rw [grown]; exact List.mem_append_left _ member, short⟩
  obtain ⟨front, whole, same⟩ := receive_eq fuel receiver carry piece carries
  rw [same] at step
  obtain ⟨⟨left, after⟩, loop, moving⟩ := Option.bind_eq_some_iff.mp step
  obtain ⟨moved, copied, rfl⟩ := Option.map_eq_some_iff.mp moving
  have general : drain (front ++ ((carry ++ piece) ++ List.replicate (slot - piece.length) nul))
      fuel
      front.length (carry ++ piece).length receiver.calls = some (left, after) := by
    rw [List.append_assoc, List.length_append, Nat.cast_add]
    exact loop
  obtain ⟨new, rfl, ⟨call, member, short⟩ | last | ⟨part, data, rfl⟩⟩ :=
    drain_general _ _ _ _ _ _ _ general
  · exact .inl ⟨call, List.mem_append_right _ member, short⟩
  · rw [relocate_fails _ _ (by simp only; omega)] at copied
    simp at copied
  have short : part.length ≤ slot := by
    by_contra long
    rw [relocate_fails _ _ (by simp only; omega)] at copied
    simp at copied
  have size := window_length carry piece fits
  have total := congrArg List.length data
  rw [List.length_append, List.length_append] at total
  obtain ⟨next, received', calls, held⟩ :=
    receive_left fuel part.length receiver carry piece front _
    whole fits short (by omega) same loop
  rw [same, step, Option.some.injEq] at received'
  subst received'
  rw [window_carried _ carry piece part fits data] at held
  refine .inr ⟨_, held, ?_, ?_⟩
  · rw [List.length_append] at sized
    simp only [List.flatten_append, List.length_append, carried_length]
    omega
  have before := damaged_append _ _ piece sized damaged
  have shape : receiver.calls.flatten ++ carry ++ piece = (receiver.calls ++ new).flatten ++
      part := by
    rw [List.append_assoc, data, List.flatten_append, List.append_assoc]
  by_cases full : piece.length = slot
  · rwa [full, carried_full, ← shape]
  · refine damaged_shift (receiver.calls ++ new).flatten.length _ _ _ (fun j early => ?_)
      (carried_shifted _ part (receiver.calls.flatten ++ carry) received piece (by omega) short
        shape.symm sized) before
    rw [shape, List.getElem?_append_left early, List.getElem?_append_left early]

theorem spoiled_run (fuel : Nat) (pieces : List Text) (receiver last : Receiver) (received : Text)
    (fits : ∀ piece ∈ pieces, piece.length ≤ slot) (spoiled : Spoiled receiver received)
    (run : receiveAll fuel receiver pieces = some last) :
    Spoiled last (received ++ pieces.flatten) := by
  induction pieces generalizing receiver received with
  | nil =>
      obtain rfl : receiver = last := by simpa [receiveAll] using run
      simpa using spoiled
  | cons piece pieces ih =>
      obtain ⟨next, step, run⟩ := Option.bind_eq_some_iff.mp run
      rw [List.forall_mem_cons] at fits
      rw [List.flatten_cons, ← List.append_assoc]
      exact ih next _ fits.2 (spoiled_receive fuel receiver next received piece fits.1 spoiled step)
        run

theorem spoiled_undelivered (receiver : Receiver) (frames : List Frame)
    (spoiled : Spoiled receiver (frames.flatMap Frame.text)) :
    receiver.calls ≠ frames.map Frame.text := by
  intro same
  obtain ⟨call, member, short⟩ | ⟨carry, -, sized, damaged⟩ := spoiled
  · rw [same] at member
    obtain ⟨frame, -, rfl⟩ := List.mem_map.mp member
    rw [frame_length] at short
    omega
  · rw [same, ← List.flatMap_def] at sized damaged
    rw [List.length_append] at sized
    have empty : carry = [] := List.eq_nil_of_length_eq_zero (by omega)
    rw [empty, List.append_nil] at damaged
    exact damaged_ne _ _ damaged rfl

theorem spoiled_first (done : List Frame) (frame : Frame) (tail : List Frame) (receiver : Receiver)
    (old piece part more : Text) (fits : piece.length < slot) (short : part.length ≤ slot)
    (called : receiver.calls = done.map Frame.text)
    (carries : Carries receiver (carried part piece.length)) (some' : part ≠ [])
    (open' : part.length < frame.text.length)
    (stream : part ++ more = (frame :: tail).flatMap Frame.text)
    (data : done.flatMap Frame.text ++ part = old ++ piece) :
    Spoiled receiver (old ++ piece) := by
  -- the first relocation from a slot that is not full
  have calls : receiver.calls.flatten = done.flatMap Frame.text := by
    rw [called, ← List.flatMap_def]
  refine .inr ⟨_, carries, ?_, ?_⟩
  · rw [calls, ← data, List.length_append, List.length_append, carried_length]
  · have shifted := carried_shifted _ part old old piece fits short data rfl
    rw [calls]
    have positive := List.length_pos_iff.mpr some'
    refine shifted_damaged _ (done.flatMap Frame.text).length _ _ shifted le_rfl ?_ ?_
    · rw [← data, List.length_append]
      omega
    · -- the unfinished frame starts with a digit of its id
      have first := part_take frame tail part more stream open'
      obtain ⟨c, rest, spelled⟩ : ∃ c rest, frame.id = c :: rest :=
        List.exists_cons_of_length_pos (by rw [frame.idDigits.1]; decide)
      have digit := frame.idDigits.2 c (by rw [spelled]; exact List.mem_cons_self)
      rw [← data, List.getElem?_append_right le_rfl, Nat.sub_self, first,
        List.getElem?_take_of_lt positive, Frame.text, Frame.header, spelled]
      simp only [List.cons_append, List.getElem?_cons_zero, Option.some.injEq, ne_eq]
      rintro rfl
      exact absurd digit (by decide)

/-! The whole connection. -/

theorem carried_kept (part : Text) (size : Nat) (kept : part = [] ∨ size = slot) :
    carried part size = part := by
  rcases kept with rfl | rfl
  · simp [carried]
  · exact carried_full part

theorem rest_cases (rest : List Frame) (part : Text) (ended : rest = [] → part = []) :
    (∃ frame tail, rest = frame :: tail ∧ part ≠ [] ∧
      (slot < part.length ∨ part.length + 1 = frame.text.length)) ∨
    (part = [] ∨ (part.length ≤ slot ∧ ∃ frame tail, rest = frame :: tail ∧
      part.length + 1 ≠ frame.text.length)) := by
  -- what is left of the next frame ends the loop with a bad copy, or can be carried over
  by_cases empty : part = []
  · exact .inr (.inl empty)
  · cases rest with
    | nil => exact absurd (ended rfl) empty
    | cons frame tail =>
        by_cases bad : slot < part.length ∨ part.length + 1 = frame.text.length
        · exact .inl ⟨frame, tail, rfl, empty, bad⟩
        · obtain ⟨fit, more⟩ := not_or.mp bad
          exact .inr (.inr ⟨Nat.le_of_not_lt fit, frame, tail, rfl, more⟩)

theorem delivered_iff (frames done todo : List Frame) (carry : Text) (fuel : Nat)
    (pieces : List Text) (receiver : Receiver) (split : frames = done ++ todo)
    (called : receiver.calls = done.map Frame.text) (carries : Carries receiver carry)
    (stream : carry ++ pieces.flatten = todo.flatMap Frame.text)
    (begun : ∀ frame tail, todo = frame :: tail → carry.length < frame.text.length)
    (fits : ∀ piece ∈ pieces, piece.length ≤ slot) :
    Delivered (receiveAll (fuel + 14) receiver pieces) frames ↔
      AllTolerated frames ((done.flatMap Frame.text).length + carry.length) pieces := by
  -- from a state that carries exactly the bytes of the unfinished frame
  induction pieces generalizing done todo carry receiver with
  | nil =>
      have finished : todo = [] := by
        cases todo with
        | nil => rfl
        | cons frame tail =>
            have short := begun frame tail rfl
            have size := congrArg List.length stream
            simp only [List.flatten_nil, List.append_nil, List.flatMap_cons, List.length_append]
              at size
            omega
      subst finished split
      rw [List.append_nil]
      exact ⟨fun _ => trivial, fun _ => ⟨receiver, rfl, called⟩⟩
  | cons piece pieces ih =>
      rw [List.forall_mem_cons] at fits
      rw [List.flatten_cons, ← List.append_assoc] at stream
      -- the piece completes the frames `fin` and leaves `part` of the next one
      obtain ⟨fin, rest, part, parted, data, after, ended, short⟩ := split_stream todo _ _ stream
      have total : frames = (done ++ fin) ++ rest := by rw [split, parted, List.append_assoc]
      have count := congrArg List.length data
      rw [List.length_append, List.length_append] at count
      have received : (done.flatMap Frame.text).length + carry.length + piece.length =
          ((done ++ fin).flatMap Frame.text).length + part.length := by
        rw [List.flatMap_append, List.length_append]
        omega
      rw [AllTolerated, received, total, tolerated_iff (done ++ fin) rest part.length piece.length
        (fun none => by rw [ended none]; rfl) short, ← total]
      have runs : receiveAll (fuel + 14) receiver (piece :: pieces) =
          (receive (fuel + 14) receiver piece).bind fun next =>
            receiveAll (fuel + 14) next pieces := rfl
      rw [runs]
      rcases rest_cases rest part ended with ⟨frame, tail, rfl, some', bad⟩ | held
      · rw [receive_stops fin tail frame carry piece part pieces.flatten fuel receiver carries
          fits.1 data after (short frame tail rfl) bad]
        have positive := List.length_pos_iff.mpr some'
        constructor
        · rintro ⟨last, none, -⟩
          simp at none
        · rintro ⟨empty | ⟨other, tail', same, -, fit, more⟩, -⟩
          · omega
          · obtain ⟨rfl, rfl⟩ := List.cons.inj same
            omega
      have small : part.length ≤ slot := by
        rcases held with empty | ⟨fit, -⟩
        · simp [empty]
        · exact fit
      obtain ⟨next, step, calls, carries'⟩ := receive_keeps done fin rest carry piece part _ fuel
        receiver carries called fits.1 data after ended (fun frame tail same => by
          have less := short frame tail same
          have least := frame_length frame
          by_cases empty : part = []
          · rw [empty, List.length_nil]; omega
          · obtain ⟨-, other, tail', same', more⟩ := held.resolve_left empty
            obtain ⟨rfl, rfl⟩ := List.cons.inj (same.symm.trans same')
            omega) small
      rw [step, Option.bind_some]
      -- the rest is carried as it is, or it comes from a slot that was not full
      by_cases kept : part = [] ∨ piece.length = slot
      · rw [carried_kept part piece.length kept] at carries'
        rw [ih (done ++ fin) rest part next total calls carries' after short fits.2]
        refine ⟨fun later => ⟨?_, later⟩, fun both => both.2⟩
        by_cases empty : part = []
        · exact .inl (by simp [empty])
        · obtain ⟨-, frame, tail, same, more⟩ := held.resolve_left empty
          exact .inr ⟨frame, tail, same, kept.resolve_left empty, small, more⟩
      · rw [not_or] at kept
        obtain ⟨-, frame, tail, rfl, -⟩ := held.resolve_left kept.1
        -- from here on some byte handed over or carried differs from the one sent
        have spoiled := spoiled_first (done ++ fin) frame tail next
          (done.flatMap Frame.text ++ carry) piece part pieces.flatten (by omega) small calls
          carries' kept.1 (short frame tail rfl) after (by
            rw [List.flatMap_append, List.append_assoc, ← data, List.append_assoc])
        constructor
        · rintro ⟨last, run, same⟩
          have ruined := spoiled_run _ _ _ _ _ fits.2 spoiled run
          rw [List.append_assoc, List.append_assoc, ← List.append_assoc carry, stream,
            ← List.flatMap_append, ← split] at ruined
          exact absurd same (spoiled_undelivered last frames ruined)
        · rintro ⟨empty | ⟨-, -, -, full, -⟩, -⟩
          · exact absurd (List.eq_nil_of_length_eq_zero empty) kept.1
          · exact absurd full kept.2

/-- The receive loop delivers the frames of a connection exactly when every `recv`
ends at a frame boundary, or fills its slot and leaves at most a slot of a frame that
misses more than its last byte. -/
theorem frames_delivered_iff (garbage : Fin (2 * slot) → Char) (fuel : Nat) (frames : List Frame)
    (pieces : List Text) (segmented : Segmented frames pieces) :
    Delivered (receiveAll (fuel + 14) (Receiver.fresh garbage) pieces) frames ↔
      AllTolerated frames 0 pieces := by
  have carries : Carries (Receiver.fresh garbage) [] := by
    refine ⟨by simp [Receiver.fresh], by simp, by simp [Receiver.fresh], by simp⟩
  have general := delivered_iff frames [] frames [] fuel pieces (Receiver.fresh garbage) rfl rfl
      carries
    segmented.stream (fun frame tail _ => by rw [frame_length, List.length_nil]; omega)
    (fun piece member => (segmented.sized piece member).2)
  simpa using general

def beatFrame : Frame :=
  ⟨"0001".toList, "009".toList, [],
    ⟨rfl, each_char (by decide)⟩, ⟨rfl, each_char (by decide)⟩, by decide⟩

/-- Seven echoes: the first `recv` fills the slot and ends inside the last one. -/
def beats : List Frame := List.replicate 7 beatFrame

def beatPieces : List Text :=
  [(beats.flatMap Frame.text).take 68, (beats.flatMap Frame.text).drop 68]

theorem split_echo_delivered : Segmented beats beatPieces ∧
    (Delivered (receiveAll 14 (Receiver.fresh fun _ => nul) beatPieces) beats ↔
      AllTolerated beats 0 beatPieces) ∧
      AllTolerated beats 0 beatPieces := by
  have segmented : Segmented beats beatPieces := ⟨by decide +kernel, by decide +kernel⟩
  refine ⟨segmented, frames_delivered_iff _ 0 _ _ segmented, ?_, ?_, trivial⟩
  · intro part whole found
    have split := found.symm.trans (show unfinished beats 68 = some (2, 11) by decide +kernel)
    cases split
    decide +kernel
  · intro part whole found
    exact absurd (found.symm.trans (show unfinished beats 77 = none by decide +kernel)) (by simp)

theorem split_beat_lost :
    Segmented [beatFrame] ["000".toList, "1009000;".toList] ∧
      ¬ Delivered (receiveAll 14 (Receiver.fresh fun _ => nul) ["000".toList, "1009000;".toList])
        [beatFrame] := by
  refine ⟨⟨rfl, by decide⟩, ?_⟩
  have calls : (receiveAll 14 (Receiver.fresh fun _ => nul) ["000".toList, "1009000;".toList]).map
      Receiver.calls = some [[nul, nul, nul, '1', '0', '0', '9', '0', '0', '0', ';']] := by
    decide +kernel
  rintro ⟨receiver, run, same⟩
  rw [run, Option.map_some, same, Option.some.injEq] at calls
  exact absurd calls (by decide)

end LazyAS.FrameDelivery

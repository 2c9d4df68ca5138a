import Mathlib.Data.List.Basic

/-! One connection of the data collector: what `sendRecord` of network.c writes and what
`receive` of DataReceiver.cpp makes of the pieces in which `read` delivers it. `size` is
`sizeof(struct Record)`; a record is its memory. -/
namespace LazyAS.RecordStream

variable {size : Nat}

structure Record (size : Nat) where
  bytes : List UInt8
  sized : bytes.length = size
  deriving DecidableEq

structure Piece (size : Nat) where
  bytes : List UInt8
  present : bytes ≠ []
  fits : bytes.length ≤ size
  deriving DecidableEq

/-- `write(socketfd, record, sizeof(Record))`, onto the bytes written before. -/
def sendRecord (stream : List UInt8) (record : Record size) : List UInt8 := stream ++ record.bytes

def sent (records : List (Record size)) : List UInt8 := records.foldl sendRecord []

inductive Read (size : Nat) where
  | bytes (piece : Piece size)
  | eof
  | error
  deriving DecidableEq

def Record.overwrite (record : Record size) (piece : Piece size) : Record size where
  bytes := piece.bytes ++ record.bytes.drop piece.bytes.length
  sized := by
    have := piece.fits
    have := record.sized
    simp only [List.length_append, List.length_drop]
    omega

inductive Stage where
  | reading | waiting | closed
  deriving DecidableEq, Repr

/-- The loop of `receive` from pass number `i` on: the records it adds and where it ends.
`fresh i` is the memory `get_record` allocates for the pass and `isFull i` what `IsFull`
says in it. An error is not 0, so the pass goes on with the memory as it is; on `full` a
thread waits forever, since nobody signals it. -/
def receive (isFull : Nat → Bool) (fresh : Nat → Record size) :
    Nat → List (Read size) → List (Record size) × Stage
  | _, [] => ([], .reading)
  | i, read :: reads =>
      let add (record : Record size) : List (Record size) × Stage :=
        if isFull i then ([], .waiting)
        else
          let rest := receive isFull fresh (i + 1) reads
          (record :: rest.1, rest.2)
      match read with
      | .eof => ([], .closed)
      | .bytes piece => add ((fresh i).overwrite piece)
      | .error => add (fresh i)

inductive Ending where
  | eof | error
  deriving DecidableEq, Repr

def Ending.read : Ending → Read size
  | .eof => .eof
  | .error => .error

/-- A delivery of what a client wrote: all its bytes in pieces, then the end of the
connection, and whatever further reads return. -/
structure Delivery (records : List (Record size)) where
  pieces : List (Piece size)
  ending : Ending
  later : List (Read size)
  whole : pieces.flatMap Piece.bytes = sent records

def Delivery.reads {records : List (Record size)} (delivery : Delivery records) :
    List (Read size) :=
  delivery.pieces.map .bytes ++ delivery.ending.read :: delivery.later

/-- The records are added as they were sent, and the thread stops. -/
def Intact (isFull : Nat → Bool) (fresh : Nat → Record size) {records : List (Record size)}
    (delivery : Delivery records) : Prop :=
  receive isFull fresh 0 delivery.reads = (records, .closed)

/-- Every read but the last delivers a whole record and finds room for it, and the
connection ends without an error. -/
structure Aligned (isFull : Nat → Bool) {records : List (Record size)}
    (delivery : Delivery records) : Prop where
  whole : ∀ piece ∈ delivery.pieces, piece.bytes.length = size
  ended : delivery.ending = .eof
  room : ∀ i, i < delivery.pieces.length → isFull i = false

/-! Passes. -/

theorem receive_pass (isFull : Nat → Bool) (fresh : Nat → Record size) (i : Nat) (read : Read size)
    (reads : List (Read size)) (goes : read ≠ .eof) :
    ∃ record, receive isFull fresh i (read :: reads) =
      if isFull i then ([], .waiting)
      else (record :: (receive isFull fresh (i + 1) reads).1,
        (receive isFull fresh (i + 1) reads).2) := by
  cases read with
  | eof => exact absurd rfl goes
  | bytes piece => exact ⟨_, rfl⟩
  | error => exact ⟨_, rfl⟩

theorem closed_passes (isFull : Nat → Bool) (fresh : Nat → Record size) (i : Nat)
    (before after : List (Read size)) (going : .eof ∉ before)
    (closed : (receive isFull fresh i (before ++ after)).2 = .closed) :
    before.length ≤ (receive isFull fresh i (before ++ after)).1.length ∧
      ∀ j, j < before.length → isFull (i + j) = false := by
  -- a thread that stops has added a record for every read before the one that returned 0
  induction before generalizing i with
  | nil => simp
  | cons read before ih =>
      simp only [List.mem_cons, not_or] at going
      obtain ⟨record, pass⟩ := receive_pass isFull fresh i read (before ++ after) (Ne.symm going.1)
      rw [List.cons_append, pass] at closed ⊢
      cases full : isFull i with
      | true =>
          -- the pass waits, so the thread does not come to its end
          simp [full] at closed
      | false =>
          simp only [full, Bool.false_eq_true, ↓reduceIte] at closed ⊢
          obtain ⟨added, room⟩ := ih (i + 1) going.2 closed
          constructor
          · simpa using added
          · intro j inside
            cases j with
            | zero => exact full
            | succ j =>
                have later := room j (by simpa using inside)
                rwa [Nat.add_right_comm] at later

theorem receive_whole (isFull : Nat → Bool) (fresh : Nat → Record size) (i : Nat)
    (pieces : List (Piece size)) (reads : List (Read size))
    (whole : ∀ piece ∈ pieces, piece.bytes.length = size)
    (room : ∀ j, j < pieces.length → isFull (i + j) = false) :
    ((receive isFull fresh i (pieces.map .bytes ++ .eof :: reads)).1.map Record.bytes =
      pieces.map Piece.bytes) ∧
      (receive isFull fresh i (pieces.map .bytes ++ .eof :: reads)).2 = .closed := by
  induction pieces generalizing i with
  | nil => exact ⟨rfl, rfl⟩
  | cons piece pieces ih =>
      have here := room 0 (Nat.succ_pos _)
      rw [Nat.add_zero] at here
      have rest := ih (i + 1) (fun p member => whole p (List.mem_cons_of_mem _ member)) fun j
          inside => by
        have later := room (j + 1) (Nat.succ_lt_succ inside)
        rwa [← Nat.add_assoc, Nat.add_right_comm] at later
      have filled : ((fresh i).overwrite piece).bytes = piece.bytes := by
        have long := whole piece (List.mem_cons_self ..)
        have sized := (fresh i).sized
        simp [Record.overwrite, long, ← sized]
      simp only [List.map_cons, List.cons_append, receive, here, Bool.false_eq_true, ↓reduceIte,
        filled]
      exact ⟨congrArg _ rest.1, rest.2⟩

/-! Counting the bytes. -/

theorem sendRecord_foldl (stream : List UInt8) (records : List (Record size)) :
    records.foldl sendRecord stream = stream ++ records.flatMap Record.bytes := by
  induction records generalizing stream with
  | nil => simp
  | cons record records ih => simp [ih, sendRecord]

theorem sent_length (records : List (Record size)) :
    (sent records).length = records.length * size := by
  rw [sent, sendRecord_foldl, List.nil_append]
  induction records with
  | nil => simp
  | cons record records ih =>
      rw [List.flatMap_cons, List.length_append, ih, record.sized, List.length_cons, Nat.succ_mul,
        Nat.add_comm]

theorem pieces_length_le (pieces : List (Piece size)) :
    (pieces.flatMap Piece.bytes).length ≤ pieces.length * size := by
  induction pieces with
  | nil => simp
  | cons piece pieces ih =>
      rw [List.flatMap_cons, List.length_append, List.length_cons, Nat.succ_mul]
      have fits := piece.fits
      omega

theorem whole_of_length (pieces : List (Piece size))
    (long : pieces.length * size ≤ (pieces.flatMap Piece.bytes).length) :
    ∀ piece ∈ pieces, piece.bytes.length = size := by
  induction pieces with
  | nil => nofun
  | cons piece pieces ih =>
      rw [List.flatMap_cons, List.length_append, List.length_cons, Nat.succ_mul] at long
      have fits := piece.fits
      have others := pieces_length_le pieces
      intro p member
      rcases List.mem_cons.mp member with rfl | later
      · omega
      · exact ih (by omega) p later

theorem blocks_eq (positive : 0 < size) (first second : List (List UInt8))
    (firstSized : ∀ block ∈ first, block.length = size)
    (secondSized : ∀ block ∈ second, block.length = size)
    (same : first.flatten = second.flatten) : first = second := by
  -- blocks of one size can be told apart in their concatenation
  have filled (block : List UInt8) (blocks : List (List UInt8)) (sized : block.length = size) :
      (block :: blocks).flatten ≠ [] := by
    intro empty
    rw [List.flatten_cons, List.append_eq_nil_iff] at empty
    rw [empty.1, List.length_nil] at sized
    omega
  induction first generalizing second with
  | nil =>
      cases second with
      | nil => rfl
      | cons block second =>
          exact absurd same.symm (filled block second (secondSized block (List.mem_cons_self ..)))
  | cons block first ih =>
      have long := firstSized block (List.mem_cons_self ..)
      cases second with
      | nil => exact absurd same (filled block first long)
      | cons other second =>
          have otherLong := secondSized other (List.mem_cons_self ..)
          rw [List.flatten_cons, List.flatten_cons] at same
          obtain ⟨here, rest⟩ := List.append_inj same (long.trans otherLong.symm)
          rw [here, ih second (fun b member => firstSized b (List.mem_cons_of_mem _ member))
            (fun b member => secondSized b (List.mem_cons_of_mem _ member)) rest]

theorem Record.bytes_injective : Function.Injective (Record.bytes : Record size → List UInt8) := by
  rintro ⟨first, _⟩ ⟨second, _⟩ same
  simpa using same

theorem eof_unread (pieces : List (Piece size)) : Read.eof ∉ pieces.map Read.bytes := by
  simp

/-- Whatever the pieces are, the records come through and the thread stops exactly if each
piece is a whole record that finds room and the connection ends without an error. -/
theorem intact_iff (positive : 0 < size) (isFull : Nat → Bool) (fresh : Nat → Record size)
    (records : List (Record size)) (delivery : Delivery records) :
    Intact isFull fresh delivery ↔ Aligned isFull delivery := by
  have total := congrArg List.length delivery.whole
  rw [sent_length] at total
  constructor
  · intro intact
    have closed : (receive isFull fresh 0 delivery.reads).2 = .closed := by rw [intact]
    cases ending : delivery.ending with
    | eof =>
        obtain ⟨added, room⟩ := closed_passes isFull fresh 0 (delivery.pieces.map .bytes) _
          (eof_unread delivery.pieces) closed
        rw [show receive isFull fresh 0 (delivery.pieces.map .bytes ++ _) = _ from intact,
          List.length_map] at added
        constructor
        · -- there are no more pieces than records, so each piece carries the bytes of one
          apply whole_of_length
          rw [total]
          exact Nat.mul_le_mul_right size added
        · exact ending
        · intro i inside
          rw [← Nat.zero_add i]
          exact room i (by simpa using inside)
    | error =>
        -- After the error one more record is added, and there are not so many bytes.
        have split : delivery.reads = (delivery.pieces.map .bytes ++ [.error]) ++
            delivery.later := by
          simp [Delivery.reads, ending, Ending.read]
        rw [split] at closed
        obtain ⟨added, -⟩ := closed_passes isFull fresh 0 _ delivery.later (by simp) closed
        rw [← split, show receive isFull fresh 0 delivery.reads = _ from intact, List.length_append,
          List.length_map, List.length_singleton] at added
        have few := pieces_length_le delivery.pieces
        have many : (delivery.pieces.length + 1) * size ≤ records.length * size :=
          Nat.mul_le_mul_right size added
        rw [total] at few
        rw [Nat.succ_mul] at many
        omega
  · intro aligned
    have reads : delivery.reads = delivery.pieces.map .bytes ++ .eof :: delivery.later := by
      rw [Delivery.reads, aligned.ended, Ending.read]
    obtain ⟨added, closed⟩ := receive_whole isFull fresh 0 delivery.pieces delivery.later
        aligned.whole
      (fun j inside => (Nat.zero_add j).symm ▸ aligned.room j inside)
    have blocks : delivery.pieces.map Piece.bytes = records.map Record.bytes := by
      apply blocks_eq positive
      · simpa using aligned.whole
      · simp [Record.sized]
      · have whole := delivery.whole
        rw [sent, sendRecord_foldl, List.nil_append] at whole
        rw [← List.flatMap_def, ← List.flatMap_def]
        exact whole
    rw [Intact, reads]
    exact Prod.ext (Record.bytes_injective.list_map (added.trans blocks)) closed

def threeRecords : List (Record 72) :=
  [7, 8, 9].map fun n => ⟨List.replicate 72 n, List.length_replicate⟩

def onePiece (record : Record 72) : Piece 72 where
  bytes := record.bytes
  present := by
    rw [← List.length_pos_iff, record.sized]
    decide
  fits := Nat.le_of_eq record.sized

def threeWhole : Delivery threeRecords where
  pieces := threeRecords.map onePiece
  ending := .eof
  later := []
  whole := rfl

theorem intact_three :
    Intact (fun _ => false) (fun _ => ⟨List.replicate 72 0, List.length_replicate⟩) threeWhole ↔
      Aligned (fun _ => false) threeWhole :=
  intact_iff (by decide) _ _ threeRecords threeWhole

/-! Where it goes wrong. -/

def splitRecord : Record 72 := ⟨List.replicate 72 7, List.length_replicate⟩

def split : Delivery [splitRecord] where
  pieces := [⟨List.replicate 40 7, by simp, by simp⟩, ⟨List.replicate 32 7, by simp, by simp⟩]
  ending := .eof
  later := []
  whole := rfl

/-- Two records are added for the one that was sent, neither of them it. -/
theorem split_adds_two :
    ((receive (fun _ => false) (fun _ => ⟨List.replicate 72 0, List.length_replicate⟩) 0
      split.reads).1.map
        Record.bytes = [List.replicate 40 7 ++ List.replicate 32 0,
          List.replicate 32 7 ++ List.replicate 40 0]) ∧
      ¬ Intact (fun _ => false) (fun _ => ⟨List.replicate 72 0, List.length_replicate⟩) split := by
  constructor
  · decide
  · intro intact
    have added := congrArg (List.length ∘ Prod.fst) intact
    simp [split, Delivery.reads, Ending.read, receive] at added

end LazyAS.RecordStream

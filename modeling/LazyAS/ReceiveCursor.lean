import LazyAS.FrameReassembly
import LazyAS.Runs

/-! The cursor of `fnii_receive_msg_thread`: where its frame loop reads for any content of the
memory, when the loop ends, and when the carried length stays within the buffer. Offsets count
from `msg_buf`; the memory around the buffer is readable and holds anything. -/
namespace LazyAS.ReceiveCursor
open WireText FrameReassembly Runs

/-! The frame loop. -/

structure Cursor where
  msgAlig : Int
  msgLen : Int
  deriving DecidableEq

variable (mem : Int → Char)

def lengthField (msgAlig : Int) : Text := [mem (msgAlig + 7), mem (msgAlig + 8), mem (msgAlig + 9)]

def msgSgLen (msgAlig : Int) : Int := atoi (lengthField mem msgAlig)

def pass (c : Cursor) : Option Cursor :=
  if c.msgLen < 10 then none
  else if msgSgLen mem c.msgAlig > c.msgLen - 10 then none
  else some ⟨c.msgAlig + (msgSgLen mem c.msgAlig + 11), c.msgLen - (msgSgLen mem c.msgAlig + 11)⟩

/-- The loop makes finitely many iterations, and each that does not break shrinks `msg_len`. -/
structure LoopEnds (first : Cursor) : Prop where
  ends : ∃ last, Comes (pass mem) first last ∧ pass mem last = none
  shrinks : ∀ c after, Comes (pass mem) first c → pass mem c = some after → after.msgLen < c.msgLen

/-- A minus sign and two digits, together less than -10. -/
def Backward (field : Text) : Prop :=
  ∃ tens ones : Char, field = ['-', tens, ones] ∧ tens.isDigit ∧ ones.isDigit ∧
    11 ≤ Nat.ofDigitChars 10 [tens, ones] 0

theorem ofDigitChars_lt (digits : Text) (start : Nat) (all : ∀ c ∈ digits, c.isDigit) :
    Nat.ofDigitChars 10 digits start < (start + 1) * 10 ^ digits.length := by
  induction digits generalizing start with
  | nil => simp [Nat.ofDigitChars_nil]
  | cons c digits ih =>
      rw [List.forall_mem_cons] at all
      have last : c.toNat ≤ 57 := by
        have digit := all.1
        simp only [Char.isDigit, Bool.and_eq_true, decide_eq_true_eq] at digit
        exact digit.2
      have zero : '0'.toNat = 48 := rfl
      rw [Nat.ofDigitChars_cons, List.length_cons]
      calc Nat.ofDigitChars 10 digits (10 * start + (c.toNat - '0'.toNat))
          < (10 * start + (c.toNat - '0'.toNat) + 1) * 10 ^ digits.length := ih _ all.2
        _ ≤ ((start + 1) * 10) * 10 ^ digits.length := Nat.mul_le_mul_right _ (by omega)
        _ = (start + 1) * 10 ^ (digits.length + 1) := by rw [Nat.mul_assoc, ← Nat.pow_succ']

theorem leadingDigits_lt (text : Text) (value : Nat) (read : leadingDigits text = some value) :
    value < 10 ^ (text.takeWhile Char.isDigit).length := by
  unfold leadingDigits digitsValue at read
  by_cases shape : text.takeWhile Char.isDigit ≠ [] ∧ (text.takeWhile Char.isDigit).all Char.isDigit
  · rw [if_pos shape] at read
    have bound := ofDigitChars_lt (text.takeWhile Char.isDigit) 0 (List.all_eq_true.mp shape.2)
    rw [← Option.some.inj read]
    simpa using bound
  · rw [if_neg shape] at read
    exact absurd read (by simp)

theorem scanned_minus (rest : Text) (count : Nat)
    (few : (rest.takeWhile Char.isDigit).length ≤ count) :
    -(10 ^ count : Nat) < ((leadingDigits rest).map fun value => -(value : Int)).getD 0 := by
  have positive : 0 < 10 ^ count := Nat.pos_of_ne_zero (by positivity)
  cases read : leadingDigits rest with
  | none =>
      show -((10 ^ count : Nat) : Int) < 0
      omega
  | some value =>
      have bound := leadingDigits_lt rest value read
      have power : 10 ^ (rest.takeWhile Char.isDigit).length ≤ 10 ^ count :=
        Nat.pow_le_pow_right (by decide) few
      show -((10 ^ count : Nat) : Int) < -(value : Int)
      omega

theorem atoi_backward (a b c : Char) : atoi [a, b, c] ≤ -11 ↔ Backward [a, b, c] := by
  -- three characters are worth less than -10 only as a minus sign and two digits
  have single (rest : Text) (short : rest.length ≤ 1) :
      -(10 ^ 1 : Nat) < ((leadingDigits rest).map fun value => -(value : Int)).getD 0 :=
    scanned_minus rest 1 ((List.takeWhile_sublist Char.isDigit).length_le.trans short)
  have natural (rest : Text) : 0 ≤
      ((leadingDigits rest).map fun value => (value : Int)).getD 0 := by
    cases leadingDigits rest with
    | none => exact le_rfl
    | some value => exact Int.natCast_nonneg value
  constructor
  · intro low
    unfold atoi scanInt at low
    by_cases blank : isSpace a = true
    · -- two characters are left, too few for two digits behind a sign
      rw [List.dropWhile_cons_of_pos blank] at low
      have left : ([b, c].dropWhile isSpace).length ≤ 2 :=
        (List.dropWhile_sublist isSpace).length_le
      split at low
      · next rest shape =>
        rw [shape] at left
        have bound := single rest (by simpa using left)
        omega
      · next rest shape =>
        have bound := natural rest
        omega
      · next rest _ _ =>
        have bound := natural ([b, c].dropWhile isSpace)
        omega
    · rw [List.dropWhile_cons_of_neg blank] at low
      split at low
      · next rest shape =>
        obtain ⟨rfl, rfl⟩ := List.cons.inj shape
        by_cases first : b.isDigit
        · by_cases second : c.isDigit
          · have whole : [b, c].takeWhile Char.isDigit = [b, c] := by simp [first, second]
            refine ⟨b, c, rfl, first, second, ?_⟩
            simp [leadingDigits, whole, digitsValue, first, second] at low
            omega
          · have bound := scanned_minus [b, c] 1 (by simp [first, second])
            omega
        · have bound := scanned_minus [b, c] 1 (by simp [first])
          omega
      · next rest shape =>
        have bound := natural rest
        omega
      · have bound := natural [a, b, c]
        omega
  · rintro ⟨tens, ones, same, first, second, least⟩
    have whole : [tens, ones].takeWhile Char.isDigit = [tens, ones] := by simp [first, second]
    rw [same, atoi, scanInt, List.dropWhile_cons_of_neg (by decide)]
    simp [leadingDigits, whole, digitsValue, first, second]
    omega

theorem pass_some (c after : Cursor) : pass mem c = some after ↔
    10 ≤ c.msgLen ∧ msgSgLen mem c.msgAlig ≤ c.msgLen - 10 ∧
      after = ⟨c.msgAlig + (msgSgLen mem c.msgAlig + 11),
        c.msgLen - (msgSgLen mem c.msgAlig + 11)⟩ := by
  unfold pass
  by_cases short : c.msgLen < 10
  · rw [if_pos short]
    simp only [reduceCtorEq, false_iff]
    omega
  · rw [if_neg short]
    by_cases wait : msgSgLen mem c.msgAlig > c.msgLen - 10
    · rw [if_pos wait]
      simp only [reduceCtorEq, false_iff]
      omega
    · rw [if_neg wait, Option.some.injEq]
      constructor
      · intro same
        exact ⟨by omega, by omega, same.symm⟩
      · intro moved
        exact moved.2.2.symm

theorem backward_iff (msgAlig : Int) : Backward (lengthField mem msgAlig) ↔
    msgSgLen mem msgAlig ≤ -11 :=
  (atoi_backward _ _ _).symm

/-- The frame loop ends exactly when no length field it comes to reads as -11 or less. -/
theorem loop_ends_iff (first : Cursor) : LoopEnds mem first ↔
    ∀ c, Comes (pass mem) first c → 10 ≤ c.msgLen → ¬ Backward (lengthField mem c.msgAlig) := by
  constructor
  · intro loop c reached enough backward
    rw [backward_iff] at backward
    have passed := (pass_some mem c _).mpr ⟨enough, by omega, rfl⟩
    have smaller := loop.shrinks c _ reached passed
    dsimp only at smaller
    omega
  · intro forward
    have shrinks : ∀ c after, Comes (pass mem) first c → pass mem c = some after →
        after.msgLen < c.msgLen ∧ 10 ≤ c.msgLen := by
      intro c after reached passed
      obtain ⟨enough, -, rfl⟩ := (pass_some mem c after).mp passed
      have ahead := forward c reached enough
      rw [backward_iff] at ahead
      exact ⟨by dsimp only; omega, enough⟩
    constructor
    · apply ends_of_shrinking (pass mem) (fun c => c.msgLen.toNat) first
      intro c after reached passed
      have smaller := shrinks c after reached passed
      omega
    · intro c after reached passed
      exact (shrinks c after reached passed).1

def minusEleven (offset : Int) : Char := if offset = 75 then '-' else '1'

theorem minus_eleven_loops : ¬ LoopEnds minusEleven ⟨68, 68⟩ := by
  intro loop
  have again : pass minusEleven ⟨68, 68⟩ = some ⟨68, 68⟩ := by decide +kernel
  have smaller := loop.shrinks ⟨68, 68⟩ ⟨68, 68⟩ .refl again
  exact absurd smaller (by decide)

/-! The bounds of one pass of the outer loop. -/

/-- Every length field read and every frame handed on lies in the bytes received, which reach from
the first cursor on, and what is left over fits in front of the receive slot. -/
structure PassInside (first : Cursor) : Prop where
  header : ∀ c, Comes (pass mem) first c → 10 ≤ c.msgLen →
    first.msgAlig ≤ c.msgAlig + 7 ∧ c.msgAlig + 10 ≤ first.msgAlig + first.msgLen
  frame : ∀ c after, Comes (pass mem) first c → pass mem c = some after →
    first.msgAlig ≤ c.msgAlig ∧ after.msgAlig ≤ first.msgAlig + first.msgLen
  left : ∀ last, Comes (pass mem) first last → pass mem last = none → 0 ≤ last.msgLen ∧
    last.msgLen ≤ slot

/-- No frame is announced shorter than its own header, none arrives without its last byte, and a
frame that does not arrive whole leaves no more than the slot holds. -/
inductive Sound : Cursor → Prop where
  | short (c : Cursor) (few : c.msgLen < 10) (counted : 0 ≤ c.msgLen) : Sound c
  | waits (c : Cursor) (enough : 10 ≤ c.msgLen) (missing : c.msgLen - 10 < msgSgLen mem c.msgAlig)
      (room : c.msgLen ≤ slot) : Sound c
  | frame (c : Cursor) (enough : 10 ≤ c.msgLen) (forward : -10 ≤ msgSgLen mem c.msgAlig)
      (whole : msgSgLen mem c.msgAlig + 11 ≤ c.msgLen)
      (rest : Sound ⟨c.msgAlig + (msgSgLen mem c.msgAlig + 11),
      c.msgLen - (msgSgLen mem c.msgAlig + 11)⟩) : Sound c

theorem inside_stopped (c : Cursor) (stopped : pass mem c = none)
    (bounds : 0 ≤ c.msgLen ∧ c.msgLen ≤ slot) :
    PassInside mem c := by
  have only : ∀ d, Comes (pass mem) c d → d = c := by
    intro d reached
    rcases Relation.ReflTransGen.cases_head reached with same | ⟨after, passed, -⟩
    · exact same.symm
    · rw [stopped] at passed
      exact absurd passed (by simp)
  constructor
  · intro d reached enough
    rw [only d reached] at enough ⊢
    omega
  · intro d after reached passed
    rw [only d reached, stopped] at passed
    exact absurd passed (by simp)
  · intro last reached _
    rw [only last reached]
    exact bounds

theorem inside_step (c after : Cursor) (passed : pass mem c = some after)
    (ahead : c.msgAlig ≤ after.msgAlig) (counted : 0 ≤ after.msgLen)
    (inside : PassInside mem after) : PassInside mem c := by
  -- an iteration in front of a loop that stays inside
  obtain ⟨enough, -, shape⟩ := (pass_some mem c after).mp passed
  have same : after.msgAlig + after.msgLen = c.msgAlig + c.msgLen := by
    rw [shape]
    dsimp only
    omega
  have later : ∀ d, Comes (pass mem) c d → d = c ∨ Comes (pass mem) after d := by
    intro d reached
    rcases Relation.ReflTransGen.cases_head reached with here | ⟨second, stepped, rest⟩
    · exact .inl here.symm
    · rw [passed] at stepped
      exact .inr (Option.some.inj stepped ▸ rest)
  constructor
  · intro d reached many
    rcases later d reached with rfl | further
    · omega
    · have bounds := inside.header d further many
      omega
  · intro d next reached stepped
    rcases later d reached with rfl | further
    · rw [passed] at stepped
      rw [← Option.some.inj stepped]
      omega
    · have bounds := inside.frame d next further stepped
      omega
  · intro last reached stopped
    rcases later last reached with rfl | further
    · rw [passed] at stopped
      exact absurd stopped (by simp)
    · exact inside.left last further stopped

theorem sound_inside (first : Cursor) (sound : Sound mem first) : PassInside mem first := by
  induction sound with
  | short c few counted =>
      apply inside_stopped mem c
      · unfold pass
        rw [if_pos few]
      · have slotted : slot = 68 := rfl
        omega
  | waits c enough missing room =>
      apply inside_stopped mem c
      · unfold pass
        rw [if_neg (by omega), if_pos (by omega)]
      · omega
  | frame c enough forward whole rest ih =>
      have passed := (pass_some mem c _).mpr ⟨enough, by omega, rfl⟩
      exact inside_step mem c _ passed (by dsimp only; omega) (by dsimp only; omega) ih

theorem comes_ahead (first : Cursor)
    (forward : ∀ c, Comes (pass mem) first c → 10 ≤ c.msgLen →
      ¬ Backward (lengthField mem c.msgAlig))
    (c : Cursor) (reached : Comes (pass mem) first c) :
    first.msgAlig ≤ c.msgAlig ∧ c.msgAlig + c.msgLen = first.msgAlig + first.msgLen := by
  induction reached with
  | refl => exact ⟨le_rfl, rfl⟩
  | tail before passed ih =>
      obtain ⟨enough, -, rfl⟩ := (pass_some mem _ _).mp passed
      have ahead := forward _ before enough
      rw [backward_iff] at ahead
      dsimp only
      omega

theorem pass_inside_iff (first : Cursor) (counted : 0 ≤ first.msgLen)
    (forward : ∀ c, Comes (pass mem) first c → 10 ≤ c.msgLen →
      ¬ Backward (lengthField mem c.msgAlig)) :
    PassInside mem first ↔ Sound mem first := by
  -- without a length of -11 or less, soundness is all that the bounds need
  constructor
  · intro inside
    induction size : first.msgLen.toNat using Nat.strongRecOn generalizing first with
    | ind count ih =>
        by_cases few : first.msgLen < 10
        · exact .short first few counted
        · by_cases wait : first.msgLen - 10 < msgSgLen mem first.msgAlig
          · have stopped : pass mem first = none := by
              unfold pass
              rw [if_neg few, if_pos (by omega)]
            exact .waits first (by omega) wait (inside.left first .refl stopped).2
          · have ahead := forward first .refl (by omega)
            rw [backward_iff] at ahead
            have passed := (pass_some mem first _).mpr ⟨by omega, by omega, rfl⟩
            have fits := inside.frame first _ .refl passed
            dsimp only at fits
            refine .frame first (by omega) (by omega) (by omega) ?_
            have onward : ∀ c, Comes (pass mem) _ c → 10 ≤ c.msgLen →
                ¬ Backward (lengthField mem c.msgAlig) :=
              fun c reached => forward c (.head passed reached)
            apply ih _ _ _ (by dsimp only; omega) onward _ rfl
            · dsimp only
              omega
            · constructor
              · intro c reached enough
                have bounds := inside.header c (.head passed reached) enough
                have later := comes_ahead mem _ onward c reached
                dsimp only at later ⊢
                omega
              · intro c after reached stepped
                have bounds := inside.frame c after (.head passed reached) stepped
                have later := comes_ahead mem _ onward c reached
                dsimp only at later ⊢
                omega
              · intro last reached stopped
                exact inside.left last (.head passed reached) stopped
  · exact sound_inside mem first

/-! The passes of the thread. -/

variable (outside : Int → Char)

def memory (buf : Text) (offset : Int) : Char :=
  if 0 ≤ offset then buf.getD offset.toNat (outside offset) else outside offset

def filled (receiver : Receiver) (piece : Text) : Text :=
  receiver.msgBuf.take slot ++ piece ++ List.replicate (slot - piece.length) nul

/-- Where the frame loop starts: what was carried and what was received. -/
def startCursor (receiver : Receiver) (piece : Text) : Cursor :=
  ⟨receiver.msgAlig, piece.length + (slot - receiver.msgAlig)⟩

/-- The carried length and the cursor at the end of a pass. -/
structure Settled (receiver : Receiver) : Prop where
  size : receiver.msgBuf.length = 2 * slot
  carried : 0 ≤ slot - receiver.msgAlig ∧ slot - receiver.msgAlig ≤ slot
  cursor : 0 ≤ receiver.msgAlig

theorem filled_length (receiver : Receiver) (piece : Text)
    (size : receiver.msgBuf.length = 2 * slot) (short : piece.length ≤ slot) :
    (filled receiver piece).length = 2 * slot := by
  simp only [filled, List.length_append, List.length_take, List.length_replicate, size]
  omega

theorem readBytes_lengthField (buf : Text) (msgAlig : Int) (low : 0 ≤ msgAlig)
    (high : msgAlig + 10 ≤ buf.length) :
    readBytes buf (msgAlig + 7) 3 = some (lengthField (memory outside buf) msgAlig) := by
  obtain ⟨n, rfl⟩ := Int.eq_ofNat_of_zero_le low
  have read (k : Nat) (inside : n + k < buf.length) : memory outside buf ((n : Int) + k) =
      buf[n + k] := by
    have here : ((n : Int) + k).toNat = n + k := by omega
    unfold memory
    rw [if_pos (by omega), here, List.getD_eq_getElem?_getD, List.getElem?_eq_getElem inside,
      Option.getD_some]
  have first := read 7 (by omega)
  have second := read 8 (by omega)
  have third := read 9 (by omega)
  have start : ((n : Int) + 7).toNat = n + 7 := by omega
  unfold readBytes lengthField
  rw [if_pos (by omega), start, List.drop_eq_getElem_cons (by omega : n + 7 < buf.length),
    List.drop_eq_getElem_cons (by omega : n + 7 + 1 < buf.length),
    List.drop_eq_getElem_cons (by omega : n + 7 + 1 + 1 < buf.length)]
  simp only [List.take_succ_cons, List.take_zero]
  exact congrArg some (by rw [← first, ← second, ← third]; rfl)

theorem drain_sound (buf : Text) (fuel : Nat) (c : Cursor) (calls : List Text)
    (sound : Sound (memory outside buf) c) (low : 0 ≤ c.msgAlig)
    (high : c.msgAlig + c.msgLen ≤ buf.length)
    (enough : c.msgLen < fuel) :
    ∃ last after, drain buf fuel c.msgAlig c.msgLen calls = some (last.msgLen, after) ∧
      Comes (pass (memory outside buf)) c last ∧ pass (memory outside buf) last = none := by
  -- where all frames are sound the thread's loop and the loop on the memory agree
  induction sound generalizing fuel calls with
  | short c few counted =>
      obtain ⟨left, rfl⟩ : ∃ left, fuel = left + 1 := ⟨fuel - 1, by omega⟩
      refine ⟨c, calls, ?_, .refl, ?_⟩
      · rw [drain, if_pos few]
      · unfold pass
        rw [if_pos few]
  | waits c many missing room =>
      obtain ⟨left, rfl⟩ : ∃ left, fuel = left + 1 := ⟨fuel - 1, by omega⟩
      have field := readBytes_lengthField outside buf c.msgAlig low (by omega)
      refine ⟨c, calls, ?_, .refl, ?_⟩
      · rw [drain, if_neg (by omega), field]
        simp only [Option.bind_eq_bind, Option.bind_some]
        rw [if_pos (show atoi (lengthField (memory outside buf) c.msgAlig) > c.msgLen - 10 by
          unfold msgSgLen at missing
          omega)]
      · unfold pass
        rw [if_neg (by omega), if_pos (by omega)]
  | frame c many forward whole rest ih =>
      obtain ⟨left, rfl⟩ : ∃ left, fuel = left + 1 := ⟨fuel - 1, by omega⟩
      have field := readBytes_lengthField outside buf c.msgAlig low (by omega)
      have header : ∃ text, readBytes buf c.msgAlig 10 = some text := by
        unfold readBytes
        rw [if_pos (by omega)]
        exact ⟨_, rfl⟩
      obtain ⟨text, header⟩ := header
      have passed := (pass_some (memory outside buf) c _).mpr ⟨many, by omega, rfl⟩
      obtain ⟨last, after, drained, reached, stopped⟩ := ih left
        (calls ++ [(buf.drop c.msgAlig.toNat).take
          (msgSgLen (memory outside buf) c.msgAlig + 11).toNat])
        (by dsimp only; omega) (by dsimp only; omega) (by dsimp only; omega)
      refine ⟨last, after, ?_, .head passed reached, stopped⟩
      rw [drain, if_neg (by omega), field]
      simp only [Option.bind_eq_bind, Option.bind_some]
      rw [if_neg (show ¬ atoi (lengthField (memory outside buf) c.msgAlig) > c.msgLen - 10 by
        unfold msgSgLen at whole
        omega), header]
      exact drained

variable (fuel : Nat)

theorem receive_sound (receiver : Receiver) (piece : Text) (settled : Settled receiver)
    (short : piece.length ≤ slot) (enough : 2 * slot < fuel)
    (sound : Sound (memory outside (filled receiver piece)) (startCursor receiver piece)) :
    ∃ next, receive fuel receiver piece = some next ∧ Settled next := by
  -- a pass over sound frames ends with the leftover in front of the slot
  have size := filled_length receiver piece settled.size short
  have carried := settled.carried
  obtain ⟨last, after, drained, reached, stopped⟩ :=
    drain_sound outside (filled receiver piece) fuel
    (startCursor receiver piece) receiver.calls sound settled.cursor
    (by rw [size, startCursor]; push_cast; omega) (by rw [startCursor]; push_cast; omega)
  have bounds := (sound_inside _ _ sound).left last reached stopped
  obtain ⟨left, same⟩ := Int.eq_ofNat_of_zero_le bounds.1
  obtain ⟨moved, copied, carries⟩ := relocate_carries [] (filled receiver piece) left after
    (by rw [size]; rfl) (by omega)
  refine ⟨⟨moved, slot - left, after⟩, ?_, ?_⟩
  · have whole : drain (filled receiver piece) fuel receiver.msgAlig
        (piece.length + (slot - receiver.msgAlig))
        receiver.calls = some ((left : Int), after) := same ▸ drained
    rw [List.nil_append] at copied
    unfold filled at whole copied
    simp only [receive, whole, copied, Option.bind_eq_bind, Option.bind_some]
    rfl
  · constructor
    · exact carries.size
    · dsimp only
      omega
    · dsimp only
      omega

/-- The pieces of a stream that are sound where they arrive. -/
def AllSound : Receiver → List Text → Prop
  | _, [] => True
  | receiver, piece :: pieces =>
      Sound (memory outside (filled receiver piece)) (startCursor receiver piece) ∧
        ∀ next, receive fuel receiver piece = some next → AllSound next pieces

theorem settled_run (receiver : Receiver) (pieces : List Text) (settled : Settled receiver)
    (sized : ∀ piece ∈ pieces, piece.length ≤ slot) (enough : 2 * slot < fuel)
    (sound : AllSound outside fuel receiver pieces) :
    (∃ last, receiveAll fuel receiver pieces = some last ∧ Settled last) ∧
      ∀ before piece after, pieces = before ++ piece :: after → ∃ here,
        receiveAll fuel receiver before = some here ∧
          PassInside (memory outside (filled here piece)) (startCursor here piece) := by
  induction pieces generalizing receiver with
  | nil =>
      constructor
      · exact ⟨receiver, rfl, settled⟩
      · intro before piece after shape
        simp at shape
  | cons first pieces ih =>
      rw [List.forall_mem_cons] at sized
      obtain ⟨next, received, settledNext⟩ :=
        receive_sound outside fuel receiver first settled sized.1 enough sound.1
      have further := ih next settledNext sized.2 (sound.2 next received)
      have step (rest : List Text) : receiveAll fuel receiver (first :: rest) =
          receiveAll fuel next rest := by
        unfold receiveAll
        rw [List.foldlM_cons, received]
        rfl
      constructor
      · rw [step]
        exact further.1
      · intro before piece after shape
        cases before with
        | nil =>
            rw [List.nil_append, List.cons.injEq] at shape
            refine ⟨receiver, rfl, ?_⟩
            rw [← shape.1]
            exact sound_inside _ _ sound.1
        | cons earlier before =>
            rw [List.cons_append, List.cons.injEq] at shape
            rw [← shape.1, step]
            exact further.2 before piece after shape.2

/-- On any run over sound pieces every pass reads and handles what was received, and ends with a
carried length from 0 to 68 and a cursor inside the buffer. -/
theorem receive_cursor_inside (garbage : Fin (2 * slot) → Char) (pieces : List Text)
    (sized : ∀ piece ∈ pieces, 1 ≤ piece.length ∧ piece.length ≤ slot) (enough : 2 * slot < fuel)
    (sound : AllSound outside fuel (Receiver.fresh garbage) pieces) :
    (∃ last, receiveAll fuel (Receiver.fresh garbage) pieces = some last ∧ Settled last) ∧
      ∀ before piece after, pieces = before ++ piece :: after → ∃ here,
        receiveAll fuel (Receiver.fresh garbage) before = some here ∧
          PassInside (memory outside (filled here piece)) (startCursor here piece) := by
  apply settled_run outside fuel (Receiver.fresh garbage) pieces
    _ (fun piece member => (sized piece member).2) enough
    sound
  constructor
  · exact List.length_ofFn
  · show (0 : Int) ≤ slot - (slot : Int) ∧ (slot : Int) - slot ≤ slot
    omega
  · exact Int.natCast_nonneg slot

def zeroed : Receiver := Receiver.fresh fun _ => nul

def heartbeat : Text := "0001110000;".toList

theorem heartbeats_inside :
    AllSound (fun _ => nul) 200 zeroed [heartbeat ++ heartbeat.take 5, heartbeat.drop 5] ∧
      ∃ last, receiveAll 200 zeroed [heartbeat ++ heartbeat.take 5, heartbeat.drop 5] = some last ∧
        Settled last := by
  -- two heartbeats, the second of which is split
  have sound : AllSound (fun _ => nul) 200 zeroed [heartbeat ++ heartbeat.take 5,
      heartbeat.drop 5] := by
    constructor
    · have start : startCursor zeroed (heartbeat ++ heartbeat.take 5) =
          ⟨68, 16⟩ := by decide +kernel
      have length : msgSgLen (memory (fun _ => nul) (filled zeroed (heartbeat ++ heartbeat.take 5)))
          68 = 0 := by
        decide +kernel
      rw [start]
      apply Sound.frame
      · decide
      · rw [length]
        decide
      · rw [length]
        decide
      · rw [length]
        exact .short _ (by decide) (by decide)
    · intro next received
      refine ⟨?_, fun _ _ => trivial⟩
      -- five bytes were carried to the end of the slot
      have carried : (receive 200 zeroed (heartbeat ++ heartbeat.take 5)).map (fun next =>
          (startCursor next (heartbeat.drop 5),
            msgSgLen (memory (fun _ => nul) (filled next (heartbeat.drop 5))) 63)) =
          some (⟨63, 11⟩, 0) := by decide +kernel
      rw [received, Option.map_some, Option.some.injEq, Prod.mk.injEq] at carried
      obtain ⟨start, length⟩ := carried
      rw [start]
      apply Sound.frame
      · decide
      · rw [length]
        decide
      · rw [length]
        decide
      · rw [length]
        exact .short _ (by decide) (by decide)
  exact ⟨sound, (receive_cursor_inside (fun _ => nul) 200 (fun _ => nul)
    [heartbeat ++ heartbeat.take 5, heartbeat.drop 5] (by decide) (by decide) sound).1⟩

/-- A heartbeat that arrives without its `;` is handled as if it were whole, and the carried length
becomes -1. -/
theorem early_frame_overruns : (heartbeat.take 10).length = 10 ∧
    ¬ PassInside (memory (fun _ => nul) (filled zeroed (heartbeat.take 10)))
      (startCursor zeroed (heartbeat.take 10)) ∧
    (receive 200 zeroed (heartbeat.take 10)).isNone := by
  refine ⟨rfl, ?_, by decide +kernel⟩
  intro inside
  have passed : pass (memory (fun _ => nul) (filled zeroed (heartbeat.take 10)))
      (startCursor zeroed (heartbeat.take 10)) = some ⟨79, -1⟩ := by decide +kernel
  have stopped : pass (memory (fun _ => nul) (filled zeroed (heartbeat.take 10))) ⟨79, -1⟩ =
      none := by
    decide +kernel
  exact absurd (inside.left ⟨79, -1⟩ (.single passed) stopped).1 (by decide)

end LazyAS.ReceiveCursor

import LazyAS.ReportDelivery
import LazyAS.ControllerView

/-! The listener with all its connections. Every connection keeps its own unfinished text
(`SocketInfo.legacy`), and the jobs of a connection go to the queue of one worker, which other
connections may share. However the bytes of a connection are cut into reads, and whatever is
read from the others in between, its queue gets the frames that were sent. -/
namespace LazyAS.ReportSplitting
open WireText ControllerView ReportDelivery

/-- The unfinished text of every connection, and all jobs ever put into every worker's queue. -/
structure Listener where
  legacy : Ref → Text
  queues : Nat → List (Text × Ref)

variable (hashCode : Ref → Nat) (workers : Nat)

def queueId (sc : Ref) : Nat := hashCode sc % workers

/-- `Server.handle` for a readable connection that delivers `bytes`. -/
def serve (st : Listener) (read : Ref × Text) : Listener :=
  let result := handle (st.legacy read.1) read.2
  let queue := queueId hashCode workers read.1
  { legacy := Function.update st.legacy read.1 result.1
    queues := Function.update st.queues queue
      (st.queues queue ++ result.2.map fun message => (message, read.1)) }

def serveAll (st : Listener) (reads : List (Ref × Text)) : Listener :=
  reads.foldl (serve hashCode workers) st

def jobs (st : Listener) (sc : Ref) : List Text :=
  ((st.queues (queueId hashCode workers sc)).filter fun job => job.2 = sc).map Prod.fst

def own (sc : Ref) (reads : List (Ref × Text)) : List Text :=
  (reads.filter fun read => read.1 = sc).map Prod.snd

/-- A frame as the senders build it, without its `;`. -/
structure Frame where
  text : Text
  nonempty : text ≠ []
  ascii : ∀ c ∈ text, 33 ≤ c.toNat ∧ c.toNat ≤ 127 ∧ c ≠ ';'

def stream (frames : List Frame) : Text := frames.flatMap fun frame => frame.text ++ [';']

/-- The reads cut the stream in any way, but none is empty or overfills the buffer. -/
structure Cuts (frames : List Frame) (pieces : List Text) : Prop where
  whole : pieces.flatten = stream frames
  sized : ∀ bytes ∈ pieces, 1 ≤ bytes.length ∧ bytes.length ≤ 1024

/-- So many frames have been finished, and `legacy` is what was received of the next one. -/
def Unfinished (frames : List Frame) (received legacy : Text) (count : Nat) : Prop :=
  received = stream (frames.take count) ++ legacy ∧
    legacy <+: ((frames.drop count).map Frame.text).headD []

theorem handle_exact (legacy bytes : Text) (plain : ∀ c ∈ legacy, c ≠ ';')
    (visible : ∀ c ∈ bytes, isTrimmed c = false)
    (solid : ∀ segment ∈ (cut (legacy ++ bytes)).1, segment ≠ []) :
    handle legacy bytes = ((cut (legacy ++ bytes)).2, (cut (legacy ++ bytes)).1) := by
  -- a read that does not lose empty segments: the jobs are the closed segments
  have trimmed := trim_none bytes visible
  rcases List.eq_nil_or_concat bytes with empty | ⟨init, c, shape⟩
  · subst empty
    simp [handle, trimmed, cut_plain legacy plain]
  · have nonempty : bytes.length > 0 := by simp [shape]
    have last : bytes.getLast? = some c := by simp [shape]
    have ending : (cut (legacy ++ bytes)).2 = if c = ';' then [] else (cut (legacy ++ init)).2 ++
        [c] := by
      rw [shape, List.concat_eq_append, ← List.append_assoc, cut_last]
    unfold handle
    simp only [trimmed, if_pos nonempty, last, ne_eq, Option.some.injEq]
    by_cases semicolon : c = ';'
    · rw [if_pos semicolon] at ending
      -- the last piece is empty and dropped, the segments before it are not
      have kept : split (legacy ++ bytes) = (cut (legacy ++ bytes)).1 := by
        have full : ∀ segment ∈ (cut (legacy ++ bytes)).1.reverse, segment.isEmpty = false := by
          intro segment member
          simpa using solid segment (List.mem_reverse.mp member)
        rw [split, ending, List.reverse_append, List.reverse_singleton, List.singleton_append,
          List.dropWhile_cons_of_pos (by simp), dropWhile_none _ _ full, List.reverse_reverse]
      simp only [semicolon, not_true_eq_false, if_false, kept, ending]
    · rw [if_neg semicolon] at ending
      have kept : split (legacy ++ bytes) = (cut (legacy ++ bytes)).1 ++
          [(cut (legacy ++ bytes)).2] := by
        rw [split, List.reverse_append, List.reverse_singleton, List.singleton_append,
          List.dropWhile_cons_of_neg (by simp [ending]), List.reverse_cons, List.reverse_reverse]
      simp only [semicolon, not_false_eq_true, if_true, kept, List.dropLast_concat,
        List.getLastD_concat]

/-! One connection among the others. -/

theorem serve_other (st : Listener) (read : Ref × Text) (sc : Ref) (other : read.1 ≠ sc) :
    (serve hashCode workers st read).legacy sc = st.legacy sc ∧
      jobs hashCode workers (serve hashCode workers st read) sc = jobs hashCode workers st sc := by
  constructor
  · exact Function.update_of_ne (Ne.symm other) _ _
  · unfold jobs serve
    -- the worker may be the same; the job then belongs to the other connection
    by_cases shared : queueId hashCode workers sc = queueId hashCode workers read.1
    · have foreign : ∀ messages : List Text,
          (messages.map fun message => (message, read.1)).filter (fun job => job.2 = sc) = [] := by
        intro messages
        simp [List.filter_map, Function.comp_def, other]
      simp only [shared, Function.update_self, List.filter_append, foreign, List.append_nil]
    · simp only [Function.update_of_ne shared]

theorem serve_own (st : Listener) (sc : Ref) (bytes : Text) :
    (serve hashCode workers st (sc, bytes)).legacy sc = (handle (st.legacy sc) bytes).1 ∧
      jobs hashCode workers (serve hashCode workers st (sc, bytes)) sc =
        jobs hashCode workers st sc ++ (handle (st.legacy sc) bytes).2 := by
  constructor
  · exact Function.update_self _ _ _
  · unfold jobs serve
    simp only [Function.update_self, List.filter_append, List.map_append]
    congr 1
    simp [List.filter_map, Function.comp_def]

/-- What the connection has received is cut at its semicolons. -/
structure Received (st : Listener) (sc : Ref) (before : List Text) (received : Text) : Prop where
  legacy : st.legacy sc = (cut received).2
  jobs : jobs hashCode workers st sc = before ++ (cut received).1

theorem serve_received (st : Listener) (sc : Ref) (before : List Text) (received : Text)
    (read : Ref × Text) (visible : ∀ bytes ∈ own sc [read], ∀ c ∈ bytes, isTrimmed c = false)
    (solid : ∀ segment ∈ (cut (received ++ (own sc [read]).flatten)).1, segment ≠ [])
    (got : Received hashCode workers st sc before received) :
    Received hashCode workers (serve hashCode workers st read) sc before
      (received ++ (own sc [read]).flatten) := by
  -- the step: one more read, of this connection or of another one
  by_cases mine : read.1 = sc
  · obtain ⟨channel, bytes⟩ := read
    dsimp only at mine
    subst mine
    have single : own channel [(channel, bytes)] = [bytes] := by simp [own]
    rw [single, List.flatten_singleton] at solid ⊢
    have shape := cut_append received bytes
    have closed : ∀ segment ∈ (cut (st.legacy channel ++ bytes)).1, segment ≠ [] := by
      intro segment member
      apply solid segment
      rw [shape, ← got.legacy]
      exact List.mem_append_right _ member
    have plain : ∀ c ∈ st.legacy channel, c ≠ ';' := by
      rw [got.legacy]
      exact cut_rest_plain received
    have cuts := handle_exact (st.legacy channel) bytes plain (visible bytes (by simp [single]))
        closed
    obtain ⟨legacy, put⟩ := serve_own hashCode workers st channel bytes
    constructor
    · rw [legacy, cuts, shape, got.legacy]
    · rw [put, cuts, got.jobs, shape, got.legacy, List.append_assoc]
  · obtain ⟨legacy, put⟩ := serve_other hashCode workers st read sc mine
    have nothing : own sc [read] = [] := by simp [own, mine]
    rw [nothing, List.flatten_nil, List.append_nil]
    constructor
    · rw [legacy, got.legacy]
    · rw [put, got.jobs]

theorem own_append (sc : Ref) (first second : List (Ref × Text)) :
    own sc (first ++ second) = own sc first ++ own sc second := by
  simp only [own, List.filter_append, List.map_append]

theorem serveAll_received (sc : Ref) (before : List Text) (reads : List (Ref × Text))
    (st : Listener) (received : Text)
    (visible : ∀ bytes ∈ own sc reads, ∀ c ∈ bytes, isTrimmed c = false)
    (solid : ∀ segment ∈ (cut (received ++ (own sc reads).flatten)).1, segment ≠ [])
    (got : Received hashCode workers st sc before received) :
    Received hashCode workers (serveAll hashCode workers st reads) sc before
      (received ++ (own sc reads).flatten) := by
  -- the run: induction on the reads, with what was received so far
  induction reads generalizing st received with
  | nil => simpa [own, serveAll] using got
  | cons read reads ih =>
      have split : own sc (read :: reads) = own sc [read] ++ own sc reads :=
        own_append sc [read] reads
      rw [split, List.flatten_append, ← List.append_assoc] at solid ⊢
      rw [split] at visible
      apply ih
      · exact fun bytes member => visible bytes (List.mem_append_right _ member)
      · exact solid
      · apply serve_received
        · exact fun bytes member => visible bytes (List.mem_append_left _ member)
        · intro segment member
          apply solid segment
          rw [cut_append]
          exact List.mem_append_left _ member
        · exact got

/-! The stream of a connection. -/

theorem frame_plain (frame : Frame) : ∀ c ∈ frame.text, c ≠ ';' := fun c member =>
    (frame.ascii c member).2.2

theorem stream_cons (frame : Frame) (frames : List Frame) :
    stream (frame :: frames) = frame.text ++ ';' :: stream frames := by
  simp only [stream, List.flatMap_cons, List.append_assoc, List.singleton_append]

theorem stream_visible (frames : List Frame) : ∀ c ∈ stream frames, isTrimmed c = false := by
  intro c member
  obtain ⟨frame, -, inside⟩ := List.mem_flatMap.mp member
  rcases List.mem_append.mp inside with text | semicolon
  · have bounds := frame.ascii c text
    simp only [isTrimmed, decide_eq_false_iff_not]
    omega
  · rw [List.mem_singleton.mp semicolon]
    decide

theorem stream_prefix (frames : List Frame) (received later : Text)
    (whole : received ++ later = stream frames) :
    ∃ count, (cut received).1 = (frames.take count).map Frame.text ∧
      Unfinished frames received (cut received).2 count := by
  -- what was received of the stream, cut at its semicolons: some frames and a part of the next
  induction frames generalizing received with
  | nil =>
      obtain ⟨rfl, -⟩ := List.append_eq_nil_iff.mp (whole.trans rfl)
      exact ⟨0, rfl, rfl, List.nil_prefix⟩
  | cons frame frames ih =>
      -- the part received ends in the first frame, or goes on behind its semicolon
      have inFirst (rest : Text) (inside : frame.text = received ++ rest) :
          ∃ count, (cut received).1 = ((frame :: frames).take count).map Frame.text ∧
            Unfinished (frame :: frames) received (cut received).2 count := by
        have plain : ∀ c ∈ received, c ≠ ';' := by
          intro c member
          apply frame_plain frame c
          rw [inside]
          exact List.mem_append_left _ member
        rw [cut_plain received plain]
        exact ⟨0, rfl, rfl, rest, inside.symm⟩
      rw [stream_cons] at whole
      rcases List.append_eq_append_iff.mp whole with ⟨rest, inside, -⟩ | ⟨rest, beyond, after⟩
      · exact inFirst rest inside
      · cases rest with
        | nil => exact inFirst [] (by rw [beyond, List.append_nil, List.append_nil])
        | cons c rest =>
            rw [List.cons_append, List.cons.injEq] at after
            obtain ⟨semicolon, later⟩ := after
            subst semicolon
            obtain ⟨count, closed, shape, part⟩ := ih rest later.symm
            rw [beyond, cut_segment _ _ (frame_plain frame)]
            refine ⟨count + 1, ?_, ?_, part⟩
            · rw [closed, List.take_succ_cons, List.map_cons]
            · rw [List.take_succ_cons, stream_cons, List.append_assoc, List.cons_append, ← shape]

theorem cut_stream (frames : List Frame) : cut (stream frames) = (frames.map Frame.text, []) := by
  induction frames with
  | nil => rfl
  | cons frame frames ih => rw [stream_cons, cut_segment _ _ (frame_plain frame), ih, List.map_cons]

/-- However the stream of a connection is cut into reads and mixed with those of the others, its
jobs are its frames in their order, and at any time the text that is kept is what has arrived of
the next frame. -/
theorem frames_independent_of_segmentation (sc : Ref) (frames : List Frame)
    (reads : List (Ref × Text)) (st : Listener) (fresh : st.legacy sc = [])
    (cuts : Cuts frames (own sc reads)) :
    jobs hashCode workers (serveAll hashCode workers st reads) sc =
      jobs hashCode workers st sc ++ frames.map Frame.text ∧
    ∀ k, ∃ count, jobs hashCode workers (serveAll hashCode workers st (reads.take k)) sc =
        jobs hashCode workers st sc ++ (frames.take count).map Frame.text ∧
      Unfinished frames (own sc (reads.take k)).flatten
        ((serveAll hashCode workers st (reads.take k)).legacy sc) count := by
  have start : Received hashCode workers st sc (jobs hashCode workers st sc) [] :=
    ⟨fresh, (List.append_nil _).symm⟩
  have visible : ∀ bytes ∈ own sc reads, ∀ c ∈ bytes, isTrimmed c = false := by
    intro bytes member c inside
    apply stream_visible frames c
    rw [← cuts.whole]
    exact List.mem_flatten.mpr ⟨bytes, member, inside⟩
  -- every prefix of the reads has received a prefix of the stream
  have reached (first second : List (Ref × Text)) (split : reads = first ++ second) :
      Received hashCode workers (serveAll hashCode workers st first) sc
        (jobs hashCode workers st sc)
          (own sc first).flatten ∧
        (own sc first).flatten ++ (own sc second).flatten = stream frames := by
    have parts : own sc reads = own sc first ++ own sc second := by rw [split, own_append]
    have whole : (own sc first).flatten ++ (own sc second).flatten = stream frames := by
      rw [← List.flatten_append, ← parts, cuts.whole]
    obtain ⟨count, closed, -⟩ := stream_prefix frames _ _ whole
    have solid : ∀ segment ∈ (cut (own sc first).flatten).1, segment ≠ [] := by
      rw [closed]
      intro segment member
      obtain ⟨frame, -, rfl⟩ := List.mem_map.mp member
      exact frame.nonempty
    have got := serveAll_received hashCode workers sc _ first st []
      (fun bytes member => visible bytes (by rw [parts]; exact List.mem_append_left _ member)) solid
        start
    exact ⟨got, whole⟩
  constructor
  · obtain ⟨got, -⟩ := reached reads [] (List.append_nil _).symm
    rw [got.jobs, cuts.whole, cut_stream]
  · intro k
    obtain ⟨got, whole⟩ := reached (reads.take k) (reads.drop k)
        (List.take_append_drop k reads).symm
    obtain ⟨count, closed, unfinished⟩ := stream_prefix frames _ _ whole
    refine ⟨count, ?_, ?_⟩
    · rw [got.jobs, closed]
    · rw [got.legacy]
      exact unfinished

/-- Two short frames of connection 0 in four reads, one of them a `;` alone, with a read of
connection 1 in between. -/
def splitReads : List (Ref × Text) :=
  [(0, ['a']), (0, [';']), (1, ['x']), (0, ['b', 'c']), (0, [';'])]

theorem split_reads_delivered :
    jobs (fun _ => 0) 1 (serveAll (fun _ => 0) 1 ⟨fun _ => [], fun _ => []⟩ splitReads) 0 =
      [['a'], ['b', 'c']] := by
  let frames : List Frame :=
    [⟨['a'], by decide, each_char (by decide)⟩, ⟨['b', 'c'], by decide, each_char (by decide)⟩]
  have cuts : Cuts frames (own 0 splitReads) := ⟨by decide, by decide⟩
  exact (frames_independent_of_segmentation (fun _ => 0) 1 0 frames splitReads
    ⟨fun _ => [], fun _ => []⟩
    rfl cuts).1

end LazyAS.ReportSplitting

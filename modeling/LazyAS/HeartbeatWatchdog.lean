import LazyAS.UplinkThreads

/-! The heartbeat of an AP: when the statistics thread sends one, and when it gives a connection up.
-/
namespace LazyAS.HeartbeatWatchdog
open WireText Runs ApSender UplinkThreads

/-! What a history says of the heartbeat fields. -/

def alive (history : List Happening) : Bool :=
  history.foldl (fun live happening => match happening with
    | .opened _ | .accepted _ _ => true
    | .beat _ => false
    | _ => live) false

def lastBeat (history : List Happening) : Nat :=
  history.foldl (fun cseq happening => match happening with
    | .beat latest => latest
    | _ => cseq) 0

/-- The frame is the echo of the heartbeat, whatever else it holds. -/
structure Matches (cseq : Nat) (frame : Text) : Prop where
  legal : ¬ atoi ((frame.drop 7).take 3) + 11 < 10
  type : ApLink.frameType frame = 110
  id : ApLink.fniiHandleBeat { beatCseq := cseq } (atoi (frame.take 4)) = true

theorem parse_beat (ap : ApLink.Ap) (frame : Text) (result : Bool)
    (type : ApLink.frameType frame = 110) :
    ApLink.fniiParseMsg ap frame result = true ↔ Matches ap.beatCseq frame := by
  have noCommand : ApLink.isCommand frame = false := by simp [ApLink.isCommand, type]
  unfold ApLink.fniiParseMsg
  by_cases short : atoi ((frame.drop 7).take 3) + 11 < 10
  · rw [if_pos short]
    constructor
    · intro wrong
      exact absurd wrong (by decide)
    · intro echo
      exact absurd short echo.legal
  · rw [if_neg short, noCommand, if_neg (by decide), if_pos type]
    exact ⟨fun same => ⟨short, type, same⟩, fun echo => echo.id⟩

theorem echo_matches (cseq : Nat) : Matches cseq ((ApLink.Report.beat cseq).text ++ [';']) := by
  have four : (ApLink.beatId cseq).length = 4 := by
    have small : cseq % 9999 < 9999 := Nat.mod_lt _ (by decide)
    exact zeroPad_length 4 (cseq % 9999) (by omega) (by decide)
  have shape : (ApLink.Report.beat cseq).text ++ [';'] = ApLink.beatId cseq ++
      "110000;".toList := by
    simp [ApLink.Report.text]
  have type : (((ApLink.Report.beat cseq).text ++ [';']).drop 4).take 3 = "110".toList := by
    rw [shape, ← four, List.drop_left]
    rfl
  have size : (((ApLink.Report.beat cseq).text ++ [';']).drop 7).take 3 = "000".toList := by
    rw [shape, show 7 = (ApLink.beatId cseq).length + 3 by omega, ← List.drop_drop, List.drop_left]
    rfl
  have id : ((ApLink.Report.beat cseq).text ++ [';']).take 4 = ApLink.beatId cseq := by
    rw [shape, ← four, List.take_left]
  constructor
  · rw [size]
    decide
  · rw [ApLink.frameType, type]
    decide
  · rw [id, ApLink.beatId, atoi_digits _ _ (zeroPad_digitsValue 4 (cseq % 9999))]
    simp [ApLink.fniiHandleBeat]

@[simp]
theorem alive_concat (history : List Happening) (latest : Happening) : alive (history ++ [latest]) =
    match latest with
    | .opened _ | .accepted _ _ => true
    | .beat _ => false
    | _ => alive history := by
  simp [alive]

@[simp]
theorem lastBeat_concat (history : List Happening) (latest : Happening) :
    lastBeat (history ++ [latest]) =
    match latest with
    | .beat cseq => cseq
    | _ => lastBeat history := by
  simp [lastBeat]

theorem lastBeat_since (before since : List Happening) (cseq : Nat)
    (quiet : ∀ later, .beat later ∉ since) :
    lastBeat (before ++ .beat cseq :: since) = cseq := by
  induction since using List.reverseRecOn with
  | nil => simp
  | append_singleton since latest ih =>
      have earlier := ih fun later inside => quiet later (List.mem_append_left _ inside)
      rw [← List.cons_append, ← List.append_assoc, lastBeat_concat]
      cases latest with
      | beat later => exact absurd (List.mem_append_right since List.mem_cons_self) (quiet later)
      | _ => exact earlier

theorem alive_since (before since : List Happening) (cseq : Nat)
    (quiet : ∀ later, .beat later ∉ since) :
    alive (before ++ .beat cseq :: since) = true ↔
      (∃ socket, .opened socket ∈ since) ∨ ∃ frame beats, .accepted frame beats ∈ since := by
  induction since using List.reverseRecOn with
  | nil => simp
  | append_singleton since latest ih =>
      have earlier := ih fun later inside => quiet later (List.mem_append_left _ inside)
      rw [← List.cons_append, ← List.append_assoc, alive_concat]
      cases latest with
      | beat later => exact absurd (List.mem_append_right since List.mem_cons_self) (quiet later)
      | opened socket => exact iff_of_true rfl (.inl ⟨socket, by simp⟩)
      | accepted frame beats => exact iff_of_true rfl (.inr ⟨frame, beats, by simp⟩)
      | _ => simpa using earlier

theorem beatCount_append (first second : List Happening) :
    beatCount (first ++ second) = beatCount first + beatCount second :=
  List.countP_append

/-! What the threads keep. -/

def Attended (history : List Happening) : Prop :=
  ∀ before frame after, history = before ++ .received frame :: after →
    Matches (lastBeat before) frame →
    (∃ beats, .accepted frame beats ∈ after) ∨ ∀ other, .received other ∉ after

/-- What each entry says of those before it. An echo that is accepted was the last heartbeat's when
it was compared. -/
def Right (before : List Happening) : Happening → Prop
  | .beat _ => alive before = true
  | .dropped => alive before = false ∧ Attended before
  | .accepted frame beats => ∃ early late, before = early ++ .received frame :: late ∧
      beatCount early = beats ∧ Matches (lastBeat early) frame
  | _ => True

/-- Where the statistics thread is bound to print a heartbeat. -/
structure Ready (flow : Flow) (live : Bool) : Prop where
  stage : flow.stage = .report ∨ flow.stage = .beat → live = true
  call : ∀ call, flow.call = some call → call.message = .heartBeat → call.stage = .passed ∨
    call.stage = .counted →
    live = true
  sending : ∀ call, flow.call = some call → call.message = .heartBeat → flow.stage = .check

def Prompt (stage : ReceiverStage) (history : List Happening) : Prop :=
  ∀ before frame after, history = before ++ .received frame :: after →
    Matches (lastBeat before) frame →
    (∃ beats, .accepted frame beats ∈ after) ∨
      (∀ other, .received other ∉ after) ∧ ∃ beats rest, stage = .accept frame beats rest

def Compared (stage : ReceiverStage) (history : List Happening) : Prop :=
  ∀ frame beats rest, stage = .accept frame beats rest → Right history (.accepted frame beats)

structure Watches (uplink : Uplink) : Prop where
  live : uplink.shared.sender.beatLive = alive uplink.shared.history
  cseq : uplink.shared.sender.beatCseq = lastBeat uplink.shared.history
  ready : Ready uplink.flow uplink.shared.sender.beatLive
  receiver : ∀ call, uplink.receiver.call = some call → call.message ≠ .heartBeat
  reporters : ∀ n call, uplink.reporters n = some call → call.message ≠ .heartBeat
  logged : Each Right uplink.shared.history
  prompt : Prompt uplink.receiver.stage uplink.shared.history
  compared : Compared uplink.receiver.stage uplink.shared.history

theorem Compared.more {stage : ReceiverStage} {history : List Happening}
    (compared : Compared stage history) (latest : Happening) :
    Compared stage (history ++ [latest]) := by
  intro frame beats rest at'
  obtain ⟨early, late, shape, count, same⟩ := compared frame beats rest at'
  exact ⟨early, late ++ [latest], by rw [shape, List.append_assoc, List.cons_append], count, same⟩

theorem Prompt.attended {stage : ReceiverStage} {history : List Happening}
    (prompt : Prompt stage history) :
    Attended history := by
  intro before frame after shape echo
  exact (prompt before frame after shape echo).imp_right And.left

theorem Prompt.more {stage : ReceiverStage} {history : List Happening}
    (prompt : Prompt stage history) (latest : Happening)
    (silent : ∀ frame, latest ≠ .received frame) : Prompt stage (history ++ [latest]) := by
  intro before frame after shape echo
  rcases concat_split shape with ⟨-, wrong, -⟩ | ⟨rest, rfl, earlier⟩
  · exact absurd wrong (silent frame)
  · rcases prompt before frame rest earlier echo with ⟨beats, accepted⟩ | ⟨last, at'⟩
    · exact .inl ⟨beats, List.mem_append_left _ accepted⟩
    · refine .inr ⟨fun other inside => ?_, at'⟩
      rcases List.mem_append.mp inside with old | new
      · exact last other old
      · exact silent other (List.mem_singleton.mp new).symm

/-! A step of a call. -/

/-- The heartbeat is printed: unanswered from here on, under the id that is printed. -/
structure Prints (shared : Shared) (call : Call) (next : Shared) (after : Option Call) : Prop where
  message : call.message = .heartBeat
  stage : call.stage = .counted
  live : next.sender.beatLive = false
  history : next.history = shared.history ++ [.beat next.sender.beatCseq]
  after : ∀ later, after = some later → later.message = .heartBeat ∧ later.stage ≠ .passed ∧
    later.stage ≠ .counted

structure Leaves (shared : Shared) (call : Call) (next : Shared) (after : Option Call) : Prop where
  live : next.sender.beatLive = shared.sender.beatLive
  cseq : next.sender.beatCseq = shared.sender.beatCseq
  history : next.history = shared.history ∨
    next.history = shared.history ++ [.wrote shared.socket call.gate call.message]
  after : ∀ later, after = some later → later.message = call.message ∧
    (call.message = .heartBeat → later.stage = .passed ∨ later.stage = .counted →
      call.stage = .passed)

variable (getApAu : Int → Int)

theorem encode_leaves (sender : Sender) (message : Message) (other : message ≠ .heartBeat) :
    (encode getApAu sender message).1.beatLive = sender.beatLive ∧
      (encode getApAu sender message).1.beatCseq = sender.beatCseq := by
  cases message with
  | heartBeat => exact absurd rfl other
  | probeInfo info =>
      simp only [encode, fniiSendMsgProbeInfo]
      by_cases again : sender.probeMac = info.stationMac ∧ sender.probeCount < 20
      · rw [if_pos again]
        exact ⟨rfl, rfl⟩
      · rw [if_neg again]
        split
        · exact ⟨rfl, rfl⟩
        · exact ⟨rfl, rfl⟩
  | _ => exact ⟨rfl, rfl⟩

theorem advance_beats (shared : Shared) (call : Call) (written : Bool) :
    Prints shared call (advance getApAu shared call written).1
      (advance getApAu shared call written).2 ∨
    Leaves shared call (advance getApAu shared call written).1
      (advance getApAu shared call written).2 := by
  obtain ⟨message, stage, gate⟩ := call
  cases stage with
  | passed =>
      right
      constructor
      case history => exact .inl rfl
      case after =>
        intro later same
        obtain rfl := Option.some.inj same
        exact ⟨rfl, fun _ _ => rfl⟩
      all_goals rfl
  | counted =>
      by_cases beat : message = .heartBeat
      · left
        subst beat
        constructor
        case after =>
          intro later same
          obtain rfl := Option.some.inj same
          exact ⟨rfl, by simp⟩
        all_goals rfl
      · right
        have kept := encode_leaves getApAu shared.sender message beat
        have shape : (advance getApAu shared ⟨message, .counted, gate⟩ written).1 =
            { shared with sender := (encode getApAu shared.sender message).1 } := by
          simp only [advance]
          rcases noteBeat_cases { shared with
              sender := (encode getApAu shared.sender message).1 } message with
            same | ⟨wrong, -⟩
          · rw [same]
            cases (encode getApAu shared.sender message).2 <;> rfl
          · exact absurd wrong beat
        constructor
        case after =>
          intro later same
          exact ⟨((advance_advances getApAu shared ⟨message, .counted, gate⟩ written).kept later
            same).1,
            fun wrong => absurd wrong beat⟩
        all_goals rw [shape]
        case history => exact .inl rfl
        case live => exact kept.1
        case cseq => exact kept.2
  | sending text =>
      right
      simp only [advance]
      split
      · constructor
        case history => exact .inr rfl
        case after =>
          intro later wrong
          exact absurd wrong (by simp)
        all_goals rfl
      · constructor
        case history => exact .inl rfl
        case after =>
          intro later same
          obtain rfl := Option.some.inj same
          exact ⟨rfl, fun _ wrong => absurd wrong (by simp)⟩
        all_goals rfl
  | failed =>
      right
      constructor
      case history => exact .inl rfl
      case after =>
        intro later same
        obtain rfl := Option.some.inj same
        exact ⟨rfl, fun _ wrong => absurd wrong (by simp)⟩
      all_goals rfl
  | disabled =>
      right
      constructor
      case history => exact .inl rfl
      case after =>
        intro later wrong
        exact absurd wrong (by simp [advance])
      all_goals rfl

/-- What a step leaves of the fields and of what is known of them when it makes no connection,
accepts no echo and prints no heartbeat. -/
structure Steady (shared next : Shared) : Prop where
  live : next.sender.beatLive = shared.sender.beatLive
  cseq : next.sender.beatCseq = shared.sender.beatCseq
  history : next.history = shared.history ∨ ∃ latest, next.history = shared.history ++ [latest] ∧
    alive next.history = alive shared.history ∧ lastBeat next.history = lastBeat shared.history ∧
    (∀ frame, latest ≠ .received frame) ∧ Right shared.history latest

theorem Leaves.steady {shared next : Shared} {call : Call} {after : Option Call}
    (leaves : Leaves shared call next after) :
    Steady shared next := by
  constructor
  case live => exact leaves.live
  case cseq => exact leaves.cseq
  case history =>
    rcases leaves.history with same | same
    · exact .inl same
    · exact .inr ⟨_, same, by simp [same], by simp [same], by simp, trivial⟩

theorem Watches.steady {shared next : Shared} {flow flow' : Flow} {receiver receiver' : Receiver}
    {reporters reporters' : Nat → Option Call}
    (watches : Watches ⟨shared, flow, receiver, reporters⟩)
    (steady : Steady shared next) (ready : Ready flow' shared.sender.beatLive)
    (stage : receiver'.stage = receiver.stage)
    (own : ∀ call, receiver'.call = some call → call.message ≠ .heartBeat)
    (others : ∀ n call, reporters' n = some call → call.message ≠ .heartBeat) :
    Watches ⟨next, flow', receiver', reporters'⟩ := by
  -- such a step keeps what is known, wherever the other two kinds of threads then stand
  obtain ⟨live, cseq, history⟩ := steady
  have known : alive next.history = alive shared.history ∧
      lastBeat next.history = lastBeat shared.history ∧
      Each Right next.history ∧ Prompt receiver'.stage next.history ∧
          Compared receiver'.stage next.history := by
    rw [stage]
    rcases history with same | ⟨latest, same, lives, beats, silent, right⟩
    · rw [same]
      exact ⟨rfl, rfl, watches.logged, watches.prompt, watches.compared⟩
    · refine ⟨lives, beats, ?_⟩
      rw [same]
      exact ⟨watches.logged.concat latest right, watches.prompt.more latest silent,
        watches.compared.more latest⟩
  obtain ⟨lives, beats, logged, prompt, compared⟩ := known
  constructor
  case live => exact (live.trans watches.live).trans lives.symm
  case cseq => exact (cseq.trans watches.cseq).trans beats.symm
  case ready => exact live.symm ▸ ready
  case receiver => exact own
  case reporters => exact others
  case logged => exact logged
  case prompt => exact prompt
  case compared => exact compared

theorem enter_message {shared : Shared} {message : Message} {call : Call}
    (entered : enter shared message = some call) :
    call.message = message := by
  rw [(enter_call entered).1]

theorem advance_leaves (shared : Shared) (call : Call) (written : Bool)
    (other : call.message ≠ .heartBeat) :
    Leaves shared call (advance getApAu shared call written).1
      (advance getApAu shared call written).2 := by
  rcases advance_beats getApAu shared call written with prints | leaves
  · exact absurd prints.message other
  · exact leaves

theorem watches_reporter (interfaces : InterfaceAll) (uplink : Uplink) (n : Nat) (report : Report)
    (written : Bool) (watches : Watches uplink) :
    Watches (step getApAu interfaces uplink (.reporter n report written)) := by
  have updated {latest : Option Call} (fits : ∀ call, latest = some call →
      call.message ≠ .heartBeat) (place : Nat)
      (call : Call) (held : Function.update uplink.reporters n latest place = some call) :
      call.message ≠ .heartBeat := by
    rcases eq_or_ne place n with rfl | apart
    · rw [Function.update_self] at held
      exact fits call held
    · rw [Function.update_of_ne apart] at held
      exact watches.reporters place call held
  simp only [UplinkThreads.step]
  cases held : uplink.reporters n with
  | some call =>
      have leaves := advance_leaves getApAu uplink.shared call written
          (watches.reporters n call held)
      refine watches.steady leaves.steady watches.ready rfl watches.receiver (updated ?_)
      intro later same
      rw [(leaves.after later same).1]
      exact watches.reporters n call held
  | none =>
      refine watches.steady ⟨rfl, rfl, .inl rfl⟩ watches.ready rfl watches.receiver (updated ?_)
      intro call entered
      rw [enter_message entered]
      intro beat
      apply report.property
      rw [beat]
      decide

theorem Prompt.free {stage stage' : ReceiverStage} {history : List Happening}
    (prompt : Prompt stage history) (done : ∀ frame beats rest, stage ≠ .accept frame beats rest) :
    Prompt stage' history := by
  intro before frame after shape echo
  rcases prompt before frame after shape echo with accepted | ⟨-, beats, rest, wrong⟩
  · exact .inl accepted
  · exact absurd wrong (done frame beats rest)

theorem Compared.free {stage : ReceiverStage} {history : List Happening}
    (done : ∀ frame beats rest, stage ≠ .accept frame beats rest) : Compared stage history :=
  fun frame beats rest wrong => absurd wrong (done frame beats rest)

theorem Watches.moves {shared next : Shared} {flow : Flow} {stage : ReceiverStage}
    {reporters : Nat → Option Call} (watches : Watches ⟨shared, flow, ⟨stage, none⟩, reporters⟩)
    (at' : ReceiverStage) (call : Option Call)
    (live : next.sender.beatLive = shared.sender.beatLive)
    (cseq : next.sender.beatCseq = shared.sender.beatCseq) (history : next.history = shared.history)
    (before : ∀ frame beats rest, stage ≠ .accept frame beats rest)
    (after : ∀ frame beats rest, at' ≠ .accept frame beats rest)
    (own : ∀ held, call = some held → held.message ≠ .heartBeat) :
    Watches ⟨next, flow, ⟨at', call⟩, reporters⟩ := by
  constructor
  case live => exact (live.trans watches.live).trans (congrArg alive history.symm)
  case cseq => exact (cseq.trans watches.cseq).trans (congrArg lastBeat history.symm)
  case ready => exact live.symm ▸ watches.ready
  case receiver => exact own
  case reporters => exact watches.reporters
  case logged => exact history.symm ▸ watches.logged
  case prompt => exact history.symm ▸ watches.prompt.free before
  case compared => exact .free after

section Receiver
variable {shared : Shared} {flow : Flow} {reporters : Nat → Option Call}

theorem Watches.receives {frame : Text} {rest : List Text}
    (watches : Watches ⟨shared, flow, ⟨.parse (frame :: rest), none⟩, reporters⟩) (result : Bool)
    (at' : ReceiverStage)
    (chosen : at' = if ApLink.fniiParseMsg shared.sender.toAp frame result ∧
      ApLink.frameType frame = 110 then
        .accept frame (beatCount shared.history) rest
      else .reply frame (ApLink.fniiParseMsg shared.sender.toAp frame result) rest) :
    Watches ⟨shared.note (.received frame), flow, ⟨at', none⟩, reporters⟩ := by
  -- a frame is received: an echo of the last heartbeat leads to its acceptance, any other frame
  -- does not
  have same : Matches (lastBeat shared.history) frame ↔
      at' = .accept frame (beatCount shared.history) rest := by
    have cseq : shared.sender.toAp.beatCseq = lastBeat shared.history := watches.cseq
    rw [← cseq, chosen]
    by_cases type : ApLink.frameType frame = 110
    · have parses := parse_beat shared.sender.toAp frame result type
      by_cases echo : Matches shared.sender.toAp.beatCseq frame
      · rw [if_pos ⟨parses.mpr echo, type⟩]
        exact iff_of_true echo rfl
      · rw [if_neg fun wrong => echo (parses.mp wrong.1)]
        exact iff_of_false echo (by simp)
    · rw [if_neg fun wrong => type wrong.2]
      exact iff_of_false (fun echo => type echo.type) (by simp)
  have accepts (other : Text) (beats : Nat) (later : List Text)
      (here : at' = .accept other beats later) :
      other = frame ∧ beats = beatCount shared.history ∧
          Matches (lastBeat shared.history) frame := by
    by_cases echo : Matches (lastBeat shared.history) frame
    · rw [same.mp echo] at here
      obtain ⟨rfl, rfl, -⟩ := ReceiverStage.accept.inj here
      exact ⟨rfl, rfl, echo⟩
    · exfalso
      rw [same] at echo
      split at chosen
      · exact echo chosen
      · exact absurd (here.symm.trans chosen) (by simp)
  constructor
  case live => exact watches.live.trans (by simp [Shared.note])
  case cseq => exact watches.cseq.trans (by simp [Shared.note])
  case ready => exact watches.ready
  case receiver =>
    intro call wrong
    exact absurd wrong (by simp)
  case reporters => exact watches.reporters
  case logged => exact watches.logged.concat _ trivial
  case prompt =>
    intro before other after shape echo
    rcases concat_split shape with ⟨rfl, latest, rfl⟩ | ⟨earlier, rfl, split⟩
    · obtain rfl := Happening.received.inj latest
      exact .inr ⟨by simp, _, _, same.mp echo⟩
    · rcases watches.prompt before other earlier split echo with ⟨beats, accepted⟩ |
          ⟨-, beats, rest, wrong⟩
      · exact .inl ⟨beats, List.mem_append_left _ accepted⟩
      · exact absurd wrong (by simp)
  case compared =>
    intro other beats later here
    obtain ⟨rfl, rfl, echo⟩ := accepts other beats later here
    exact ⟨shared.history, [], rfl, rfl, echo⟩

theorem Watches.accepts {frame : Text} {beats : Nat} {rest : List Text}
    (watches : Watches ⟨shared, flow, ⟨.accept frame beats rest, none⟩, reporters⟩) :
    Watches ⟨{ shared with sender := { shared.sender with beatLive := true } }.note
      (.accepted frame beats), flow,
      ⟨.reply frame true rest, none⟩, reporters⟩ := by
  constructor
  case live => simp [Shared.note]
  case cseq => exact watches.cseq.trans (by simp [Shared.note])
  case ready => exact ⟨fun _ => rfl, fun _ _ _ _ => rfl, watches.ready.sending⟩
  case receiver =>
    intro call wrong
    exact absurd wrong (by simp)
  case reporters => exact watches.reporters
  case logged => exact watches.logged.concat _ (watches.compared frame beats rest rfl)
  case prompt =>
    intro before other after shape echo
    rcases concat_split shape with ⟨-, wrong, -⟩ | ⟨earlier, rfl, split⟩
    · exact absurd wrong (by simp)
    · rcases watches.prompt before other earlier split echo with ⟨old, accepted⟩ |
          ⟨-, count, later, here⟩
      · exact .inl ⟨old, List.mem_append_left _ accepted⟩
      · obtain ⟨rfl, rfl, -⟩ := ReceiverStage.accept.inj here
        exact .inl ⟨beats, List.mem_append_right _ List.mem_cons_self⟩
  case compared => exact .free (by simp)

end Receiver

theorem watches_receiver (interfaces : InterfaceAll) (uplink : Uplink) (input : ReceiverInput)
    (watches : Watches uplink) : Watches (step getApAu interfaces uplink (.receiver input)) := by
  obtain ⟨shared, flow, ⟨stage, held⟩, reporters⟩ := uplink
  obtain ⟨frames, result, written⟩ := input
  cases held with
  | some call =>
      have leaves := advance_leaves getApAu shared call written (watches.receiver call rfl)
      refine watches.steady leaves.steady watches.ready rfl ?_ watches.reporters
      intro later same
      rw [(leaves.after later same).1]
      exact watches.receiver call rfl
  | none =>
      have idle (call : Call) (wrong : none = some call) : call.message ≠ .heartBeat :=
        absurd wrong (by simp)
      cases stage with
      | check =>
          refine watches.moves _ none rfl rfl rfl (by simp) ?_ idle
          intro frame beats rest
          split <;> simp
      | recv =>
          cases frames with
          | none => exact watches.moves .recheck none rfl rfl rfl (by simp) (by simp) idle
          | some frames =>
              exact watches.moves (.parse frames) none rfl rfl rfl (by simp) (by simp) idle
      | parse frames =>
          cases frames with
          | nil => exact watches.moves .check none rfl rfl rfl (by simp) (by simp) idle
          | cons frame rest =>
              have received := watches.receives result _ rfl
              simp only [UplinkThreads.step, receiverStep]
              split
              · next echo => rwa [if_pos echo] at received
              · next other => rwa [if_neg other] at received
      | accept frame beats rest => exact watches.accepts
      | reply frame ok rest =>
          refine watches.moves (.parse rest) _ rfl rfl rfl (by simp) (by simp) fun call entered =>
            ?_
          rw [enter_message entered]
          cases ok <;> simp
      | recheck =>
          refine watches.moves _ none rfl rfl rfl (by simp) ?_ idle
          intro frame beats rest
          split <;> simp
      | giveUp => exact watches.moves .giveUpClose none rfl rfl rfl (by simp) (by simp) idle
      | giveUpClose => exact watches.moves .check none rfl rfl rfl (by simp) (by simp) idle

theorem Ready.other {stage : FlowStage} {held : Option Call} {live : Bool}
    (elsewhere : stage ≠ .report ∧ stage ≠ .beat)
    (other : ∀ call, held = some call → call.message ≠ .heartBeat) : Ready ⟨stage, held⟩ live := by
  constructor
  · rintro (wrong | wrong)
    · exact absurd wrong elsewhere.1
    · exact absurd wrong elsewhere.2
  · exact fun call here beat => absurd beat (other call here)
  · exact fun call here beat => absurd beat (other call here)

section Flow
variable {shared : Shared} {stage : FlowStage} {receiver : Receiver} {reporters : Nat → Option Call}

theorem Watches.prints {next : Shared} {call : Call} {after : Option Call}
    (watches : Watches ⟨shared, ⟨stage, some call⟩, receiver, reporters⟩)
    (prints : Prints shared call next after) :
    Watches ⟨next, ⟨stage, after⟩, receiver, reporters⟩ := by
  -- the heartbeat is printed only where the thread was bound to
  have was : alive shared.history = true :=
    watches.live.symm.trans (watches.ready.call call rfl prints.message (.inr prints.stage))
  have at' : stage = .check := watches.ready.sending call rfl prints.message
  constructor
  case live => exact prints.live.trans (by simp [prints.history])
  case cseq => simp [prints.history]
  case ready =>
    constructor
    · rintro (wrong | wrong)
      · exact absurd (at'.symm.trans wrong) (by simp)
      · exact absurd (at'.symm.trans wrong) (by simp)
    · rintro later same - (wrong | wrong)
      · exact absurd wrong (prints.after later same).2.1
      · exact absurd wrong (prints.after later same).2.2
    · exact fun _ _ _ => at'
  case receiver => exact watches.receiver
  case reporters => exact watches.reporters
  case logged => exact prints.history ▸ watches.logged.concat _ was
  case prompt => exact prints.history ▸ watches.prompt.more _ (by simp)
  case compared => exact prints.history ▸ watches.compared.more _

theorem Watches.opens (watches : Watches ⟨shared, ⟨.connecting, none⟩, receiver, reporters⟩) :
    Watches ⟨{ shared with
      sender := { shared.sender with beatLive := true }
      connected := true }.note (.opened shared.socket), ⟨.reset, none⟩, receiver, reporters⟩ := by
  constructor
  case live => simp [Shared.note]
  case cseq => exact watches.cseq.trans (by simp [Shared.note])
  case ready => exact .other (by simp) (by simp)
  case receiver => exact watches.receiver
  case reporters => exact watches.reporters
  case logged => exact watches.logged.concat _ trivial
  case prompt => exact watches.prompt.more _ (by simp)
  case compared => exact watches.compared.more _

end Flow

theorem watches_flow (interfaces : InterfaceAll) (uplink : Uplink) (input : FlowInput)
    (watches : Watches uplink) :
    Watches (step getApAu interfaces uplink (.flow input)) := by
  obtain ⟨shared, ⟨stage, held⟩, receiver, reporters⟩ := uplink
  obtain ⟨mac, connects, station, written⟩ := input
  have quiet {next : Shared} (live : next.sender.beatLive = shared.sender.beatLive)
      (cseq : next.sender.beatCseq = shared.sender.beatCseq)
      (history : next.history = shared.history) :
      Steady shared next := ⟨live, cseq, .inl history⟩
  have noted (latest : Happening)
      (lives : alive (shared.history ++ [latest]) = alive shared.history)
      (beats : lastBeat (shared.history ++ [latest]) = lastBeat shared.history)
      (silent : ∀ frame, latest ≠ .received frame) (right : Right shared.history latest) :
      Steady shared (shared.note latest) :=
        ⟨rfl, rfl, .inr ⟨latest, rfl, lives, beats, silent, right⟩⟩
  have goes {next : Shared} {flow : Flow} (steady : Steady shared next)
      (ready : Ready flow shared.sender.beatLive) :
      Watches ⟨next, flow, receiver, reporters⟩ :=
    watches.steady steady ready rfl watches.receiver watches.reporters
  cases held with
  | some call =>
      rcases advance_beats getApAu shared call written with prints | leaves
      · exact watches.prints prints
      · refine goes leaves.steady ⟨watches.ready.stage, ?_, ?_⟩
        · intro later same beat at'
          obtain ⟨message, before⟩ := leaves.after later same
          have mine : call.message = .heartBeat := message ▸ beat
          exact watches.ready.call call rfl mine (.inl (before mine at'))
        · intro later same beat
          exact watches.ready.sending call rfl ((leaves.after later same).1 ▸ beat)
  | none =>
      cases stage with
      | localMac first =>
          cases mac with
          | none =>
              exact goes (noted (.unread shared.socket) (by simp) (by simp) (by simp) trivial)
                (.other (by simp) (by simp))
          | some mac =>
              refine goes (quiet rfl rfl rfl) (.other (by simp) fun call entered => ?_)
              rw [enter_message entered]
              simp
      | interfaceNum first =>
          refine goes (quiet rfl rfl rfl) (.other (by simp) fun call entered => ?_)
          rw [enter_message entered]
          simp
      | enable first =>
          refine goes (quiet rfl rfl rfl) (.other ?_ (by simp))
          cases first <;> simp
      | check =>
          refine goes (quiet rfl rfl rfl) (.other ?_ (by simp))
          split <;> simp
      | connect => exact goes (quiet rfl rfl rfl) (.other (by simp) (by simp))
      | connecting =>
          cases connects with
          | true => exact watches.opens
          | false => exact goes (quiet rfl rfl rfl) (.other (by simp) (by simp))
      | unmade => exact goes (quiet rfl rfl rfl) (.other (by simp) (by simp))
      | unmadeClose => exact goes (quiet rfl rfl rfl) (.other (by simp) (by simp))
      | reset =>
          exact goes (noted (.emptied shared.socket) (by simp) (by simp) (by simp) trivial)
            (.other (by simp) (by simp))
      | look =>
          by_cases live : shared.sender.beatLive
          · have shape : step getApAu interfaces ⟨shared, ⟨.look, none⟩, receiver, reporters⟩
                (.flow ⟨mac, connects, station, written⟩) =
                    ⟨shared, ⟨.report, none⟩, receiver, reporters⟩ := by
              simp [UplinkThreads.step, flowStep, live]
            rw [shape]
            exact goes (quiet rfl rfl rfl) ⟨fun _ => live, by simp, by simp⟩
          · have shape : step getApAu interfaces ⟨shared, ⟨.look, none⟩, receiver, reporters⟩
                (.flow ⟨mac, connects, station, written⟩) =
                  ⟨shared.note .dropped, ⟨.giveUp, none⟩, receiver, reporters⟩ := by
              simp [UplinkThreads.step, flowStep, live]
            have dead : alive shared.history = false :=
              watches.live.symm.trans (by simpa using live)
            rw [shape]
            exact goes (noted .dropped (by simp) (by simp) (by simp) ⟨dead,
              watches.prompt.attended⟩)
              (.other (by simp) (by simp))
      | report =>
          have live := watches.ready.stage (.inl rfl)
          cases station with
          | none => exact goes (quiet rfl rfl rfl) ⟨fun _ => live, by simp, by simp⟩
          | some info =>
              refine goes (quiet rfl rfl rfl)
                ⟨fun _ => live, fun _ _ _ _ => live, fun call entered beat => ?_⟩
              have message := enter_message
                  (show enter shared (.flowInfo info) = some call from entered)
              exact absurd (message.symm.trans beat) (by simp)
      | beat =>
          have live := watches.ready.stage (.inr rfl)
          exact goes (quiet rfl rfl rfl) ⟨fun _ => live, fun _ _ _ _ => live, fun _ _ _ => rfl⟩
      | giveUp => exact goes (quiet rfl rfl rfl) (.other (by simp) (by simp))
      | giveUpClose => exact goes (quiet rfl rfl rfl) (.other (by simp) (by simp))

theorem watches_init (connects : Bool) : Watches (fniiRoamInit connects) := by
  constructor
  case live => cases connects <;> rfl
  case cseq => cases connects <;> rfl
  case ready => exact .other (by simp) (by simp)
  case receiver => simp [fniiRoamInit]
  case reporters => simp [fniiRoamInit]
  case logged =>
    intro before happening after shape
    have listed : happening ∈ (fniiRoamInit connects).shared.history := by
      rw [shape]
      exact List.mem_append_right _ List.mem_cons_self
    have none' : happening = .emptied 1 ∨ happening = .opened 1 := by
      cases connects with
      | false => exact .inl (List.mem_singleton.mp listed)
      | true => simpa [fniiRoamInit] using listed
    rcases none' with rfl | rfl
    · trivial
    · trivial
  case prompt =>
    intro before frame after shape
    have listed : Happening.received frame ∈ (fniiRoamInit connects).shared.history := by
      rw [shape]
      exact List.mem_append_right _ List.mem_cons_self
    cases connects <;> simp [fniiRoamInit] at listed
  case compared => exact .free (by simp [fniiRoamInit])

theorem watches_run (interfaces : InterfaceAll) (connects : Bool) (turns : List Turn) :
    Watches (run (step getApAu interfaces) (fniiRoamInit connects) turns) := by
  refine run_invariant Watches (watches_init connects) (fun uplink turn watches => ?_) turns
  cases turn with
  | flow input => exact watches_flow getApAu interfaces uplink input watches
  | receiver input => exact watches_receiver getApAu interfaces uplink input watches
  | reporter n report written =>
      exact watches_reporter getApAu interfaces uplink n report written watches

/-! What a heartbeat and a dropped connection mean. -/

/-- Between two heartbeats a connection was made or the echo of the first was accepted, unless that
echo had been compared before the first was printed. -/
def BeatsAnswered (history : List Happening) : Prop :=
  ∀ before first between second after,
    history = before ++ .beat first :: (between ++ .beat second :: after) →
      (∀ other, .beat other ∉ between) →
      (∃ socket, .opened socket ∈ between) ∨
        ∃ frame beats, .accepted frame beats ∈ between ∧
          (Matches first frame ∨ beats ≤ beatCount before)

/-- A connection is given up only where none was made and no echo accepted since the last heartbeat;
if its echo was received all the same, nothing has been received behind it. -/
def DropsUnanswered (history : List Happening) : Prop :=
  ∀ before last since after,
    history = before ++ .beat last :: (since ++ .dropped :: after) →
      (∀ other, .beat other ∉ since) →
      (∀ socket, .opened socket ∉ since) ∧ (∀ frame beats, .accepted frame beats ∉ since) ∧
        ∀ early frame late, since = early ++ .received frame :: late → Matches last frame →
          ∀ other, .received other ∉ late

theorem accepted_echo {before between : List Happening} {first : Nat} {frame : Text} {beats : Nat}
    (quiet : ∀ other, .beat other ∉ between)
    (right : Right (before ++ .beat first :: between) (.accepted frame beats)) :
    Matches first frame ∨ beats ≤ beatCount before := by
  obtain ⟨early, late, shape, count, echo⟩ := right
  rcases List.append_eq_append_iff.mp shape with ⟨middle, rfl, rest⟩ | ⟨middle, rfl, rest⟩
  · cases middle with
    | nil => exact absurd (List.cons.inj rest).1 (by simp)
    | cons beat middle =>
        obtain ⟨rfl, split⟩ := List.cons.inj rest
        have calm (other : Nat) : .beat other ∉ middle := by
          intro inside
          apply quiet other
          rw [split]
          exact List.mem_append_left _ inside
        rw [lastBeat_since before middle first calm] at echo
        exact .inl echo
  · rw [← count, beatCount_append]
    exact .inr (by omega)

theorem beats_answered (interfaces : InterfaceAll) (connects : Bool) (turns : List Turn) :
    BeatsAnswered (run (step getApAu interfaces) (fniiRoamInit connects) turns).shared.history := by
  intro before first between second after shape quiet
  have logged := (watches_run getApAu interfaces connects turns).logged
  have live : Right (before ++ .beat first :: between) (.beat second) := by
    apply logged (before ++ .beat first :: between) (.beat second) after
    rw [shape, List.append_assoc, List.cons_append]
  rcases (alive_since before between first quiet).mp live with opened | ⟨frame, beats, accepted⟩
  · exact .inl opened
  · refine .inr ⟨frame, beats, accepted, ?_⟩
    obtain ⟨front, back, split⟩ := List.append_of_mem accepted
    have calm (other : Nat) : .beat other ∉ front := fun inside =>
        quiet other (split ▸ List.mem_append_left _ inside)
    apply accepted_echo calm
    apply logged _ _ (back ++ .beat second :: after)
    rw [shape, split]
    simp

theorem drops_unanswered (interfaces : InterfaceAll) (connects : Bool) (turns : List Turn) :
    DropsUnanswered (run (step getApAu interfaces) (fniiRoamInit connects)
      turns).shared.history := by
  intro before last since after shape quiet
  have logged := (watches_run getApAu interfaces connects turns).logged
  have right : Right (before ++ .beat last :: since) .dropped := by
    apply logged (before ++ .beat last :: since) .dropped after
    rw [shape, List.append_assoc, List.cons_append]
  obtain ⟨dead, attended⟩ := right
  have unanswered : ¬ alive (before ++ .beat last :: since) = true := by simp [dead]
  rw [alive_since before since last quiet, not_or] at unanswered
  refine ⟨fun socket inside => unanswered.1 ⟨socket, inside⟩, fun frame beats inside =>
    unanswered.2 ⟨frame, beats, inside⟩, ?_⟩
  rintro early frame late rfl echo
  have calm (other : Nat) : .beat other ∉ early := fun inside =>
      quiet other (List.mem_append_left _ inside)
  have split : before ++ .beat last :: (early ++ .received frame :: late) =
      (before ++ .beat last :: early) ++ .received frame :: late := by simp
  rw [← lastBeat_since before early last calm] at echo
  rcases attended _ frame late split echo with ⟨beats, accepted⟩ | silent
  · exact absurd ⟨frame, beats, List.mem_append_right _ (List.mem_cons_of_mem _ accepted)⟩
      unanswered.2
  · exact silent

end LazyAS.HeartbeatWatchdog

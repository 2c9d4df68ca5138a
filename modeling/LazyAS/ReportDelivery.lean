import LazyAS.ApReports

/-! The way of the reports into the controller: how `ListenServer.Server.handle` cuts the
reads of a connection into jobs, and which jobs `MsgProcesser.checkLength` lets through. -/
namespace LazyAS.ReportDelivery
open WireText ApReports

/-- The segments closed by a `;`, and what follows the last one. -/
def cut : Text → List Text × Text
  | [] => ([], [])
  | c :: rest =>
      if c = ';' then ([] :: (cut rest).1, (cut rest).2)
      else match (cut rest).1 with
        | [] => ([], c :: (cut rest).2)
        | segment :: segments => ((c :: segment) :: segments, (cut rest).2)

/-- `String.split(";")`: empty strings at the end are dropped. -/
def split (message : Text) : List Text :=
  (((cut message).1 ++ [(cut message).2]).reverse.dropWhile (·.isEmpty)).reverse

/-- `ListenServer.Server.handle` on one read: the new legacy of the connection and
the jobs put into the worker's queue. -/
def handle (legacy bytes : Text) : Text × List Text :=
  let newMsg := trim bytes
  if newMsg.length > 0 then
    let message := legacy ++ newMsg
    let msgs := split message
    -- an unfinished last piece waits for the next read
    if newMsg.getLast? ≠ some ';' then (msgs.getLastD [], msgs.dropLast) else ([], msgs)
  else (legacy, [])

def handleAll : Text → List Text → List Text
  | _, [] => []
  | legacy, bytes :: reads => (handle legacy bytes).2 ++ handleAll (handle legacy bytes).1 reads

/-- `MsgProcesser.checkLength`; -1 drops the message. -/
def checkLength (message : Text) : Int :=
  if message.length < 10 then -1
  else match (substring message 7 10).bind fun field => parseInt (trim field) with
    | some len => if len ≠ message.length - 10 then -1 else len
    | none => -1

def accepted (reads : List Text) : List Text :=
  (handleAll [] reads).filter fun message => 0 ≤ checkLength message

/-- How the connection may cut or join the bytes sent. -/
structure Segmented (reports : List Report) (reads : List Text) : Prop where
  stream : reads.flatten = reports.flatMap Report.sent
  sized : ∀ bytes ∈ reads, 1 ≤ bytes.length ∧ bytes.length ≤ 1024

/-- Between the `;` of a padded report and the report after it a read ends. -/
def Separated (reports : List Report) (reads : List Text) : Prop :=
  ∀ before report next after, reports = before ++ report :: next :: after → report.Padded →
    ∃ k, (before.flatMap Report.sent).length + (report.message.length + 1) ≤
        (reads.take k).flatten.length ∧
      (reads.take k).flatten.length ≤ (before.flatMap Report.sent).length + report.sent.length

theorem checkLength_message (report : Report) : 0 ≤ checkLength report.message ↔ report.AuFits := by
  obtain ⟨len, read, fits⟩ := lengthText_value report
  have size := message_length report
  have field : substring report.message 7 10 = some report.lengthText := by
    have shape : report.message =
        (report.idText ++ report.typeText) ++ (report.lengthText ++ report.body) := by
      rw [Report.message, List.append_assoc]
    rw [shape]
    exact substring_middle _ _ _ _ _ (by simp [idText_length, typeText_length])
      (by simp [idText_length, typeText_length, lengthText_length])
  have kept : trim report.lengthText = report.lengthText := by
    refine trim_none _ fun c member => ?_
    have plain := (lengthText_plain report c member).1
    simp only [isTrimmed, decide_eq_false_iff_not]
    omega
  rw [checkLength, if_neg (by omega), field, Option.bind_some, kept, read, fits]
  simp only [size]
  split <;> omega

/-! Cutting at the semicolons. -/

theorem cut_append (a b : Text) : cut (a ++ b) =
    ((cut a).1 ++ (cut ((cut a).2 ++ b)).1, (cut ((cut a).2 ++ b)).2) := by
  induction a with
  | nil => simp [cut]
  | cons c a ih =>
      rw [List.cons_append]
      by_cases semicolon : c = ';'
      · simp [cut, semicolon, ih]
      · cases segments : (cut a).1 with
        | nil => simp [cut, semicolon, ih, segments]
        | cons segment rest => simp [cut, semicolon, ih, segments]

theorem cut_plain (text : Text) (plain : ∀ c ∈ text, c ≠ ';') : cut text = ([], text) := by
  induction text with
  | nil => rfl
  | cons c text ih =>
      rw [List.forall_mem_cons] at plain
      simp [cut, plain.1, ih plain.2]

theorem cut_segment (text rest : Text) (plain : ∀ c ∈ text, c ≠ ';') :
    cut (text ++ ';' :: rest) = (text :: (cut rest).1, (cut rest).2) := by
  induction text with
  | nil => simp [cut]
  | cons c text ih =>
      rw [List.forall_mem_cons] at plain
      rw [List.cons_append, cut, if_neg plain.1, ih plain.2]

theorem cut_rest_plain (text : Text) : ∀ c ∈ (cut text).2, c ≠ ';' := by
  induction text with
  | nil => simp [cut]
  | cons c text ih =>
      rw [cut]
      by_cases semicolon : c = ';'
      · rw [if_pos semicolon]
        exact ih
      · rw [if_neg semicolon]
        cases (cut text).1 with
        | nil =>
            rw [List.forall_mem_cons]
            exact ⟨semicolon, ih⟩
        | cons segment rest => exact ih

theorem cut_join (text : Text) :
    text = (cut text).1.flatMap (fun segment => segment ++ [';']) ++ (cut text).2 := by
  induction text with
  | nil => rfl
  | cons c text ih =>
      rw [cut]
      by_cases semicolon : c = ';'
      · rw [if_pos semicolon, semicolon, List.flatMap_cons, List.nil_append, List.append_assoc,
          ← ih]
        rfl
      · rw [if_neg semicolon]
        cases segments : (cut text).1 with
        | nil =>
            rw [segments] at ih
            exact congrArg (c :: ·) ih
        | cons segment rest =>
            rw [segments] at ih
            exact congrArg (c :: ·) ih

theorem cut_last (text : Text) (c : Char) :
    (cut (text ++ [c])).2 = if c = ';' then [] else (cut text).2 ++ [c] := by
  rw [cut_append]
  by_cases semicolon : c = ';'
  · rw [if_pos semicolon, semicolon, cut_segment _ _ (cut_rest_plain text)]
    rfl
  · have plain : ∀ x ∈ (cut text).2 ++ [c], x ≠ ';' := by
      intro x member
      rcases List.mem_append.mp member with inside | last
      · exact cut_rest_plain text x inside
      · rwa [List.mem_singleton.mp last]
    rw [if_neg semicolon, cut_plain _ plain]

theorem cut_filter (text : Text) :
    cut (text.filter (· ≠ nul)) =
      ((cut text).1.map (List.filter (· ≠ nul)), (cut text).2.filter (· ≠ nul)) := by
  induction text with
  | nil => rfl
  | cons c text ih =>
      by_cases zero : c = nul
      · have other : nul ≠ ';' := by decide
        rw [List.filter_cons_of_neg (by simp [zero]), ih, cut, zero, if_neg other]
        cases (cut text).1 with
        | nil => simp
        | cons segment rest => simp
      · rw [List.filter_cons_of_pos (by simp [zero]), cut, cut, ih]
        by_cases semicolon : c = ';'
        · simp [semicolon]
        · simp only [if_neg semicolon]
          cases (cut text).1 with
          | nil => simp [zero]
          | cons segment rest => simp [zero]

/-! The reader as one cut of all trimmed reads. -/

def passes (message : Text) : Bool := 0 ≤ checkLength message

theorem filter_split (segments : List Text) :
    ((segments.reverse.dropWhile (·.isEmpty)).reverse).filter passes = segments.filter passes := by
  have dropped : ∀ list : List Text,
      (list.dropWhile (·.isEmpty)).filter passes = list.filter passes := by
    intro list
    induction list with
    | nil => rfl
    | cons segment list ih =>
        by_cases empty : segment.isEmpty
        · have none : passes segment = false := by
            rw [List.isEmpty_iff.mp empty]
            decide
          rw [List.dropWhile_cons_of_pos empty, ih, List.filter_cons_of_neg (by simp [none])]
        · rw [List.dropWhile_cons_of_neg empty]
  rw [List.filter_reverse, dropped, ← List.filter_reverse, List.reverse_reverse]

theorem handle_cut (legacy bytes : Text) (plain : ∀ c ∈ legacy, c ≠ ';') :
    (handle legacy bytes).1 = (cut (legacy ++ trim bytes)).2 ∧
      (handle legacy bytes).2.filter passes = (cut (legacy ++ trim bytes)).1.filter passes := by
  rcases List.eq_nil_or_concat (trim bytes) with empty | ⟨init, c, shape⟩
  · simp [handle, empty, cut_plain legacy plain]
  · have nonempty : (trim bytes).length > 0 := by simp [shape]
    have last : (trim bytes).getLast? = some c := by simp [shape]
    have ending : (cut (legacy ++ trim bytes)).2 =
        if c = ';' then [] else (cut (legacy ++ init)).2 ++ [c] := by
      rw [shape, List.concat_eq_append, ← List.append_assoc, cut_last]
    by_cases semicolon : c = ';'
    · rw [if_pos semicolon] at ending
      have jobs : handle legacy bytes = ([], split (legacy ++ trim bytes)) := by
        simp only [handle, if_pos nonempty, last, semicolon, ne_eq, not_true_eq_false, if_false]
      rw [jobs, ending]
      refine ⟨rfl, ?_⟩
      simp only
      rw [split, filter_split, ending, List.filter_append]
      exact List.append_nil _
    · rw [if_neg semicolon] at ending
      have whole : split (legacy ++ trim bytes) =
          (cut (legacy ++ trim bytes)).1 ++ [(cut (legacy ++ trim bytes)).2] := by
        rw [split, List.reverse_append, List.reverse_singleton, List.singleton_append,
          List.dropWhile_cons_of_neg (by simp [ending]), List.reverse_cons, List.reverse_reverse]
      have jobs : handle legacy bytes = ((split (legacy ++ trim bytes)).getLastD [],
          (split (legacy ++ trim bytes)).dropLast) := by
        simp only [handle, if_pos nonempty, last, ne_eq, Option.some.injEq, semicolon,
          not_false_eq_true, if_true]
      rw [jobs, whole]
      simp

theorem handleAll_cut (reads : List Text) (legacy : Text) (plain : ∀ c ∈ legacy, c ≠ ';') :
    (handleAll legacy reads).filter passes =
      (cut (legacy ++ reads.flatMap trim)).1.filter passes := by
  induction reads generalizing legacy with
  | nil => simp [handleAll, cut_plain legacy plain]
  | cons bytes reads ih =>
      obtain ⟨rest, jobs⟩ := handle_cut legacy bytes plain
      rw [handleAll, List.filter_append, jobs, rest, ih _ (cut_rest_plain _), List.flatMap_cons,
        ← List.append_assoc, cut_append (legacy ++ trim bytes), List.filter_append]

theorem accepted_cut (reads : List Text) :
    accepted reads = (cut (reads.flatMap trim)).1.filter passes := by
  have whole := handleAll_cut reads [] (by simp)
  rw [List.nil_append] at whole
  exact whole

/-! Trimming. -/

theorem trim_split (text : Text) : ∃ left right, text = left ++ (trim text ++ right) ∧
    (∀ c ∈ left, isTrimmed c) ∧ (∀ c ∈ right, isTrimmed c) ∧
    (∀ c rest, trim text = c :: rest → isTrimmed c = false) ∧
    (∀ init c, trim text = init ++ [c] → isTrimmed c = false) := by
  -- what `trim` drops, and that it stops at characters it keeps
  let middle := text.dropWhile isTrimmed
  have kept : text = text.takeWhile isTrimmed ++ middle := List.takeWhile_append_dropWhile.symm
  have ending : middle = trim text ++ (middle.reverse.takeWhile isTrimmed).reverse := by
    rw [trim, ← List.reverse_append, List.takeWhile_append_dropWhile, List.reverse_reverse]
  refine ⟨text.takeWhile isTrimmed, (middle.reverse.takeWhile isTrimmed).reverse, ?_, ?_,
    ?_, ?_, ?_⟩
  · rw [← ending, ← kept]
  · exact fun c member => List.mem_takeWhile_imp member
  · intro c member
    exact List.mem_takeWhile_imp (List.mem_reverse.mp member)
  · intro c rest shape
    obtain ⟨tail, start⟩ : ∃ tail, text.dropWhile isTrimmed = c :: tail := by
      rw [shape, List.cons_append] at ending
      exact ⟨_, ending⟩
    have stop := List.head?_dropWhile_not isTrimmed text
    rw [start] at stop
    simpa using stop
  · intro init c shape
    have reversed : middle.reverse.dropWhile isTrimmed = c :: init.reverse := by
      have flipped := congrArg List.reverse shape
      rw [trim, List.reverse_reverse, List.reverse_append] at flipped
      exact flipped
    have stop := List.head?_dropWhile_not isTrimmed middle.reverse
    rw [reversed] at stop
    simpa using stop

theorem trim_filter (text : Text) (visible : ∀ c ∈ text, isTrimmed c → c = nul) :
    (trim text).filter (· ≠ nul) = text.filter (· ≠ nul) := by
  obtain ⟨left, right, shape, before, after, -, -⟩ := trim_split text
  have first : left.filter (· ≠ nul) = [] := by
    rw [List.filter_eq_nil_iff]
    intro c member
    simp [visible c (by rw [shape]; exact List.mem_append_left _ member) (before c member)]
  have last : right.filter (· ≠ nul) = [] := by
    rw [List.filter_eq_nil_iff]
    intro c member
    simp [visible c (by rw [shape]; exact List.mem_append_right _ (List.mem_append_right _ member))
      (after c member)]
  conv_rhs => rw [shape]
  rw [List.filter_append, List.filter_append, first, last, List.nil_append, List.append_nil]

theorem trim_nul_iff (text : Text) : nul ∈ trim text ↔
    ∃ y x z : Nat, y < x ∧ x < z ∧ text[x]? = some nul ∧
      (∃ c, text[y]? = some c ∧ isTrimmed c = false) ∧
      ∃ c, text[z]? = some c ∧ isTrimmed c = false := by
  -- a zero byte survives exactly between two characters that are kept
  obtain ⟨left, right, shape, before, after, first, last⟩ := trim_split text
  have dropped : isTrimmed nul = true := by decide
  constructor
  · intro member
    obtain ⟨i, inside⟩ := List.mem_iff_getElem?.mp member
    obtain ⟨bound, -⟩ := List.getElem?_eq_some_iff.mp inside
    obtain ⟨c, rest, front⟩ := List.exists_cons_of_length_pos (by omega : 0 < (trim text).length)
    obtain ⟨init, d, back⟩ := (List.eq_nil_or_concat (trim text)).resolve_left (by simp [front])
    rw [List.concat_eq_append] at back
    have place : ∀ j, j < (trim text).length → text[left.length + j]? = (trim text)[j]? := by
      intro j high
      conv_lhs => rw [shape]
      rw [List.getElem?_append_right (by omega), Nat.add_sub_cancel_left,
        List.getElem?_append_left high]
    have start : (trim text)[0]? = some c := by rw [front]; rfl
    have ending : (trim text)[init.length]? = some d := by rw [back]; simp
    have size : (trim text).length = init.length + 1 := by rw [back]; simp
    have notFirst : i ≠ 0 := by
      rintro rfl
      rw [start] at inside
      rw [Option.some.inj inside] at front
      simp [first nul rest front] at dropped
    have notLast : i ≠ init.length := by
      rintro rfl
      rw [ending] at inside
      rw [Option.some.inj inside] at back
      simp [last init nul back] at dropped
    refine ⟨left.length, left.length + i, left.length + init.length, by omega, by omega, ?_, ?_, ?_⟩
    · rw [place i bound, inside]
    · exact ⟨c, by rw [← start, ← place 0 (by omega)]; rfl, first c rest front⟩
    · exact ⟨d, by rw [← ending, place _ (by omega)], last init d back⟩
  · rintro ⟨y, x, z, low, high, zero, ⟨c, early, keptEarly⟩, d, late, keptLate⟩
    rw [shape] at zero early late
    have fromLeft : left.length ≤ y := by
      by_contra inside
      rw [List.getElem?_append_left (by omega)] at early
      have trimmed := before c (List.mem_of_getElem? early)
      simp [keptEarly] at trimmed
    have toRight : z < left.length + (trim text).length := by
      by_contra outside
      rw [List.getElem?_append_right (by omega), List.getElem?_append_right (by omega)] at late
      have trimmed := after d (List.mem_of_getElem? late)
      simp [keptLate] at trimmed
    rw [List.getElem?_append_right (by omega), List.getElem?_append_left (by omega)] at zero
    exact List.mem_of_getElem? zero

/-! Positions in the stream. -/

theorem locate (lists : List Text) (x : Nat) (inside : x < lists.flatten.length) :
    ∃ before here after, lists = before ++ here :: after ∧ before.flatten.length ≤ x ∧
      x < before.flatten.length + here.length := by
  induction lists generalizing x with
  | nil => simp at inside
  | cons first rest ih =>
      by_cases here : x < first.length
      · exact ⟨[], first, rest, rfl, by simp, by simpa using here⟩
      · rw [List.flatten_cons, List.length_append] at inside
        obtain ⟨before, found, after, rfl, low, high⟩ := ih (x - first.length) (by omega)
        refine ⟨first :: before, found, after, rfl, ?_, ?_⟩
        · rw [List.flatten_cons, List.length_append]; omega
        · rw [List.flatten_cons, List.length_append]; omega

theorem flatten_place (before after : List Text) (here : Text) (x : Nat)
    (low : before.flatten.length ≤ x) (high : x < before.flatten.length + here.length) :
    (before ++ here :: after).flatten[x]? = here[x - before.flatten.length]? := by
  rw [List.flatten_append, List.getElem?_append_right low, List.flatten_cons,
    List.getElem?_append_left (by omega)]

theorem flatten_take_le (reads : List Text) (j k : Nat) (order : j ≤ k) :
    (reads.take j).flatten.length ≤ (reads.take k).flatten.length := by
  obtain ⟨n, rfl⟩ := Nat.exists_eq_add_of_le order
  rw [List.take_add, List.flatten_append, List.length_append]
  omega

theorem sent_byte (report : Report) (fits : report.AuFits) (i : Nat)
    (inside : i < report.sent.length) :
    (i ≤ report.message.length ∧ ∃ c, report.sent[i]? = some c ∧ isTrimmed c = false ∧ c ≠ nul) ∨
      (report.message.length < i ∧ report.Padded ∧ report.sent[i]? = some nul) := by
  -- what a byte of a report's part of the stream can be
  obtain ⟨pad, shape, padded⟩ := sent_shape report fits
  rw [shape, List.length_append, List.length_cons, List.length_replicate] at inside
  rw [shape]
  by_cases text : i < report.message.length
  · refine .inl ⟨by omega, report.message.get ⟨i, text⟩, ?_, ?_⟩
    · rw [List.getElem?_append_left text, List.getElem?_eq_getElem text]
      rfl
    · have plain := (message_plain report _ (List.get_mem report.message ⟨i, text⟩)).1
      refine ⟨?_, ?_⟩
      · simp only [isTrimmed, decide_eq_false_iff_not]
        omega
      · intro zero
        rw [zero] at plain
        exact absurd plain (by decide)
  · by_cases semicolon : i = report.message.length
    · refine .inl ⟨by omega, ';', ?_, by decide, by decide⟩
      rw [semicolon, List.getElem?_append_right le_rfl, Nat.sub_self]
      rfl
    · refine .inr ⟨by omega, padded.mpr (by omega), ?_⟩
      obtain ⟨n, gap⟩ : ∃ n, i - report.message.length = n + 1 :=
        ⟨i - report.message.length - 1, by omega⟩
      rw [List.getElem?_append_right (by omega), gap, List.getElem?_cons_succ,
        List.getElem?_replicate, if_pos (by omega)]

theorem sent_positive (report : Report) (fits : report.AuFits) :
    report.message.length < report.sent.length ∧
      (report.Padded → report.message.length + 1 < report.sent.length) := by
  obtain ⟨pad, shape, padded⟩ := sent_shape report fits
  rw [shape, List.length_append, List.length_cons, List.length_replicate]
  refine ⟨by omega, fun filled => ?_⟩
  have more := padded.mp filled
  omega

theorem clean_separated (reports : List Report) (reads : List Text)
    (fits : ∀ report ∈ reports, report.AuFits)
    (stream : reads.flatten = reports.flatMap Report.sent)
    (clean : nul ∉ reads.flatMap trim) : Separated reports reads := by
  -- where no zero byte survives the trimming, reads end inside the padding
  rintro before report next after rfl padded
  have own := fits report (by simp)
  have other := fits next (by simp)
  have room := (sent_positive report own).2 padded
  have begins := (sent_positive next other).1
  let base := (before.flatMap Report.sent).length
  have byte : ∀ i, i < report.sent.length → reads.flatten[base + i]? = report.sent[i]? := by
    intro i inside
    rw [stream, List.flatMap_append, List.getElem?_append_right (by omega), List.flatMap_cons,
      Nat.add_sub_cancel_left, List.getElem?_append_left inside]
  have first : reads.flatten[base + report.sent.length]? = next.sent[0]? := by
    rw [stream, List.flatMap_append, List.getElem?_append_right (by omega), List.flatMap_cons,
      Nat.add_sub_cancel_left, List.getElem?_append_right le_rfl, Nat.sub_self, List.flatMap_cons,
      List.getElem?_append_left (by omega)]
  have total : base + report.sent.length + next.sent.length ≤ reads.flatten.length := by
    rw [stream]
    simp only [List.flatMap_append, List.flatMap_cons, List.length_append, base]
    omega
  obtain ⟨earlier, here, later, rfl, low, high⟩ :=
    locate reads (base + (report.message.length + 1)) (by omega)
  by_cases edge : earlier.flatten.length = base + (report.message.length + 1)
  · refine ⟨earlier.length, ?_, ?_⟩
    · rw [List.take_left]; omega
    · rw [List.take_left]; omega
  by_cases done : earlier.flatten.length + here.length ≤ base + report.sent.length
  · refine ⟨earlier.length + 1, ?_, ?_⟩
    · rw [List.take_length_add_append]
      simp only [List.take_succ_cons, List.take_zero, List.flatten_append, List.flatten_cons,
        List.flatten_nil, List.append_nil, List.length_append]
      omega
    · rw [List.take_length_add_append]
      simp only [List.take_succ_cons, List.take_zero, List.flatten_append, List.flatten_cons,
        List.flatten_nil, List.append_nil, List.length_append]
      omega
  · -- the read holds the `;` and the first byte of the next report
    refine absurd ?_ clean
    rw [List.mem_flatMap]
    refine ⟨here, by simp, (trim_nul_iff here).mpr ?_⟩
    have at' : ∀ p, earlier.flatten.length ≤ p → p < earlier.flatten.length + here.length →
        here[p - earlier.flatten.length]? = (earlier ++ here :: later).flatten[p]? :=
      fun p above below => (flatten_place earlier later here p above below).symm
    obtain ⟨-, c, semicolon, kept, -⟩ | ⟨beyond, -⟩ :=
      sent_byte report own report.message.length (by omega)
    · obtain ⟨beyond, -⟩ | ⟨-, -, zero⟩ := sent_byte report own (report.message.length + 1) room
      · omega
      obtain ⟨-, d, start, kept', -⟩ | ⟨beyond, -⟩ := sent_byte next other 0 (by omega)
      · refine ⟨base + report.message.length - earlier.flatten.length,
          base + (report.message.length + 1) - earlier.flatten.length,
          base + report.sent.length - earlier.flatten.length, by omega, by omega, ?_, ?_, ?_⟩
        · rw [at' _ low high, byte _ room, zero]
        · exact ⟨c, by rw [at' _ (by omega) (by omega), byte _ (by omega), semicolon], kept⟩
        · exact ⟨d, by rw [at' _ (by omega) (by omega), first, start], kept'⟩
      · omega
    · omega

theorem locate_report (reports : List Report) (x : Nat)
    (inside : x < (reports.flatMap Report.sent).length) :
    ∃ before report after, reports = before ++ report :: after ∧
      (before.flatMap Report.sent).length ≤ x ∧
      x < (before.flatMap Report.sent).length + report.sent.length := by
  rw [List.flatMap_def] at inside
  obtain ⟨before, here, after, split, low, high⟩ := locate _ x inside
  obtain ⟨first, tail, rfl, rfl, back⟩ := List.map_eq_append_iff.mp split
  obtain ⟨report, rest, rfl, rfl, rfl⟩ := List.map_eq_cons_iff.mp back
  exact ⟨first, report, rest, rfl, by rwa [List.flatMap_def], by rwa [List.flatMap_def]⟩

theorem stream_byte (before after : List Report) (report : Report) (x : Nat)
    (low : (before.flatMap Report.sent).length ≤ x)
    (high : x < (before.flatMap Report.sent).length + report.sent.length) :
    ((before ++ report :: after).flatMap Report.sent)[x]? =
      report.sent[x - (before.flatMap Report.sent).length]? := by
  rw [List.flatMap_append, List.getElem?_append_right low, List.flatMap_cons,
    List.getElem?_append_left (by omega)]

theorem separated_clean (reports : List Report) (reads : List Text)
    (fits : ∀ report ∈ reports, report.AuFits)
    (stream : reads.flatten = reports.flatMap Report.sent)
    (separated : Separated reports reads) : nul ∉ reads.flatMap trim := by
  intro member
  obtain ⟨here, inside, survives⟩ := List.mem_flatMap.mp member
  obtain ⟨earlier, later, rfl⟩ := List.append_of_mem inside
  obtain ⟨y, x, z, low, high, zero, ⟨c, early, keptEarly⟩, d, late, keptLate⟩ :=
    (trim_nul_iff here).mp survives
  obtain ⟨bound, -⟩ := List.getElem?_eq_some_iff.mp late
  let base := earlier.flatten.length
  have place : ∀ i, i < here.length →
      (reports.flatMap Report.sent)[base + i]? = here[i]? := by
    intro i small
    rw [← stream, flatten_place earlier later here (base + i) (by omega) (by omega),
      Nat.add_sub_cancel_left]
  -- the report that the surviving zero byte belongs to
  obtain ⟨before, report, after, rfl, from', to'⟩ := locate_report reports (base + x) (by
    rw [← stream, List.flatten_append, List.length_append, List.flatten_cons, List.length_append]
    omega)
  have own := fits report (by simp)
  let start := (before.flatMap Report.sent).length
  have blank := place x (by omega)
  rw [zero, stream_byte before after report _ from' to'] at blank
  -- the zero byte is padding, so its neighbours that are kept lie outside the padding
  obtain ⟨-, c', found, -, notZero⟩ | ⟨padding, padded, -⟩ :=
    sent_byte report own (base + x - start) (by omega)
  · rw [blank] at found
    exact absurd (Option.some.inj found).symm notZero
  have earlyOutside : base + y ≤ start + report.message.length := by
    by_contra beyond
    have byte := place y (by omega)
    rw [early, stream_byte before after report _ (by omega) (by omega)] at byte
    obtain ⟨inText, -⟩ | ⟨-, -, blank'⟩ := sent_byte report own (base + y - start) (by omega)
    · omega
    · rw [byte] at blank'
      rw [Option.some.inj blank'] at keptEarly
      exact absurd keptEarly (by decide)
  have lateOutside : start + report.sent.length ≤ base + z := by
    by_contra within
    have byte := place z bound
    rw [late, stream_byte before after report _ (by omega) (by omega)] at byte
    obtain ⟨inText, -⟩ | ⟨-, -, blank'⟩ := sent_byte report own (base + z - start) (by omega)
    · omega
    · rw [byte] at blank'
      rw [Option.some.inj blank'] at keptLate
      exact absurd keptLate (by decide)
  cases after with
  | nil =>
      have total := congrArg List.length stream
      simp only [List.flatten_append, List.flatten_cons, List.length_append, List.flatMap_append,
        List.flatMap_cons, List.flatMap_nil, List.length_nil] at total
      omega
  | cons next after =>
      obtain ⟨k, above, below⟩ := separated before report next after rfl padded
      -- the read that ends between the two reports cannot be inside this one
      by_cases order : k ≤ earlier.length
      · have less := flatten_take_le (earlier ++ here :: later) k earlier.length order
        rw [List.take_left] at less
        omega
      · have more := flatten_take_le (earlier ++ here :: later) (earlier.length + 1) k (by omega)
        rw [List.take_length_add_append] at more
        simp only [List.take_succ_cons, List.take_zero, List.flatten_append, List.flatten_cons,
          List.flatten_nil, List.append_nil, List.length_append] at more
        omega

/-! What the worker accepts. -/

theorem stream_visible (reports : List Report) (fits : ∀ report ∈ reports, report.AuFits) :
    ∀ c ∈ reports.flatMap Report.sent, isTrimmed c → c = nul := by
  intro c member trimmed
  obtain ⟨report, listed, inside⟩ := List.mem_flatMap.mp member
  obtain ⟨i, found⟩ := List.mem_iff_getElem?.mp inside
  obtain ⟨bound, -⟩ := List.getElem?_eq_some_iff.mp found
  obtain ⟨-, d, byte, kept, -⟩ | ⟨-, -, zero⟩ := sent_byte report (fits report listed) i bound
  · rw [found] at byte
    rw [Option.some.inj byte, kept] at trimmed
    simp at trimmed
  · rw [found] at zero
    exact Option.some.inj zero

theorem stream_filter (reports : List Report) (fits : ∀ report ∈ reports, report.AuFits) :
    (reports.flatMap Report.sent).filter (· ≠ nul) =
      reports.flatMap fun report => report.message ++ [';'] := by
  induction reports with
  | nil => rfl
  | cons report reports ih =>
      rw [List.forall_mem_cons] at fits
      obtain ⟨pad, shape, -⟩ := sent_shape report fits.1
      have text : report.message.filter (· ≠ nul) = report.message := by
        rw [List.filter_eq_self]
        intro c member
        have plain := (message_plain report c member).1
        simp only [ne_eq, decide_eq_true_eq]
        rintro rfl
        exact absurd plain (by decide)
      have zeros : (List.replicate pad nul).filter (· ≠ nul) = [] := by
        rw [List.filter_eq_nil_iff]
        intro c member
        simp [List.eq_of_mem_replicate member]
      rw [List.flatMap_cons, List.flatMap_cons, List.filter_append, ih fits.2, shape,
        List.filter_append, text, List.filter_cons_of_pos (by decide), zeros]

theorem cut_messages (reports : List Report) :
    cut (reports.flatMap fun report => report.message ++ [';']) =
      (reports.map Report.message, []) := by
  induction reports with
  | nil => rfl
  | cons report reports ih =>
      rw [List.flatMap_cons, List.append_assoc, List.singleton_append,
        cut_segment _ _ fun c member => (message_plain report c member).2, ih]
      rfl

theorem flatMap_trim_last (reads : List Text) (init : Text) (c : Char)
    (shape : reads.flatMap trim = init ++ [c]) : isTrimmed c = false := by
  induction reads generalizing init with
  | nil => simp at shape
  | cons bytes reads ih =>
      rw [List.flatMap_cons] at shape
      rcases List.eq_nil_or_concat (reads.flatMap trim) with empty | ⟨front, d, back⟩
      · rw [empty, List.append_nil] at shape
        obtain ⟨-, -, -, -, -, -, last⟩ := trim_split bytes
        exact last init c shape
      · rw [List.concat_eq_append] at back
        rw [back, ← List.append_assoc] at shape
        obtain rfl : d = c := List.singleton_inj.mp (List.append_inj' shape rfl).2
        exact ih front back

theorem cut_reads (reports : List Report) (reads : List Text)
    (fits : ∀ report ∈ reports, report.AuFits)
    (stream : reads.flatten = reports.flatMap Report.sent) :
    (cut (reads.flatMap trim)).1.map (List.filter (· ≠ nul)) = reports.map Report.message ∧
      (cut (reads.flatMap trim)).2.filter (· ≠ nul) = [] := by
  have visible := stream_visible reports fits
  rw [← stream] at visible
  have kept : (reads.flatMap trim).filter (· ≠ nul) = reads.flatten.filter (· ≠ nul) := by
    clear stream
    induction reads with
    | nil => rfl
    | cons bytes reads ih =>
        rw [List.flatten_cons, List.forall_mem_append] at visible
        rw [List.flatMap_cons, List.flatten_cons, List.filter_append, List.filter_append,
          trim_filter bytes visible.1, ih visible.2]
  -- cutting and dropping zero bytes commute, and without them the stream is the messages
  have whole := cut_filter (reads.flatMap trim)
  rw [kept, stream, stream_filter reports fits, cut_messages] at whole
  exact ⟨(Prod.mk.inj whole).1.symm, (Prod.mk.inj whole).2.symm⟩

theorem accepted_iff_clean (reports : List Report) (reads : List Text)
    (fits : ∀ report ∈ reports, report.AuFits)
    (stream : reads.flatten = reports.flatMap Report.sent) :
    accepted reads = reports.map Report.message ↔ nul ∉ reads.flatMap trim := by
  obtain ⟨segments, rest⟩ := cut_reads reports reads fits stream
  rw [accepted_cut]
  constructor
  · intro same member
    have count := congrArg List.length segments
    rw [List.length_map, ← same] at count
    -- as many segments as reports, so the filter drops none
    have all : (cut (reads.flatMap trim)).1.filter passes = (cut (reads.flatMap trim)).1 :=
      List.filter_eq_self.mpr (List.length_filter_eq_length_iff.mp count.symm)
    rw [all] at same
    have ended : (cut (reads.flatMap trim)).2 = [] := by
      rcases List.eq_nil_or_concat (cut (reads.flatMap trim)).2 with empty | ⟨init, c, back⟩
      · exact empty
      · -- a rest of zero bytes alone would end the last read, which is trimmed
        rw [List.concat_eq_append] at back
        rw [back, List.filter_append, List.append_eq_nil_iff] at rest
        have zero : c = nul := by simpa using rest.2
        have joined := cut_join (reads.flatMap trim)
        rw [back, ← List.append_assoc] at joined
        have kept := flatMap_trim_last reads _ c joined
        rw [zero] at kept
        exact absurd kept (by decide)
    rw [cut_join (reads.flatMap trim), ended, same, List.append_nil] at member
    obtain ⟨text, listed, inside⟩ := List.mem_flatMap.mp member
    obtain ⟨report, -, rfl⟩ := List.mem_map.mp listed
    rcases List.mem_append.mp inside with plain | semicolon
    · exact absurd (message_plain report nul plain).1 (by decide)
    · exact absurd (List.mem_singleton.mp semicolon) (by decide)
  · intro clean
    have untouched : (cut (reads.flatMap trim)).1.map (List.filter (· ≠ nul)) =
        (cut (reads.flatMap trim)).1 := by
      conv_rhs => rw [← List.map_id (cut (reads.flatMap trim)).1]
      refine List.map_congr_left fun segment listed => ?_
      rw [id_eq, List.filter_eq_self]
      intro c member
      simp only [ne_eq, decide_eq_true_eq]
      rintro rfl
      refine clean ?_
      rw [cut_join (reads.flatMap trim)]
      exact List.mem_append_left _ (List.mem_flatMap.mpr
        ⟨segment, listed, List.mem_append_left _ member⟩)
    rw [untouched] at segments
    rw [segments, List.filter_eq_self]
    intro text listed
    obtain ⟨report, member, rfl⟩ := List.mem_map.mp listed
    simpa [passes] using (checkLength_message report).mpr (fits report member)

/-- The worker accepts exactly the reports, in order, when every airtime prints in three
characters and no read spans the end of a padded report and the start of the next. -/
theorem reports_accepted_iff (reports : List Report) (reads : List Text)
    (segmented : Segmented reports reads) :
    accepted reads = reports.map Report.message ↔
      (∀ report ∈ reports, report.AuFits) ∧ Separated reports reads := by
  constructor
  · intro same
    have fits : ∀ report ∈ reports, report.AuFits := by
      intro report member
      have listed : report.message ∈ accepted reads := by
        rw [same]
        exact List.mem_map_of_mem member
      have passed := (List.mem_filter.mp listed).2
      exact (checkLength_message report).mp (by simpa using passed)
    exact ⟨fits, clean_separated reports reads fits segmented.stream
      ((accepted_iff_clean reports reads fits segmented.stream).mp same)⟩
  · rintro ⟨fits, separated⟩
    exact (accepted_iff_clean reports reads fits segmented.stream).mpr
      (separated_clean reports reads fits segmented.stream separated)

def joined (idf : Fin 9999) : Report :=
  .newSta idf (fun _ => 1) (fun _ => 2) ⟨['a'], by decide, each_char (by decide)⟩

/-- Two of them in three reads, the second of which ends between them. -/
theorem reports_in_three_reads :
    Segmented [joined 1, joined 2] [(joined 1).sent.take 9, (joined 1).sent.drop 9,
      (joined 2).sent] ∧
      (accepted [(joined 1).sent.take 9, (joined 1).sent.drop 9, (joined 2).sent] =
          [joined 1, joined 2].map Report.message ↔
        (∀ report ∈ [joined 1, joined 2], report.AuFits) ∧
          Separated [joined 1, joined 2] [(joined 1).sent.take 9, (joined 1).sent.drop 9,
            (joined 2).sent]) ∧
      accepted [(joined 1).sent.take 9, (joined 1).sent.drop 9, (joined 2).sent] =
        [joined 1, joined 2].map Report.message := by
  have segmented : Segmented [joined 1, joined 2]
      [(joined 1).sent.take 9, (joined 1).sent.drop 9, (joined 2).sent] :=
        ⟨by decide +kernel, by decide +kernel⟩
  exact ⟨segmented, reports_accepted_iff _ _ segmented, by decide +kernel⟩

theorem joined_reports_dropped :
    Segmented [joined 1, joined 2] [(joined 1).sent ++ (joined 2).sent] ∧
      accepted [(joined 1).sent ++ (joined 2).sent] ≠ [joined 1, joined 2].map Report.message :=
  ⟨⟨rfl, by decide +kernel⟩, by decide +kernel⟩

end LazyAS.ReportDelivery

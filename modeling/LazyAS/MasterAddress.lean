import LazyAS.WireText

/-! Where an AP finds its controller: `fnii_read_config` and `fnii_get_master_connect_info` of
`fnii_roam.c`, which take the address and the port out of two lines of the configuration file. -/
namespace LazyAS.MasterAddress
open WireText

/-! `fnii_roam.c`. -/

def USERID_FIELD : Nat := 64

def USERID_VLAUE_MIN : Nat := 17

def USERID_VLAUE : Nat := 32

structure Bounds where
  valueS : Nat
  valueE : Nat
  deriving DecidableEq

/-- The loop over the buffer, from `tmp_counter` on. -/
def search (tmpCounter : Nat) (bounds : Bounds) : Text → Bounds
  | [] => bounds
  | c :: rest =>
      let opened := if c = '>' ∧ bounds.valueE = 0 then { bounds with valueS := tmpCounter + 1 }
          else bounds
      if c = '<' ∧ opened.valueS ≠ 0 then { opened with valueE := tmpCounter }
      else search (tmpCounter + 1) opened rest

/-- What is copied for the output of a pipe; `none` is FNII_RET_ERR. A pipe that does not open is no
error. -/
def fniiReadConfig : Option Text → Option Text
  | none => some []
  | some output =>
      let buffer := output.take (USERID_FIELD - 1)
      if buffer.length < USERID_VLAUE_MIN then none
      else
        let bounds := search 0 ⟨0, 0⟩ buffer
        if bounds.valueS = 0 ∨ bounds.valueE = 0 ∨ bounds.valueE < bounds.valueS ∨
            bounds.valueE - bounds.valueS > USERID_VLAUE then none
        else some ((buffer.drop bounds.valueS).take (bounds.valueE - bounds.valueS))

/-- What `atoi` makes of a buffer that holds this value, in an `INT16`. It is not defined for a
value without its zero, nor for a number that no `int` holds. -/
def portOf (bufport : Text) : Option Int :=
  if bufport.length < USERID_VLAUE ∧ -2 ^ 31 ≤ atoi bufport ∧ atoi bufport < 2 ^ 31 then
    some ((atoi bufport).bmod (2 ^ 16))
  else none

structure ConnectInfo where
  host : Text
  port : Option Int
  deriving DecidableEq

def fniiGetMasterConnectInfo (masterip masterport : Option Text) : Option ConnectInfo := do
  let bufip ← fniiReadConfig masterip
  let bufport ← fniiReadConfig masterport
  return ⟨(bufip ++ List.replicate USERID_VLAUE nul).take USERID_VLAUE, portOf bufport⟩

/-! What the loop finds. -/

def Unclosed (text : Text) : Prop := ∀ front back, text = front ++ '>' :: back → '<' ∉ back

theorem unclosed_cons (c : Char) (rest : Text) : Unclosed (c :: rest) ↔ (c = '>' → '<' ∉ rest) ∧
    Unclosed rest := by
  constructor
  · intro unclosed
    constructor
    · rintro rfl
      exact unclosed [] rest rfl
    · intro front back shape
      exact unclosed (c :: front) back (by rw [shape, List.cons_append])
  · rintro ⟨first, later⟩ front back shape
    cases front with
    | nil =>
        obtain ⟨rfl, rfl⟩ := List.cons.inj shape
        exact first rfl
    | cons d front =>
        obtain ⟨-, shape⟩ := List.cons.inj shape
        exact later front back shape

theorem unclosed_part {text whole : Text} (inside : text <+: whole) (unclosed : Unclosed whole) :
    Unclosed text := by
  obtain ⟨rest, rfl⟩ := inside
  intro front back shape member
  apply unclosed front (back ++ rest)
  · rw [shape, List.append_assoc, List.cons_append]
  · exact List.mem_append_left rest member

theorem search_unclosed (i s : Nat) (before rest : Text) (unclosed : Unclosed before)
    (quiet : s ≠ 0 → '<' ∉ before) : ∃ s',
    search i ⟨s, 0⟩ (before ++ rest) = search (i + before.length) ⟨s', 0⟩ rest := by
  -- up to a tag's end the loop only moves the start of the value
  induction before generalizing i s with
  | nil => exact ⟨s, rfl⟩
  | cons c before ih =>
      obtain ⟨first, later⟩ := (unclosed_cons c before).mp unclosed
      rw [List.cons_append, search]
      by_cases opens : c = '>'
      · have notClose : ¬ c = '<' := by
          rw [opens]
          decide
        obtain ⟨s', same⟩ := ih (i + 1) (i + 1) later fun _ => first opens
        refine ⟨s', ?_⟩
        simp only [opens, and_self, if_true]
        rw [if_neg (by
          rintro ⟨close, -⟩
          exact absurd close (by decide)), same, List.length_cons]
        congr 1
        omega
      · have stays : ¬ (c = '<' ∧ s ≠ 0) := by
          rintro ⟨rfl, started⟩
          exact quiet started List.mem_cons_self
        obtain ⟨s', same⟩ := ih (i + 1) s later fun started inside =>
            quiet started (List.mem_cons_of_mem _ inside)
        refine ⟨s', ?_⟩
        simp only [opens, false_and, if_false]
        rw [if_neg stays, same, List.length_cons]
        congr 1
        omega

theorem search_value (before value after : Text) (unclosed : Unclosed before)
    (plain : '<' ∉ value ∧ '>' ∉ value) :
    search 0 ⟨0, 0⟩ (before ++ '>' :: (value ++ '<' :: after)) =
      ⟨before.length + 1, before.length + 1 + value.length⟩ := by
  -- the value stands between the last `>` and the first `<` behind one
  have inside (value : Text) (i s : Nat) (started : s ≠ 0) (plain : '<' ∉ value ∧ '>' ∉ value) :
      search i ⟨s, 0⟩ (value ++ '<' :: after) = ⟨s, i + value.length⟩ := by
    induction value generalizing i with
    | nil => simp [search, started]
    | cons c value ih =>
        simp only [List.mem_cons, not_or] at plain
        obtain ⟨⟨notClose, closeLater⟩, notOpen, openLater⟩ := plain
        have rest := ih (i + 1) ⟨closeLater, openLater⟩
        rw [List.cons_append, search]
        simp only [Ne.symm notOpen, Ne.symm notClose, false_and, if_false]
        rw [rest, List.length_cons]
        congr 1
        omega
  obtain ⟨s, same⟩ := search_unclosed 0 0 before ('>' :: (value ++ '<' :: after))
      unclosed fun wrong => absurd rfl wrong
  rw [same, search]
  simp only [true_and, if_true, Nat.zero_add]
  rw [if_neg (by
    rintro ⟨close, -⟩
    exact absurd close (by decide)), inside value _ _ (by omega) plain]

theorem search_end (text : Text) (unclosed : Unclosed text) :
    (search 0 ⟨0, 0⟩ text).valueE = 0 := by
  obtain ⟨s, same⟩ := search_unclosed 0 0 text [] unclosed fun wrong => absurd rfl wrong
  rw [List.append_nil] at same
  rw [same]
  rfl

theorem closed_front (text : Text) (closed : ¬ Unclosed text) :
    ∃ opened after, text = opened ++ '<' :: after ∧ Unclosed opened ∧ '>' ∈ opened := by
  -- the part of a text up to the first `<` behind a `>`
  induction text with
  | nil =>
      exfalso
      apply closed
      intro front back shape
      simp at shape
  | cons c rest ih =>
      rw [unclosed_cons] at closed
      by_cases here : c = '>' ∧ '<' ∈ rest
      · obtain ⟨rfl, inside⟩ := here
        obtain ⟨quiet, after, shape, none'⟩ := List.eq_append_cons_of_mem inside
        refine ⟨'>' :: quiet, after, by rw [shape, List.cons_append], ?_, List.mem_cons_self⟩
        intro front back whole member
        have listed : '<' ∈ '>' :: quiet := by
          rw [whole]
          simp [member]
        rcases List.mem_cons.mp listed with wrong | later
        · exact absurd wrong (by decide)
        · exact none' later
      · obtain ⟨opened, after, shape, unclosed, starts⟩ := ih fun later =>
            closed ⟨fun opens inside =>
          here ⟨opens, inside⟩, later⟩
        refine ⟨c :: opened, after, by rw [shape,
          List.cons_append], ?_, List.mem_cons_of_mem _ starts⟩
        rw [unclosed_cons]
        refine ⟨fun opens inside => here ⟨opens, ?_⟩, unclosed⟩
        rw [shape]
        exact List.mem_append_left _ inside

theorem closed_value (text : Text) (closed : ¬ Unclosed text) : ∃ before value after,
    text = before ++ '>' :: (value ++ '<' :: after) ∧ Unclosed before ∧ '<' ∉ value ∧
      '>' ∉ value := by
  obtain ⟨opened, after, shape, unclosed, starts⟩ := closed_front text closed
  -- the last `>` of that part is the first one from its end
  obtain ⟨last, first, reversed, none'⟩ := List.eq_append_cons_of_mem (List.mem_reverse.mpr starts)
  have split : opened = first.reverse ++ '>' :: last.reverse := by
    rw [← List.reverse_reverse opened, reversed]
    simp
  refine ⟨first.reverse, last.reverse, after, ?_, ?_, ?_, ?_⟩
  · rw [shape, split, List.append_assoc, List.cons_append]
  · exact unclosed_part ⟨'>' :: last.reverse, split.symm⟩ unclosed
  · exact unclosed first.reverse last.reverse split
  · rwa [List.mem_reverse]

theorem readConfig_checks (output buffer : Text) (bounds : Bounds) (cut : output.take 63 = buffer)
    (found : search 0 ⟨0, 0⟩ buffer = bounds) : fniiReadConfig (some output) =
      if buffer.length < 17 then none
      else if bounds.valueS = 0 ∨ bounds.valueE = 0 ∨ bounds.valueE < bounds.valueS ∨
          bounds.valueE - bounds.valueS > 32 then none
      else some ((buffer.drop bounds.valueS).take (bounds.valueE - bounds.valueS)) := by
  subst cut found
  rfl

theorem readConfig_short (output : Text) (short : (output.take 63).length < 17) :
    fniiReadConfig (some output) = none := by
  rw [readConfig_checks output _ _ rfl rfl, if_pos short]

theorem readConfig_unclosed (output : Text) (unclosed : Unclosed (output.take 63)) :
    fniiReadConfig (some output) = none := by
  have ends := search_end _ unclosed
  rw [readConfig_checks output _ _ rfl rfl]
  split
  · rfl
  · exact if_pos (.inr (.inl ends))

theorem readConfig_closed (output before value after : Text)
    (shape : output.take 63 = before ++ '>' :: (value ++ '<' :: after)) (unclosed : Unclosed before)
    (plain : '<' ∉ value ∧ '>' ∉ value) (long : 17 ≤ (output.take 63).length) :
    fniiReadConfig (some output) = if value.length ≤ 32 then some value else none := by
  have cut : ((before ++ '>' :: (value ++ '<' :: after)).drop (before.length + 1)).take
      value.length = value := by
    have split : before ++ '>' :: (value ++ '<' :: after) = (before ++ ['>']) ++
        (value ++ '<' :: after) := by simp
    have size : before.length + 1 = (before ++ ['>']).length := by simp
    rw [split, size, List.drop_left, List.take_left]
  have width : before.length + 1 + value.length - (before.length + 1) = value.length := by omega
  have enough : ¬ (before ++ '>' :: (value ++ '<' :: after)).length < 17 := by
    rw [← shape]
    omega
  rw [readConfig_checks output _ _ shape (search_value before value after unclosed plain),
    if_neg enough]
  simp only [width, cut]
  by_cases fits : value.length ≤ 32
  · rw [if_pos fits, if_neg (by omega)]
  · rw [if_neg fits, if_pos (by omega)]

/-- What is read of any output: the value of the first element that is closed in the 63 bytes of the
buffer, if these are 17 at least and the value has no more than 32. -/
theorem readConfig_iff (output value : Text) : fniiReadConfig (some output) = some value ↔
    17 ≤ (output.take 63).length ∧ value.length ≤ 32 ∧ ∃ before after,
      output.take 63 = before ++ '>' :: (value ++ '<' :: after) ∧ Unclosed before ∧ '<' ∉ value ∧
        '>' ∉ value := by
  constructor
  · intro same
    have long : 17 ≤ (output.take 63).length := by
      by_contra short
      rw [readConfig_short output (by omega)] at same
      exact absurd same (by simp)
    have closed : ¬ Unclosed (output.take 63) := by
      intro unclosed
      rw [readConfig_unclosed output unclosed] at same
      exact absurd same (by simp)
    obtain ⟨before, found, after, shape, unclosed, plain⟩ := closed_value _ closed
    rw [readConfig_closed output before found after shape unclosed plain long] at same
    split at same
    · next fits =>
        obtain rfl := Option.some.inj same
        exact ⟨long, fits, before, after, shape, unclosed, plain⟩
    · exact absurd same (by simp)
  · rintro ⟨long, fits, before, after, shape, unclosed, plain⟩
    rw [readConfig_closed output before value after shape unclosed plain long, if_pos fits]

/-! The two lines of a `config.xml`. -/

def masterip : Text := "masterip".toList

def masterport : Text := "masterport".toList

/-- What `grep` prints of an element on a line of its own, behind blanks or a file's name. -/
structure Line where
  lead : Text
  value : Text
  rest : Text
  quiet : '>' ∉ lead
  plain : '<' ∉ value ∧ '>' ∉ value

def Line.opening (line : Line) (tag : Text) : Text := line.lead ++ '<' :: tag

def Line.print (line : Line) (tag : Text) : Text :=
  line.opening tag ++ '>' :: (line.value ++ '<' :: ('/' :: tag ++ '>' :: line.rest))

/-- The end tag starts within the buffer, and the value fits its own. -/
def Line.Fits (line : Line) (tag : Text) : Prop :=
  (line.opening tag).length + 1 + line.value.length < 63 ∧ line.value.length ≤ 32

instance (line : Line) (tag : Text) : Decidable (line.Fits tag) := by
  unfold Line.Fits
  infer_instance

theorem unclosed_value (opening value : Text) (quiet : '>' ∉ opening) (plain : '<' ∉ value) :
    Unclosed (opening ++ '>' :: value) := by
  intro front back shape inside
  induction opening generalizing front with
  | nil =>
      cases front with
      | nil => exact plain ((List.cons.inj shape).2 ▸ inside)
      | cons c front =>
          obtain ⟨-, later⟩ := List.cons.inj shape
          apply plain
          rw [later]
          exact List.mem_append_right _ (List.mem_cons_of_mem _ inside)
  | cons c opening ih =>
      rw [List.mem_cons, not_or] at quiet
      cases front with
      | nil => exact absurd (List.cons.inj shape).1.symm quiet.1
      | cons d front => exact ih quiet.2 front (List.cons.inj shape).2

theorem opening_quiet (line : Line) (tag : Text) (named : '>' ∉ tag) : '>' ∉ line.opening tag := by
  intro inside
  rcases List.mem_append.mp inside with lead | tagged
  · exact line.quiet lead
  · rcases List.mem_cons.mp tagged with wrong | inside
    · exact absurd wrong (by decide)
    · exact named inside

theorem line_read (line : Line) (tag : Text) (named : '>' ∉ tag) (long : 6 ≤ tag.length) :
    fniiReadConfig (some (line.print tag)) = if line.Fits tag then some line.value else none := by
  have quiet := opening_quiet line tag named
  have shape : line.print tag = (line.opening tag ++ '>' :: line.value) ++ '<' ::
      ('/' :: tag ++ '>' :: line.rest) := by
    simp [Line.print]
  by_cases room : (line.opening tag).length + 1 + line.value.length < 63
  · have size : (line.opening tag ++ '>' :: line.value).length = (line.opening tag).length + 1 +
        line.value.length := by
      rw [List.length_append, List.length_cons]
      omega
    have cut : (line.print tag).take 63 = line.opening tag ++ '>' :: (line.value ++ '<' ::
        ('/' :: tag ++ '>' :: line.rest).take
            (62 - ((line.opening tag).length + 1 + line.value.length))) := by
      rw [shape, List.take_append,
        List.take_of_length_le (by omega), size, List.append_assoc, List.cons_append]
      congr 3
      rw [show 63 - ((line.opening tag).length + 1 + line.value.length) =
        62 - ((line.opening tag).length + 1 + line.value.length) + 1 by omega, List.take_succ_cons]
    have enough : 17 ≤ ((line.print tag).take 63).length := by
      rw [List.length_take, shape]
      simp only [Line.opening, List.length_append, List.length_cons] at size ⊢
      omega
    have unclosed : Unclosed (line.opening tag) := by
      intro front back split _
      exact quiet (split ▸ List.mem_append_right _ List.mem_cons_self)
    rw [readConfig_closed _ _ _ _ cut unclosed line.plain enough]
    simp only [Line.Fits, room, true_and]
  · have inside : (line.print tag).take 63 <+: line.opening tag ++ '>' :: line.value := by
      rw [shape, List.take_append_of_le_length (by
        rw [List.length_append, List.length_cons]
        omega)]
      exact List.take_prefix _ _
    rw [readConfig_unclosed _ (unclosed_part inside (unclosed_value _ _ quiet line.plain.1)),
      if_neg fun fits => room fits.1]

theorem portOf_printed (number : Nat) (small : number < 2 ^ 31) :
    portOf (zeroPad 1 number) = some ((number : Int).bmod (2 ^ 16)) := by
  have digits := (Nat.length_toDigits_le_iff (b := 10) (n := number)
      (by decide) (by decide : 0 < 10)).mpr (by omega)
  have short : (zeroPad 1 number).length < 32 := by
    have notNegative : ¬ (number : Int) < 0 := by omega
    rw [zeroPad, if_neg notNegative, List.length_append, List.length_replicate, Int.natAbs_natCast]
    omega
  have read := atoi_digits (zeroPad 1 number) number (zeroPad_digitsValue 1 number)
  rw [portOf, read, if_pos ⟨short, by omega, by omega⟩]

/-- A printed host and port are taken together, exactly when both lines fit; the port wraps to 16
bits. -/
theorem connect_info_lines (host port : Line) (number : Nat) (small : number < 2 ^ 31)
    (same : port.value = zeroPad 1 number) :
    fniiGetMasterConnectInfo (some (host.print masterip)) (some (port.print masterport)) =
      if host.Fits masterip ∧ port.Fits masterport then
        some ⟨(host.value ++ List.replicate 32 nul).take 32, some ((number : Int).bmod (2 ^ 16))⟩
      else none := by
  have named : '>' ∉ masterip ∧ '>' ∉ masterport := by decide
  have long : 6 ≤ masterip.length ∧ 6 ≤ masterport.length := by decide
  simp only [fniiGetMasterConnectInfo, line_read host masterip named.1 long.1,
    line_read port masterport named.2 long.2]
  by_cases first : host.Fits masterip
  · by_cases second : port.Fits masterport
    · simp [first, second, same, portOf_printed number small, USERID_VLAUE]
    · simp [first, second]
  · simp [first]

def siteHost : Line :=
  ⟨"        ".toList, "10.24.0.99".toList, ['\n'], by decide, by decide⟩

def sitePort : Line :=
  ⟨"        ".toList, "8888".toList, "    \n".toList, by decide, by decide⟩

theorem connect_info_lines_site :
    fniiGetMasterConnectInfo (some (siteHost.print masterip)) (some (sitePort.print masterport)) =
      some ⟨("10.24.0.99".toList ++ List.replicate 32 nul).take 32, some 8888⟩ := by
  have both : siteHost.Fits masterip ∧ sitePort.Fits masterport := by decide
  rw [connect_info_lines siteHost sitePort 8888 (by decide) (by decide), if_pos both]
  rfl

end LazyAS.MasterAddress

import LazyAS.DualBandAccessControl
import LazyAS.Runs

/-! The runs of `DualBandAccessControl.handle`. What an entry holds is a function of the probes
that came in since the last removal: the first one of each band, and the decision on these two
once both are there. -/
namespace LazyAS.BandDecision
open WireText Runs DualBandAccessControl
open DecisionTree (TreeNode NodeInfo relationHolds)

/-- A message for `handle`. `ssid` is the first SSID of the agent that sent the probe. -/
inductive Event where
  | probe (msg : ProbeInfoMessage) (ssid : Option Text)
  | del (staMacAddr : Text)

def next (tree : TreeNode) (descMap : DescMap) : Event → DescMap
  | .probe msg ssid => (handleProbe tree ssid descMap msg).descMap
  | .del staMacAddr => handleDel descMap staMacAddr

def noEntries : DescMap := fun _ => none

/-- The probes of a station since its entry was removed. -/
def since (staMacAddr : Text) (events : List Event) : List ProbeInfoMessage :=
  events.foldl (fun probes event => match event with
    | .probe msg _ => if msg.staMacAddr = staMacAddr then probes ++ [msg] else probes
    | .del gone => if gone = staMacAddr then [] else probes) []

def band (msg : ProbeInfoMessage) : Fin 2 := if msg.channel < 36 then 0 else 1

def first (probes : List ProbeInfoMessage) (b : Fin 2) : Option ProbeInfo :=
  (probes.find? fun msg => band msg = b).map ProbeInfoMessage.info

/-- The first probes of both bands, not decided yet. -/
def recorded (probes : List ProbeInfoMessage) : ProbeDeci := { probeInfos := first probes }

def both (probes : List ProbeInfoMessage) : Bool :=
  (first probes 0).isSome && (first probes 1).isSome

def label (tree : TreeNode) (probes : List ProbeInfoMessage) : Int :=
  (doDecision (recorded probes) tree).getD (-1)

def withFlag (deci : ProbeDeci) (label : Int) : ProbeDeci := { deci with flag := label }

def decided (tree : TreeNode) (probes : List ProbeInfoMessage) : ProbeDeci :=
  withFlag (recorded probes) (label tree probes)

/-- What the entry should be: the label is stored as soon as both bands have reported. -/
def entryOf (tree : TreeNode) (probes : List ProbeInfoMessage) : Option ProbeDeci :=
  if probes = [] then none else if both probes then some (decided tree probes)
    else some (recorded probes)

def pending (tree : TreeNode) (probes : List ProbeInfoMessage) : Bool :=
  !both probes || label tree probes = -1

def Placed (msg : ProbeInfoMessage) : Prop := -36 < msg.channel ∧ msg.channel < 72

def Descends (deci : ProbeDeci) : TreeNode → Prop
  | .null => False
  | .node .null _ _ => True
  | .node (.node a b test) right _ => ∀ value, curValCon deci test.condition = some value →
      if relationHolds test.relation value test.valueCon then Descends deci (.node a b test)
      else Descends deci right

/-! The array. -/

def other (b : Fin 2) : Fin 2 := 1 - b

theorem slot_placed (msg : ProbeInfoMessage) (placed : Placed msg) :
    slot (msg.channel.tdiv 36) = some (band msg) ∧
      slot (1 - msg.channel.tdiv 36) = some (other (band msg)) := by
  unfold Placed at placed
  unfold band
  by_cases low : msg.channel < 36
  · have zero : msg.channel.tdiv 36 = 0 := by
      by_cases negative : msg.channel < 0
      · have magnitude := Int.neg_tdiv msg.channel 36
        rw [Int.tdiv_eq_ediv_of_nonneg (by omega)] at magnitude
        omega
      · rw [Int.tdiv_eq_ediv_of_nonneg (by omega)]
        omega
    rw [zero, if_pos low]
    exact ⟨rfl, rfl⟩
  · have one : msg.channel.tdiv 36 = 1 := by
      rw [Int.tdiv_eq_ediv_of_nonneg (by omega)]
      omega
    rw [one, if_neg low]
    exact ⟨rfl, rfl⟩

theorem slot_unplaced (msg : ProbeInfoMessage) (unplaced : ¬ Placed msg) :
    slot (msg.channel.tdiv 36) = none := by
  unfold Placed at unplaced
  unfold slot
  by_cases high : 72 ≤ msg.channel
  · have far : 1 < msg.channel.tdiv 36 := by
      rw [Int.tdiv_eq_ediv_of_nonneg (by omega)]
      omega
    rw [if_neg (by omega), if_neg (by omega)]
  · have negative : msg.channel.tdiv 36 < 0 := by
      have magnitude := Int.neg_tdiv msg.channel 36
      rw [Int.tdiv_eq_ediv_of_nonneg (by omega)] at magnitude
      omega
    rw [if_neg (by omega), if_neg (by omega)]

theorem other_ne : ∀ b, other b ≠ b := by decide

theorem either_band : ∀ b c : Fin 2, c = b ∨ c = other b := by decide

theorem both_iff (probes : List ProbeInfoMessage) (b : Fin 2) :
    both probes = true ↔ first probes b ≠ none ∧ first probes (other b) ≠ none := by
  unfold both
  rw [Bool.and_eq_true, Option.isSome_iff_ne_none, Option.isSome_iff_ne_none]
  rcases either_band 0 b with low | high
  · rw [low]
    exact Iff.rfl
  · rw [high, and_comm]
    exact Iff.rfl

theorem both_all (probes : List ProbeInfoMessage) (complete : both probes = true) (b : Fin 2) :
    first probes b ≠ none := ((both_iff probes b).mp complete).1

/-! The decision. -/

theorem filled_both (deci : ProbeDeci) (filled : ∀ b, deci.probeInfos b ≠ none) :
    ∃ info24 info5, deci.probeInfos 0 = some info24 ∧ deci.probeInfos 1 = some info5 := by
  have low := Option.ne_none_iff_exists'.mp (filled 0)
  have high := Option.ne_none_iff_exists'.mp (filled 1)
  cases low with
  | intro info24 heard24 =>
      cases high with
      | intro info5 heard5 => exact ⟨info24, info5, heard24, heard5⟩

theorem curValCon_both (deci : ProbeDeci) (filled : ∀ b, deci.probeInfos b ≠ none)
    (condition : Text) :
    ∃ value, curValCon deci condition = some value := by
  obtain ⟨info24, info5, heard24, heard5⟩ := filled_both deci filled
  unfold curValCon
  rw [heard24, heard5]
  split_ifs <;> exact ⟨_, rfl⟩

theorem doDecision_descends (deci : ProbeDeci) (filled : ∀ b, deci.probeInfos b ≠ none)
    (tree : TreeNode) :
    doDecision deci tree ≠ none ↔ Descends deci tree := by
  -- the induction over the tree: the decision fails only at a missing node
  induction tree with
  | null => simp [doDecision, Descends]
  | node left right info leftIh rightIh =>
      cases left with
      | null => simp [doDecision, Descends]
      | node a b test =>
          cases curValCon_both deci filled test.condition with
          | intro value read =>
              simp only [doDecision, Descends, read, Option.bind_some, Option.some.injEq,
                forall_eq']
              split_ifs
              · exact leftIh
              · exact rightIh

theorem assign_some (deci : ProbeDeci) (filled : ∀ b, deci.probeInfos b ≠ none)
    (msg : ProbeInfoMessage) (ssid : Option Text) : assign deci msg ssid ≠ none ↔ ssid ≠ none := by
  obtain ⟨info24, info5, heard24, heard5⟩ := filled_both deci filled
  unfold assign
  rw [heard24, heard5]
  cases ssid <;> by_cases flag : deci.flag = 0 <;> simp [flag]

/-! One probe. -/

def withProbe (deci : ProbeDeci) (msg : ProbeInfoMessage) : ProbeDeci :=
  if deci.probeInfos (band msg) = none then store deci (band msg) msg.info else deci

/-- What `handle` needs of the state before it to return: a place for the band, unless the station
is decided, and where both bands are there a descent without a missing node and an SSID. -/
def Fits (tree : TreeNode) (descMap : DescMap) : Event → Prop
  | .del _ => True
  | .probe msg ssid =>
      match descMap msg.staMacAddr with
      | none => Placed msg
      | some deci => deci.flag = -1 → Placed msg ∧
          (deci.probeInfos (other (band msg)) ≠ none → Descends (withProbe deci msg) tree ∧
            ssid ≠ none)

def Returns (tree : TreeNode) (descMap : DescMap) : Event → Prop
  | .del _ => True
  | .probe msg ssid => (handleProbe tree ssid descMap msg).returned = true

theorem fits_entry (tree : TreeNode) (descMap : DescMap) (msg : ProbeInfoMessage)
    (ssid : Option Text) (deci : ProbeDeci) (entry : descMap msg.staMacAddr = some deci) :
    Fits tree descMap (.probe msg ssid) ↔ (deci.flag = -1 → Placed msg ∧
      (deci.probeInfos (other (band msg)) ≠ none → Descends (withProbe deci msg) tree ∧
        ssid ≠ none)) := by
  simp only [Fits, entry]

theorem withProbe_other (deci : ProbeDeci) (msg : ProbeInfoMessage) :
    (withProbe deci msg).probeInfos (other (band msg)) = deci.probeInfos (other (band msg)) := by
  unfold withProbe store
  split
  · exact Function.update_of_ne (other_ne _) _ _
  · rfl

theorem withProbe_own (deci : ProbeDeci) (msg : ProbeInfoMessage) :
    (withProbe deci msg).probeInfos (band msg) ≠ none := by
  unfold withProbe store
  split
  · simp
  · assumption

theorem withProbe_flag (deci : ProbeDeci) (msg : ProbeInfoMessage) :
    (withProbe deci msg).flag = deci.flag := by
  unfold withProbe store
  split <;> rfl

theorem withProbe_filled (deci : ProbeDeci) (msg : ProbeInfoMessage)
    (present : deci.probeInfos (other (band msg)) ≠ none) (b : Fin 2) :
    (withProbe deci msg).probeInfos b ≠ none := by
  rcases either_band (band msg) b with own | apart
  · rw [own]
    exact withProbe_own deci msg
  · rw [apart, withProbe_other]
    exact present

theorem handle_pending (tree : TreeNode) (ssid : Option Text) (descMap : DescMap)
    (msg : ProbeInfoMessage) (deci : ProbeDeci) (entry : descMap msg.staMacAddr = some deci)
    (undecided : deci.flag = -1) (placed : Placed msg) :
    handleProbe tree ssid descMap msg =
      if deci.probeInfos (other (band msg)) = none then
        { descMap := Function.update descMap msg.staMacAddr (some (withProbe deci msg)) }
      else match doDecision (withProbe deci msg) tree with
        | none => { descMap := Function.update descMap msg.staMacAddr (some (withProbe deci msg)),
                    returned := false }
        | some label =>
            let done := Function.update descMap msg.staMacAddr
                (some (withFlag (withProbe deci msg) label))
            match assign (withFlag (withProbe deci msg) label) msg ssid with
            | none => { descMap := done, returned := false }
            | some call => { descMap := done, calls := [call] } := by
  have places := slot_placed msg placed
  unfold handleProbe
  simp only [entry, undecided, ne_eq, not_true_eq_false, if_false, places.1, places.2]
  change (if (withProbe deci msg).probeInfos (other (band msg)) = none then _ else _) = _
  rw [withProbe_other]
  rfl

theorem returns_iff (tree : TreeNode) (descMap : DescMap) (event : Event) :
    Returns tree descMap event ↔ Fits tree descMap event := by
  cases event with
  | del gone => exact Iff.rfl
  | probe msg ssid =>
      unfold Returns Fits
      cases entry : descMap msg.staMacAddr with
      | none =>
          by_cases placed : Placed msg
          · simp [handleProbe, entry, slot_placed msg placed, placed]
          · simp [handleProbe, entry, slot_unplaced msg placed, placed]
      | some deci =>
          dsimp only
          by_cases undecided : deci.flag = -1
          · by_cases placed : Placed msg
            · rw [handle_pending tree ssid descMap msg deci entry undecided placed]
              by_cases absent : deci.probeInfos (other (band msg)) = none
              · simp [entry, absent, placed, undecided]
              · have filled := withProbe_filled deci msg absent
                have descends := doDecision_descends (withProbe deci msg) filled tree
                rw [if_neg absent]
                cases decision : doDecision (withProbe deci msg) tree with
                | none =>
                    have missing : ¬ Descends (withProbe deci msg) tree := by simpa [decision]
                        using descends
                    simp [entry, absent, undecided, missing]
                | some label =>
                    have complete : Descends (withProbe deci msg) tree := by simpa [decision]
                        using descends
                    have named := assign_some (withFlag (withProbe deci msg) label) filled msg ssid
                    cases call : assign (withFlag (withProbe deci msg) label) msg ssid with
                    | none =>
                        have unnamed : ssid = none := by simpa [call] using named
                        simp only [call]
                        simp [entry, absent, undecided, unnamed]
                    | some call' =>
                        have present : ssid ≠ none := by simpa [call] using named
                        simp [entry, call, placed, undecided, complete, present]
            · simp [handleProbe, entry, slot_unplaced msg placed, undecided, placed]
          · simp [handleProbe, entry, undecided]

/-! The entry after some probes. -/

theorem first_append (probes : List ProbeInfoMessage) (msg : ProbeInfoMessage) (b : Fin 2) :
    first (probes ++ [msg]) b = if first probes b = none ∧ band msg = b then some msg.info
      else first probes b := by
  unfold first
  rw [List.find?_append]
  cases earlier : probes.find? fun msg => band msg = b with
  | some found => simp
  | none =>
      by_cases own : band msg = b
      · simp [own]
      · simp [own]

theorem recorded_append (probes : List ProbeInfoMessage) (msg : ProbeInfoMessage) :
    recorded (probes ++ [msg]) = withProbe (recorded probes) msg := by
  have slots : first (probes ++ [msg]) = (withProbe (recorded probes) msg).probeInfos := by
    funext b
    rw [first_append]
    unfold withProbe store recorded
    by_cases absent : first probes (band msg) = none
    · by_cases own : band msg = b
      · subst own
        simp [absent]
      · simp [absent, own, Function.update_of_ne (Ne.symm own)]
    · by_cases own : band msg = b
      · subst own
        simp [absent]
      · simp [absent, own]
  have flags : (withProbe (recorded probes) msg).flag = -1 := withProbe_flag _ _
  unfold recorded at *
  rw [slots]
  cases shape : withProbe { probeInfos := first probes } msg with
  | mk flag probeInfos =>
      rw [shape] at flags
      rw [← flags]

theorem first_kept (probes : List ProbeInfoMessage) (msg : ProbeInfoMessage)
    (complete : both probes = true) :
    first (probes ++ [msg]) = first probes := by
  funext b
  rw [first_append, if_neg]
  intro absent
  exact both_all probes complete b absent.1

theorem recorded_decided (tree : TreeNode) (probes : List ProbeInfoMessage)
    (untaken : label tree probes = -1) :
    decided tree probes = recorded probes := by
  unfold decided withFlag
  rw [untaken]
  rfl

theorem entry_pending (tree : TreeNode) (probes : List ProbeInfoMessage) (some_probe : probes ≠ [])
    (open_entry : pending tree probes = true) : entryOf tree probes = some (recorded probes) := by
  unfold entryOf
  rw [if_neg some_probe]
  by_cases complete : both probes = true
  · have untaken : label tree probes = -1 := by simpa [pending, complete] using open_entry
    rw [if_pos complete, recorded_decided tree probes untaken]
  · rw [if_neg complete]

theorem entry_taken (tree : TreeNode) (probes : List ProbeInfoMessage) (some_probe : probes ≠ [])
    (closed : pending tree probes = false) :
    entryOf tree probes = some (decided tree probes) ∧ label tree probes ≠ -1 ∧
      both probes = true := by
  simp only [pending, Bool.or_eq_false_iff, Bool.not_eq_false', decide_eq_false_iff_not] at closed
  unfold entryOf
  rw [if_neg some_probe, if_pos closed.1]
  exact ⟨rfl, closed.2, closed.1⟩

def callOf (tree : TreeNode) (probes : List ProbeInfoMessage) (msg : ProbeInfoMessage)
    (ssid : Option Text) :
    List AddVap :=
  if pending tree probes && both (probes ++ [msg]) then
    (assign (decided tree (probes ++ [msg])) msg ssid).toList
  else []

def Advances (tree : TreeNode) (ssid : Option Text) (descMap : DescMap) (msg : ProbeInfoMessage)
    (probes : List ProbeInfoMessage) : Prop :=
  (handleProbe tree ssid descMap msg).descMap =
      Function.update descMap msg.staMacAddr (entryOf tree (probes ++ [msg])) ∧
    (handleProbe tree ssid descMap msg).calls = callOf tree probes msg ssid

theorem first_advances (tree : TreeNode) (ssid : Option Text) (descMap : DescMap)
    (msg : ProbeInfoMessage) (entry : descMap msg.staMacAddr = none) (placed : Placed msg) :
    Advances tree ssid descMap msg [] := by
  have handled : handleProbe tree ssid descMap msg =
      { descMap := Function.update descMap msg.staMacAddr (some (store {} (band msg) msg.info))
          } := by
    simp [handleProbe, entry, slot_placed msg placed]
  have alone : both [msg] = false := by
    rw [← Bool.not_eq_true, both_iff [msg] (other (band msg))]
    intro complete
    apply complete.1
    rw [← List.nil_append [msg], first_append, if_neg]
    · rfl
    · intro own
      exact other_ne (band msg) own.2.symm
  have stored : recorded [msg] = store {} (band msg) msg.info := by
    rw [← List.nil_append [msg], recorded_append, withProbe]
    exact if_pos rfl
  unfold Advances callOf entryOf
  rw [handled, List.nil_append, if_neg (List.cons_ne_nil _ _), alone, stored]
  simp

theorem complete_iff (probes : List ProbeInfoMessage) (msg : ProbeInfoMessage) :
    both (probes ++ [msg]) = true ↔ first probes (other (band msg)) ≠ none := by
  have own := withProbe_own (recorded probes) msg
  have apart := withProbe_other (recorded probes) msg
  rw [← recorded_append] at own apart
  change first (probes ++ [msg]) (other (band msg)) = first probes (other (band msg)) at apart
  rw [both_iff _ (band msg), apart]
  exact and_iff_right own

theorem open_advances (tree : TreeNode) (ssid : Option Text) (descMap : DescMap)
    (msg : ProbeInfoMessage) (probes : List ProbeInfoMessage)
    (entry : descMap msg.staMacAddr = some (recorded probes))
    (open_entry : pending tree probes = true) (fits : Fits tree descMap (.probe msg ssid)) :
    Advances tree ssid descMap msg probes := by
  -- a probe for an open entry decides it if the other band is there
  have needed := (fits_entry tree descMap msg ssid _ entry).mp fits rfl
  have grown : ¬ probes ++ [msg] = [] := by simp
  unfold Advances callOf entryOf
  rw [handle_pending tree ssid descMap msg _ entry rfl needed.1, ← recorded_append, open_entry,
    Bool.true_and, if_neg grown]
  by_cases absent : first probes (other (band msg)) = none
  · have single : ¬ both (probes ++ [msg]) = true := by simpa [absent] using complete_iff probes msg
    rw [if_pos (show (recorded probes).probeInfos (other (band msg)) = none from absent),
      if_neg single, if_neg single]
    exact ⟨rfl, rfl⟩
  · have complete := (complete_iff probes msg).mpr absent
    have ready := needed.2 absent
    rw [← recorded_append] at ready
    have filled : ∀ b, (recorded (probes ++ [msg])).probeInfos b ≠ none := both_all _ complete
    rw [if_neg (show ¬ (recorded probes).probeInfos (other (band msg)) = none from absent),
      if_pos complete, if_pos complete]
    have reached := (doDecision_descends _ filled tree).mpr ready.1
    cases decision : doDecision (recorded (probes ++ [msg])) tree with
    | none => exact absurd decision reached
    | some leaf =>
        have same : withFlag (recorded (probes ++ [msg])) leaf =
            decided tree (probes ++ [msg]) := by
          rw [decided, label, decision, Option.getD_some]
        dsimp only
        rw [same]
        have named := (assign_some (decided tree (probes ++ [msg])) filled msg ssid).mpr ready.2
        cases call : assign (decided tree (probes ++ [msg])) msg ssid with
        | none => exact absurd call named
        | some call' => exact ⟨rfl, rfl⟩

theorem taken_advances (tree : TreeNode) (ssid : Option Text) (descMap : DescMap)
    (msg : ProbeInfoMessage) (probes : List ProbeInfoMessage)
    (entry : descMap msg.staMacAddr = some (decided tree probes))
    (closed : pending tree probes = false) (taken : label tree probes ≠ -1)
    (complete : both probes = true) :
    Advances tree ssid descMap msg probes := by
  have ignored : handleProbe tree ssid descMap msg = { descMap := descMap } := by
    unfold handleProbe
    rw [entry]
    exact if_pos taken
  have firsts := first_kept probes msg complete
  have still : both (probes ++ [msg]) = true := by
    unfold both
    rw [firsts]
    exact complete
  have kept : recorded (probes ++ [msg]) = recorded probes := by
    unfold recorded
    rw [firsts]
  have same : entryOf tree (probes ++ [msg]) = some (decided tree probes) := by
    unfold entryOf decided label
    rw [if_neg (by simp), if_pos still, kept]
  unfold Advances callOf
  rw [ignored, same, ← entry, Function.update_eq_self, closed]
  exact ⟨rfl, rfl⟩

theorem handle_advances (tree : TreeNode) (ssid : Option Text) (descMap : DescMap)
    (msg : ProbeInfoMessage) (probes : List ProbeInfoMessage)
    (entry : descMap msg.staMacAddr = entryOf tree probes)
    (fits : Fits tree descMap (.probe msg ssid)) : Advances tree ssid descMap msg probes := by
  by_cases none_yet : probes = []
  · subst none_yet
    have absent : descMap msg.staMacAddr = none := entry
    apply first_advances tree ssid descMap msg absent
    simpa [Fits, absent] using fits
  · cases closed : pending tree probes with
    | true =>
        rw [entry_pending tree probes none_yet closed] at entry
        exact open_advances tree ssid descMap msg probes entry closed fits
    | false =>
        have taken := entry_taken tree probes none_yet closed
        rw [taken.1] at entry
        exact taken_advances tree ssid descMap msg probes entry closed taken.2.1 taken.2.2

/-! Runs. -/

theorem since_probe (staMacAddr : Text) (events : List Event) (msg : ProbeInfoMessage)
    (ssid : Option Text) :
    since staMacAddr (events ++ [.probe msg ssid]) =
      if msg.staMacAddr = staMacAddr then since staMacAddr events ++ [msg]
        else since staMacAddr events := by
  unfold since
  rw [List.foldl_append]
  rfl

theorem since_del (staMacAddr : Text) (events : List Event) (gone : Text) :
    since staMacAddr (events ++ [.del gone]) = if gone = staMacAddr then []
      else since staMacAddr events := by
  unfold since
  rw [List.foldl_append]
  rfl

def Follows (tree : TreeNode) (events : List Event) : Prop :=
  ∀ staMacAddr, run (next tree) noEntries events staMacAddr = entryOf tree (since staMacAddr events)

theorem follows_step (tree : TreeNode) (events : List Event) (event : Event)
    (follows : Follows tree events) (fits : Fits tree (run (next tree) noEntries events) event) :
    Follows tree (events ++ [event]) := by
  intro staMacAddr
  rw [run, List.foldl_append, List.foldl_cons, List.foldl_nil]
  change next tree (run (next tree) noEntries events) event staMacAddr = _
  cases event with
  | del gone =>
      change handleDel (run (next tree) noEntries events) gone staMacAddr = _
      rw [since_del, handleDel]
      by_cases own : gone = staMacAddr
      · rw [if_pos own, own, Function.update_self]
        rfl
      · rw [if_neg own, Function.update_of_ne (Ne.symm own)]
        exact follows staMacAddr
  | probe msg ssid =>
      change (handleProbe tree ssid (run (next tree) noEntries events) msg).descMap staMacAddr = _
      rw [since_probe, (handle_advances tree ssid _ msg _ (follows msg.staMacAddr) fits).1]
      by_cases own : msg.staMacAddr = staMacAddr
      · rw [if_pos own, ← own, Function.update_self]
      · rw [if_neg own, Function.update_of_ne (Ne.symm own)]
        exact follows staMacAddr

end LazyAS.BandDecision

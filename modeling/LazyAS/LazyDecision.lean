import LazyAS.DecisionRuns

/-! One decision for every station between two removals of its entry: it is taken with the first
probe of the second band to report, on the first probe of each band. -/
namespace LazyAS.LazyDecision
open WireText Runs DualBandAccessControl BandDecision DecisionRuns
open DecisionTree (TreeNode NodeInfo)

/-- The entries with the calls that were made for every station since its entry was removed. -/
structure Log where
  descMap : DescMap
  calls : Text → List AddVap

def Log.next (tree : TreeNode) (log : Log) : Event → Log
  | .probe msg ssid =>
      let handled := handleProbe tree ssid log.descMap msg
      { descMap := handled.descMap
        calls := Function.update log.calls msg.staMacAddr
          (log.calls msg.staMacAddr ++ handled.calls) }
  | .del gone => { descMap := handleDel log.descMap gone,
                   calls := Function.update log.calls gone [] }

def logOf (tree : TreeNode) (events : List Event) : Log :=
  run (Log.next tree) ⟨noEntries, fun _ => []⟩ events

/-- All inner nodes have two children and the leaves are labelled 0, 1 or 2. -/
def Full : TreeNode → Prop
  | .null => False
  | .node .null .null info => info.leaf = 0 ∨ info.leaf = 1 ∨ info.leaf = 2
  | .node left right _ => Full left ∧ Full right

/-- The probe is the first of its band, and the other band has reported. -/
def Completes (earlier : List ProbeInfoMessage) (msg : ProbeInfoMessage) : Prop :=
  earlier ≠ [] ∧ ∀ probe ∈ earlier, band probe ≠ band msg

instance (earlier : List ProbeInfoMessage) (msg : ProbeInfoMessage) :
    Decidable (Completes earlier msg) :=
  inferInstanceAs (Decidable (_ ∧ _))

def callFor (label : Int) (info24 info5 : ProbeInfo) (staMacAddr ssid : Text) : AddVap :=
  if label = 0 then ⟨info24.agent, staMacAddr, NET_2_4G, ssid⟩
    else ⟨info5.agent, staMacAddr, NET_5G, ssid⟩

/-- The calls that handling this probe makes are the ones that are due. -/
def Due (tree : TreeNode) (earlier : List ProbeInfoMessage) (msg : ProbeInfoMessage)
    (ssid : Option Text) (calls : List AddVap) : Prop :=
  if Completes earlier msg then
    ∃ label info24 info5 name, ssid = some name ∧
      first (earlier ++ [msg]) 0 = some info24 ∧ first (earlier ++ [msg]) 1 = some info5 ∧
      doDecision (recorded (earlier ++ [msg])) tree = some label ∧
      calls = [callFor label info24 info5 msg.staMacAddr name]
  else calls = []

/-! The trees. -/

theorem full_node (left right : TreeNode) (info : NodeInfo) (full : Full (.node left right info)) :
    left = .null ∧ right = .null ∧ (info.leaf = 0 ∨ info.leaf = 1 ∨ info.leaf = 2) ∨
      Full left ∧ Full right := by
  cases left with
  | null =>
      cases right with
      | null => exact Or.inl ⟨rfl, rfl, full⟩
      | node => exact False.elim full.1
  | node => exact Or.inr full

theorem full_descends (tree : TreeNode) (full : Full tree) (deci : ProbeDeci) :
    Descends deci tree := by
  induction tree with
  | null => exact full
  | node left right info leftIh rightIh =>
      cases left with
      | null => trivial
      | node a b test =>
          rcases full_node _ right info full with leaf | inner
          · exact absurd leaf.1 (by simp)
          · intro value _
            split
            · exact leftIh inner.1
            · exact rightIh inner.2

theorem full_label (tree : TreeNode) (full : Full tree) (deci : ProbeDeci) (label : Int)
    (decision : doDecision deci tree = some label) : label = 0 ∨ label = 1 ∨ label = 2 := by
  induction tree with
  | null => exact False.elim full
  | node left right info leftIh rightIh =>
      rcases full_node left right info full with leaf | inner
      · rw [leaf.1, doDecision, Option.some.injEq] at decision
        exact decision ▸ leaf.2.2
      · cases left with
        | null => exact False.elim inner.1
        | node a b test =>
            rw [doDecision] at decision
            cases read : curValCon deci test.condition with
            | none => simp [read] at decision
            | some value =>
                rw [read, Option.bind_some] at decision
                split at decision
                · exact leftIh inner.1 decision
                · exact rightIh inner.2 decision

/-! One step. -/

theorem first_none (probes : List ProbeInfoMessage) (b : Fin 2) :
    first probes b = none ↔ ∀ probe ∈ probes, band probe ≠ b := by
  unfold first
  rw [Option.map_eq_none_iff, List.find?_eq_none]
  simp

theorem pending_full (tree : TreeNode) (full : Full tree) (probes : List ProbeInfoMessage) :
    pending tree probes = !both probes := by
  unfold pending
  cases complete : both probes with
  | false => rfl
  | true =>
      have filled : ∀ b, (recorded probes).probeInfos b ≠ none := both_all probes complete
      have reached := (doDecision_descends (recorded probes) filled tree).mpr
          (full_descends tree full _)
      cases decision : doDecision (recorded probes) tree with
      | none => exact absurd decision reached
      | some leaf =>
          have named := full_label tree full _ leaf decision
          have taken : label tree probes = leaf := by rw [label, decision, Option.getD_some]
          have apart : ¬ leaf = -1 := by omega
          simp [taken, apart]

theorem completes_iff (earlier : List ProbeInfoMessage) (msg : ProbeInfoMessage) :
    Completes earlier msg ↔ both earlier = false ∧ both (earlier ++ [msg]) = true := by
  rw [complete_iff, ← Bool.not_eq_true, both_iff earlier (band msg)]
  unfold Completes
  rw [← first_none earlier (band msg)]
  constructor
  · intro completes
    have another : first earlier (other (band msg)) ≠ none := by
      intro absent
      rw [first_none] at absent
      cases earlier with
      | nil => exact completes.1 rfl
      | cons probe rest =>
          have own := (first_none _ _).mp completes.2 probe List.mem_cons_self
          rcases either_band (band msg) (band probe) with same | apart
          · exact own same
          · exact absent probe List.mem_cons_self apart
    exact ⟨fun present => present.1 completes.2, another⟩
  · intro parts
    constructor
    · rintro rfl
      exact parts.2 rfl
    · by_contra present
      exact parts.1 ⟨present, parts.2⟩

theorem assign_call (tree : TreeNode) (probes : List ProbeInfoMessage) (msg : ProbeInfoMessage)
    (name : Text) (info24 info5 : ProbeInfo) (low : first probes 0 = some info24)
    (high : first probes 1 = some info5) :
    assign (decided tree probes) msg (some name) =
      some (callFor (label tree probes) info24 info5 msg.staMacAddr name) := by
  have slot24 : (decided tree probes).probeInfos 0 = some info24 := low
  have slot5 : (decided tree probes).probeInfos 1 = some info5 := high
  have flag : (decided tree probes).flag = label tree probes := rfl
  unfold assign callFor
  rw [slot24, slot5, flag]
  by_cases zero : label tree probes = 0
  · simp [zero]
  · simp [zero]

theorem callOf_due (tree : TreeNode) (full : Full tree) (earlier : List ProbeInfoMessage)
    (msg : ProbeInfoMessage) (ssid : Option Text) (served : ssid ≠ none) :
    Due tree earlier msg ssid (callOf tree earlier msg ssid) := by
  unfold Due callOf
  rw [pending_full tree full]
  by_cases completes : Completes earlier msg
  · have parts := (completes_iff earlier msg).mp completes
    rw [if_pos completes, parts.1, parts.2, if_pos (by rfl)]
    have filled := both_all _ parts.2
    have reached := (doDecision_descends (recorded (earlier ++ [msg])) filled tree).mpr
      (full_descends tree full _)
    cases named : ssid with
    | none => exact absurd named served
    | some name =>
        cases low : first (earlier ++ [msg]) 0 with
        | none => exact absurd low (filled 0)
        | some info24 =>
            cases high : first (earlier ++ [msg]) 1 with
            | none => exact absurd high (filled 1)
            | some info5 =>
                cases decision : doDecision (recorded (earlier ++ [msg])) tree with
                | none => exact absurd decision reached
                | some leaf =>
                    refine ⟨leaf, info24, info5, name, rfl, rfl, rfl, rfl, ?_⟩
                    rw [assign_call tree _ msg name info24 info5 low high, label, decision]
                    rfl
  · rw [if_neg completes, if_neg]
    intro due
    rw [Bool.and_eq_true, Bool.not_eq_true'] at due
    exact completes ((completes_iff earlier msg).mpr due)

theorem due_length (tree : TreeNode) (earlier : List ProbeInfoMessage) (msg : ProbeInfoMessage)
    (ssid : Option Text) (calls : List AddVap) (due : Due tree earlier msg ssid calls) :
    calls.length = if Completes earlier msg then 1 else 0 := by
  unfold Due at due
  split_ifs at due ⊢
  · obtain ⟨_, _, _, _, _, _, _, _, call⟩ := due
    rw [call]
    rfl
  · rw [due]
    rfl

/-! Runs. -/

theorem log_descMap (tree : TreeNode) (events : List Event) :
    (logOf tree events).descMap = run (next tree) noEntries events := by
  unfold logOf run
  generalize noEntries = descMap
  generalize (fun _ => [] : Text → List AddVap) = calls
  induction events generalizing descMap calls with
  | nil => rfl
  | cons event events ih =>
      rw [List.foldl_cons, List.foldl_cons]
      cases event with
      | probe msg ssid => exact ih _ _
      | del gone => exact ih _ _

theorem full_fits (tree : TreeNode) (full : Full tree) (descMap : DescMap) (msg : ProbeInfoMessage)
    (ssid : Option Text) (placed : Placed msg) (served : ssid ≠ none) :
    Fits tree descMap (.probe msg ssid) := by
  cases entry : descMap msg.staMacAddr with
  | none => simpa [Fits, entry] using placed
  | some deci =>
      apply (fits_entry tree descMap msg ssid deci entry).mpr
      intro _
      exact ⟨placed, fun _ => ⟨full_descends tree full _, served⟩⟩

theorem full_follows (tree : TreeNode) (full : Full tree) (events : List Event)
    (fits : ∀ msg ssid, .probe msg ssid ∈ events → Placed msg ∧ ssid ≠ none) :
    Follows tree events := by
  apply follows_run
  intro before event after shape
  cases event with
  | del gone => trivial
  | probe msg ssid =>
      have fit := fits msg ssid (by rw [shape]; exact List.mem_append_right _ List.mem_cons_self)
      exact full_fits tree full _ msg ssid fit.1 fit.2

theorem step_due (tree : TreeNode) (full : Full tree) (before : List Event)
    (follows : Follows tree before) (msg : ProbeInfoMessage) (ssid : Option Text)
    (placed : Placed msg) (served : ssid ≠ none) :
    Due tree (since msg.staMacAddr before) msg ssid
      (handleProbe tree ssid (run (next tree) noEntries before) msg).calls := by
  have advanced := handle_advances tree ssid _ msg _ (follows msg.staMacAddr)
    (full_fits tree full _ msg ssid placed served)
  rw [advanced.2]
  exact callOf_due tree full _ msg ssid served

theorem log_calls (tree : TreeNode) (full : Full tree) (events : List Event)
    (fits : ∀ msg ssid, .probe msg ssid ∈ events → Placed msg ∧ ssid ≠ none) (staMacAddr : Text) :
    ((logOf tree events).calls staMacAddr).length = if both (since staMacAddr events) then 1
      else 0 := by
  -- since the removal there was one call if both bands have reported, and else none
  induction events using List.reverseRecOn with
  | nil => rfl
  | append_singleton events event ih =>
      have earlier : ∀ msg ssid, .probe msg ssid ∈ events → Placed msg ∧ ssid ≠ none :=
        fun msg ssid member => fits msg ssid (List.mem_append_left _ member)
      have counted := ih earlier
      have last : logOf tree (events ++ [event]) = Log.next tree (logOf tree events) event := by
        rw [logOf, run, List.foldl_append]
        rfl
      rw [last]
      cases event with
      | del gone =>
          rw [since_del]
          unfold Log.next
          dsimp only
          by_cases own : gone = staMacAddr
          · rw [if_pos own, own, Function.update_self]
            rfl
          · rw [if_neg own, Function.update_of_ne (Ne.symm own), counted]
      | probe msg ssid =>
          have fit := fits msg ssid (List.mem_append_right _ (List.mem_singleton.mpr rfl))
          rw [since_probe]
          unfold Log.next
          dsimp only
          by_cases own : msg.staMacAddr = staMacAddr
          · subst own
            have due := step_due tree full events (full_follows tree full events earlier) msg ssid
                fit.1 fit.2
            rw [← log_descMap] at due
            have length := due_length tree _ msg ssid _ due
            rw [if_pos rfl, Function.update_self, List.length_append, counted, length]
            by_cases complete : both (since msg.staMacAddr events) = true
            · have still : both (since msg.staMacAddr events ++ [msg]) = true := by
                unfold both
                rw [first_kept _ msg complete]
                exact complete
              have past : ¬ Completes (since msg.staMacAddr events) msg := by
                rw [completes_iff, complete]
                simp
              rw [if_pos complete, if_neg past, if_pos still]
            · have parts := completes_iff (since msg.staMacAddr events) msg
              simp only [complete, true_and] at parts
              rw [if_neg complete, Nat.zero_add]
              simp only [parts]
          · rw [if_neg own, Function.update_of_ne (Ne.symm own), counted]

/-- Between two removals there is at most one call, and it is made where the second band first
reports, from the first probes of both bands. -/
theorem one_lazy_decision (tree : TreeNode) (full : Full tree) (events : List Event)
    (fits : ∀ msg ssid, .probe msg ssid ∈ events → Placed msg ∧ ssid ≠ none) :
    (∀ staMacAddr, ((logOf tree events).calls staMacAddr).length ≤ 1) ∧
      ∀ before msg ssid after, events = before ++ .probe msg ssid :: after →
        Due tree (since msg.staMacAddr before) msg ssid
          (handleProbe tree ssid (run (next tree) noEntries before) msg).calls := by
  constructor
  · intro staMacAddr
    rw [log_calls tree full events fits staMacAddr]
    split
    · exact Nat.le_refl 1
    · exact Nat.zero_le 1
  · intro before msg ssid after shape
    have fit := fits msg ssid (by rw [shape]; exact List.mem_append_right _ List.mem_cons_self)
    apply step_due tree full before _ msg ssid fit.1 fit.2
    apply full_follows tree full
    intro earlier name member
    exact fits earlier name (by rw [shape]; exact List.mem_append_left _ member)

open DecisionTree (mixedSplit)

theorem split_full : Full mixedSplit := ⟨Or.inr (Or.inr rfl), Or.inr (Or.inl rfl)⟩

theorem low_channels_decided :
    (∀ staMacAddr, ((logOf mixedSplit lowChannels).calls staMacAddr).length ≤ 1) ∧
      ∀ before msg ssid after, lowChannels = before ++ .probe msg ssid :: after →
        Due mixedSplit (since msg.staMacAddr before) msg ssid
          (handleProbe mixedSplit ssid (run (next mixedSplit) noEntries before) msg).calls := by
  apply one_lazy_decision mixedSplit split_full lowChannels
  intro msg ssid member
  simp only [lowChannels, List.mem_cons, Event.probe.injEq, List.not_mem_nil, or_false] at member
  rcases member with ⟨rfl, rfl⟩ | ⟨rfl, rfl⟩
  · exact ⟨⟨by decide, by decide⟩, by simp⟩
  · exact ⟨⟨by decide, by decide⟩, by simp⟩

def Labels : TreeNode → Prop
  | .null => True
  | .node .null .null info => info.leaf = 0 ∨ info.leaf = 1 ∨ info.leaf = 2
  | .node left right _ => Labels left ∧ Labels right

/-- The tree of a file with the one line `au_5 <= 1 ... => 0`. -/
def halfTree : TreeNode :=
  .node (.node .null .null ⟨"au_5".toList, "<=".toList, 1, false, 0⟩) .null
    ⟨"root".toList, [], 0, false, -1⟩

/-- The 5 GHz probe comes second and no call is made: the tree has no node for it, or the first
probe had a channel that the index arithmetic cannot place. -/
theorem second_band_uncalled :
    (Labels halfTree ∧ Completes [probeAt 6 NET_2_4G] (probeAt 40 NET_5G) ∧
      (handleProbe halfTree (some ['w']) (run (next halfTree) noEntries
        [.probe (probeAt 6 NET_2_4G) (some ['w'])]) (probeAt 40 NET_5G)).calls = []) ∧
    (Labels mixedSplit ∧ Completes [probeAt (-40) NET_2_4G] (probeAt 40 NET_5G) ∧
      (handleProbe mixedSplit (some ['w']) (run (next mixedSplit) noEntries
        [.probe (probeAt (-40) NET_2_4G) (some ['w'])]) (probeAt 40 NET_5G)).calls = []) := by
  refine ⟨⟨⟨Or.inl rfl, trivial⟩, by decide, ?_⟩, ⟨?_, by decide, ?_⟩⟩
  · decide +kernel
  · exact ⟨Or.inr (Or.inr rfl), Or.inr (Or.inl rfl)⟩
  · decide +kernel

end LazyAS.LazyDecision

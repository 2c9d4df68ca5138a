import LazyAS.AccessControlSingleApp
import LazyAS.Runs
import Mathlib.Data.List.Induction

/-! Which agent `AccessControlSingleApp.channelAPSelecM2` picks from the lists that `handle` has
filled. Its loop ends before the last index of the array, which is that of channel 165. -/
namespace LazyAS.ScanSelection
open WireText ControllerView Runs AccessControlSingleApp
open HandoffApp (int32 channeltoIndex inBounds allChannel waitTimeout)
open DualBandAccessControl (ProbeInfoMessage)

def Valid (channel : Int) : Prop :=
  (1 ≤ channel ∧ channel ≤ 13) ∨ (36 ≤ channel ∧ channel ≤ 64) ∨ (149 ≤ channel ∧ channel ≤ 165)

/-- The lists of a station that `handle` leaves, and those it chooses an agent from. -/
inductive Filled : Scan → Prop where
  | fresh : Filled fun _ => none
  | heard {scan next : Scan} (v : View) (now : Int) (msg : ProbeInfoMessage) (before : Filled scan)
      (valid : Valid msg.channel) (added : scanned v now scan msg = some next) : Filled next
  | aged {scan next : Scan} (now : Int) (before : Filled scan)
      (left : expire now scan = some next) : Filled next

structure Candidate where
  agent : Ref
  mark : Int
  deriving DecidableEq

def candidate (v : View) (ap : ApNode) : Option Candidate :=
  match v.agentMap ap.apMAC with
  | none => none
  | some agent =>
      if getVapContainerIdle v agent = 0 then none
      else some ⟨agent, int32 (2 * ap.RSSI - 6 * getVapContainerOnline v agent)⟩

def stored (scan : Scan) (index : Int) : List ApNode := ((scan index).map ChaList.list).getD []

def candidates (v : View) (scan : Scan) (indices : List Int) : List Candidate :=
  (indices.flatMap (stored scan)).filterMap (candidate v)

def Eligible (v : View) (scan : Scan) (chosen : Candidate) : Prop :=
  ∃ index, ∃ ap ∈ stored scan index, candidate v ap = some chosen

/-- Nothing is picked only where nothing can be, and what is picked has the best mark. -/
def PicksBest (v : View) (scan : Scan) : Prop :=
  (channelAPSelecM2 v scan = none ↔ ¬ ∃ chosen, Eligible v scan chosen) ∧
  ∀ agent, channelAPSelecM2 v scan = some agent → ∃ chosen, Eligible v scan chosen ∧
    chosen.agent = agent ∧
    ∀ other, Eligible v scan other → other.mark ≤ chosen.mark

def walked : List Int := (List.range' 1 25).map Int.ofNat

def last : Int := 26

/-- The first candidate with the best mark; of those with the smallest mark there is, the last. -/
def Leads (chosen : Candidate) (all : List Candidate) : Prop :=
  ∃ before after, all = before ++ chosen :: after ∧
    (∀ other ∈ before, other.mark ≤ chosen.mark ∧
      (other.mark = chosen.mark → chosen.mark = minint)) ∧
    ∀ other ∈ after, other.mark ≤ chosen.mark ∧ chosen.mark ≠ minint

/-- Channel 165 is matched by the others: every candidate on it by one with at least its mark, or
the best one of all by the leading one, which has the same agent. -/
def Matched (v : View) (scan : Scan) : Prop :=
  (∀ missed ∈ candidates v scan [last], ∃ other ∈ candidates v scan walked,
    missed.mark ≤ other.mark) ∨
  ∃ missed ∈ candidates v scan [last], (∀ other, Eligible v scan other → other.mark ≤ missed.mark) ∧
    ∃ chosen, Leads chosen (candidates v scan walked) ∧ chosen.agent = missed.agent

/-! The filled lists. -/

def Distinct (scan : Scan) : Prop :=
  ∀ index cha, scan index = some cha → (cha.list.map ApNode.apMAC).Nodup

/-- The lists of a station hold every AP once, and only where a channel has its index. -/
structure Tidy (scan : Scan) : Prop where
  placed : ∀ index cha, scan index = some cha → 1 ≤ index ∧ index ≤ last
  distinct : Distinct scan

theorem valid_index (channel : Int) (valid : Valid channel) :
    1 ≤ channeltoIndex channel ∧ channeltoIndex channel ≤ last := by
  unfold Valid at valid
  unfold channeltoIndex last
  split_ifs <;> omega

theorem addAP_macs (now : Int) (mac : Text) (rssi channel : Int) (list : List ApNode) :
    (addAP now mac rssi channel list).map ApNode.apMAC =
      if mac ∈ list.map ApNode.apMAC then list.map ApNode.apMAC else list.map ApNode.apMAC ++
        [mac] := by
  induction list with
  | nil => rfl
  | cons ap rest ih =>
      unfold addAP
      by_cases own : ap.apMAC = mac
      · have same : (reheard now ap rssi channel).apMAC = ap.apMAC := by
          unfold reheard
          dsimp only
          split_ifs <;> rfl
        have here : mac ∈ (ap :: rest).map ApNode.apMAC := by
          rw [List.map_cons, own]
          exact List.mem_cons_self
        rw [if_pos own, if_pos here, List.map_cons, same, List.map_cons]
      · rw [if_neg own, List.map_cons, ih, List.map_cons]
        have elsewhere : mac ∈ ap.apMAC :: rest.map ApNode.apMAC ↔ mac ∈ rest.map ApNode.apMAC := by
          rw [List.mem_cons, or_iff_right (fun same => own same.symm)]
        by_cases known : mac ∈ rest.map ApNode.apMAC
        · rw [if_pos known, if_pos (elsewhere.mpr known)]
        · rw [if_neg known, if_neg (fun inside => known (elsewhere.mp inside)), List.cons_append]

theorem addAP_distinct (now : Int) (mac : Text) (rssi channel : Int) (list : List ApNode)
    (distinct : (list.map ApNode.apMAC).Nodup) :
    ((addAP now mac rssi channel list).map ApNode.apMAC).Nodup := by
  rw [addAP_macs]
  split
  · exact distinct
  · rename_i fresh
    exact List.nodup_append.mpr ⟨distinct, List.nodup_singleton mac, fun old member new single =>
      fun same => fresh (List.mem_singleton.mp single ▸ same ▸ member)⟩

theorem scanned_distinct (v : View) (now : Int) (scan next : Scan) (msg : ProbeInfoMessage)
    (distinct : Distinct scan) (added : scanned v now scan msg = some next) : Distinct next := by
  unfold scanned at added
  dsimp only at added
  split at added
  · rw [Option.some.injEq] at added
    subst added
    intro place cha found
    by_cases own : place = channeltoIndex msg.channel
    · subst own
      rw [Function.update_self, Option.some.injEq] at found
      subst found
      apply addAP_distinct
      cases known : scan (channeltoIndex msg.channel) with
      | none => exact List.nodup_nil
      | some old => exact distinct _ old known
    · rw [Function.update_of_ne own] at found
      exact distinct place cha found
  · cases added

theorem scanned_placed (v : View) (now : Int) (scan next : Scan) (msg : ProbeInfoMessage)
    (placed : ∀ index cha, scan index = some cha → 1 ≤ index ∧ index ≤ last)
    (valid : Valid msg.channel)
    (added : scanned v now scan msg = some next) (index : Int) (cha : ChaList)
    (found : next index = some cha) :
    1 ≤ index ∧ index ≤ last := by
  unfold scanned at added
  dsimp only at added
  split at added
  · rw [Option.some.injEq] at added
    subst added
    by_cases own : index = channeltoIndex msg.channel
    · exact own ▸ valid_index msg.channel valid
    · rw [Function.update_of_ne own] at found
      exact placed index cha found
  · cases added

theorem expire_kept (now : Int) (scan next : Scan) (left : expire now scan = some next)
    (index : Int) (cha : ChaList) (found : next index = some cha) : scan index = some cha := by
  unfold expire at left
  dsimp only at left
  split at left
  · cases left
  · rw [Option.some.injEq] at left
    subst left
    dsimp only at found
    cases known : scan index with
    | none =>
        rw [known] at found
        cases found
    | some old =>
        rw [known] at found
        dsimp only at found
        split at found
        · cases found
        · exact found

theorem Filled.tidy {scan : Scan} (filled : Filled scan) : Tidy scan := by
  induction filled with
  | fresh =>
      exact ⟨fun _ _ found => absurd found (by simp), fun _ _ found => absurd found (by simp)⟩
  | heard v now msg _ valid added ih =>
      exact ⟨scanned_placed v now _ _ msg ih.placed valid added,
        scanned_distinct v now _ _ msg ih.distinct added⟩
  | aged now _ left ih =>
      constructor
      · intro index cha found
        exact ih.placed index cha (expire_kept now _ _ left index cha found)
      · intro index cha found
        exact ih.distinct index cha (expire_kept now _ _ left index cha found)

/-! The application fills the tables it holds. -/

/-- A probe in some view, or a station that came on line. -/
inductive Event where
  | probe (v : View) (now : Int) (order : Order) (msg : ProbeInfoMessage)
  | online (staMacAddr : Text)

def next (app : App) : Event → App
  | .probe v now order msg => (handle v now order app msg).app
  | .online staMacAddr => handle1 app staMacAddr

def Fits : Event → Prop
  | .probe _ _ _ msg => Valid msg.channel
  | .online _ => True

def AllFilled (table : AList fun _ : Text => Scan) : Prop :=
  ∀ staMacAddr scan, table.lookup staMacAddr = some scan → Filled scan

section Kept
variable {P : Scan → Prop}

theorem all_insert {table : AList fun _ : Text => Scan}
    (all : ∀ mac scan, table.lookup mac = some scan → P scan) (staMacAddr : Text) (scan : Scan)
    (holds : P scan) (other : Text) (found : Scan)
    (known : (table.insert staMacAddr scan).lookup other = some found) : P found := by
  by_cases own : other = staMacAddr
  · subst own
    rw [AList.lookup_insert, Option.some.injEq] at known
    exact known ▸ holds
  · rw [AList.lookup_insert_ne own] at known
    exact all other found known

theorem all_erase {table : AList fun _ : Text => Scan}
    (all : ∀ mac scan, table.lookup mac = some scan → P scan) (staMacAddr other : Text)
    (found : Scan) (known : (table.erase staMacAddr).lookup other = some found) : P found := by
  by_cases own : other = staMacAddr
  · subst own
    rw [AList.lookup_erase] at known
    cases known
  · rw [AList.lookup_erase_ne own] at known
    exact all other found known

variable (now : Int) (aged : ∀ scan next, P scan → expire now scan = some next → P next)
include aged

theorem cleanUp_keeps (v : View) (app : App)
    (all : ∀ mac scan, app.sta2ChannelScan.lookup mac = some scan → P scan) :
    ∀ mac scan, (cleanUp v now app).sta2ChannelScan.lookup mac = some scan → P scan := by
  unfold cleanUp
  split
  · refine foldl_within (fun before after : AList fun _ : Text => Scan =>
      (∀ mac scan, before.lookup mac = some scan → P scan) →
        ∀ mac scan, after.lookup mac = some scan → P scan)
      (fun _ kept => kept) (fun first second kept => second (first kept)) _ ?_
        app.sta2ChannelScan.keys
      app.sta2ChannelScan all
    intro table staMacAddr kept
    split
    · split
      · exact all_erase kept staMacAddr
      · rename_i scan left
        obtain ⟨old, known, expired⟩ := Option.bind_eq_some_iff.mp left
        exact all_insert kept staMacAddr scan (aged old scan (kept staMacAddr old known) expired)
    · exact kept
  · exact all

theorem handle_keeps (v : View) (order : Order) (app : App) (msg : ProbeInfoMessage)
    (fresh : P fun _ => none)
    (heard : ∀ scan next, P scan → scanned v now scan msg = some next → P next)
    (all : ∀ mac scan, app.sta2ChannelScan.lookup mac = some scan → P scan) :
    ∀ mac scan, (handle v now order app msg).app.sta2ChannelScan.lookup mac = some scan →
      P scan := by
  have known : P ((app.sta2ChannelScan.lookup msg.staMacAddr).getD fun _ => none) := by
    cases found : app.sta2ChannelScan.lookup msg.staMacAddr with
    | none => exact fresh
    | some scan => exact all msg.staMacAddr scan found
  unfold handle
  dsimp only
  split
  · exact all_insert all _ _ known
  · rename_i scan added
    have stored := all_insert all msg.staMacAddr scan (heard _ scan known added)
    split
    · exact cleanUp_keeps now aged v _ stored
    · split
      · exact stored
      · exact cleanUp_keeps now aged v _ stored

end Kept

theorem handle_filled (v : View) (now : Int) (order : Order) (app : App) (msg : ProbeInfoMessage)
    (valid : Valid msg.channel) (all : AllFilled app.sta2ChannelScan) :
    AllFilled (handle v now order app msg).app.sta2ChannelScan :=
  handle_keeps now (fun _ _ before left => .aged now before left) v order app msg .fresh
    (fun _ _ before added => .heard v now msg before valid added) all

theorem reached_filled (app : App) (reached : Reaches next (fun _ event => Fits event) {} app) :
    AllFilled app.sta2ChannelScan := by
  refine reached.invariant (fun app => AllFilled app.sta2ChannelScan)
    (fun _ _ found => absurd found (by simp)) ?_
  intro app event fits all
  cases event with
  | probe v now order msg => exact handle_filled v now order app msg fits all
  | online staMacAddr => exact all_erase all staMacAddr

/-! What the loop picks. -/

def better (best : Int × Option Ref) (other : Candidate) : Int × Option Ref :=
  if best.1 = minint ∨ other.mark > best.1 then (other.mark, some other.agent) else best

theorem find_stored (list : List ApNode) (distinct : (list.map ApNode.apMAC).Nodup) (ap : ApNode)
    (member : ap ∈ list) :
    findRSSIByAPMAC list ap.apMAC = ap.RSSI := by
  induction list with
  | nil => cases member
  | cons first rest ih =>
      rw [List.map_cons, List.nodup_cons] at distinct
      unfold findRSSIByAPMAC
      rcases List.mem_cons.mp member with rfl | later
      · rw [List.find?_cons_of_pos (by simp)]
      · have other : first.apMAC ≠ ap.apMAC := fun same =>
            distinct.1 (same ▸ List.mem_map_of_mem later)
        rw [List.find?_cons_of_neg (by simpa using other)]
        exact ih distinct.2 later

theorem consider_candidate (v : View) (list : List ApNode)
    (distinct : (list.map ApNode.apMAC).Nodup) (ap : ApNode) (member : ap ∈ list)
    (best : Int × Option Ref) :
    consider v list best ap = match candidate v ap with
      | none => best
      | some other => better best other := by
  unfold consider candidate
  rw [find_stored list distinct ap member]
  cases v.agentMap ap.apMAC with
  | none => rfl
  | some agent =>
      dsimp only
      by_cases full : getVapContainerIdle v agent = 0
      · rw [if_pos full, if_pos full]
      · have mark : 2 * ap.RSSI - 3 *
            ((getVapContainerOnline v agent + getVapContainerOnline v agent : Nat) : Int) =
            2 * ap.RSSI - 6 * (getVapContainerOnline v agent : Int) := by omega
        rw [if_neg full, if_neg full]
        unfold better
        dsimp only
        rw [mark]

theorem select_candidates (v : View) (scan : Scan) (distinct : Distinct scan) :
    channelAPSelecM2 v scan = ((candidates v scan walked).foldl better (minint, none)).2 := by
  -- the two nested loops are one over the candidates
  have indices : (do let index ← List.range' 1 25; pure (index : Int)) = walked := by decide
  unfold channelAPSelecM2 candidates
  rw [List.foldl_filterMap, List.foldl_flatMap, indices]
  congr 1
  apply List.foldl_ext
  intro best index _
  unfold stored
  cases found : scan index with
  | none => rfl
  | some cha =>
      apply List.foldl_ext
      intro best ap member
      rw [consider_candidate v cha.list (distinct _ cha found) ap member]
      cases candidate v ap <;> rfl

theorem candidate_mark (v : View) (scan : Scan) (indices : List Int) (other : Candidate)
    (member : other ∈ candidates v scan indices) : minint ≤ other.mark := by
  obtain ⟨ap, -, found⟩ := List.mem_filterMap.mp member
  unfold candidate at found
  split at found
  · cases found
  · split at found
    · cases found
    · rw [Option.some.injEq] at found
      rw [← found]
      exact Int.le_bmod (by decide)

theorem Leads.mem {chosen : Candidate} {all : List Candidate} (leads : Leads chosen all) :
    chosen ∈ all := by
  obtain ⟨before, after, rfl, -, -⟩ := leads
  simp

theorem Leads.best {chosen : Candidate} {all : List Candidate} (leads : Leads chosen all)
    (other : Candidate) (member : other ∈ all) : other.mark ≤ chosen.mark := by
  obtain ⟨before, after, rfl, lower, higher⟩ := leads
  rcases List.mem_append.mp member with early | here
  · exact (lower other early).1
  · rcases List.mem_cons.mp here with rfl | late
    · exact Int.le_refl _
    · exact (higher other late).1

theorem exists_leads (all : List Candidate) (marks : ∀ other ∈ all, minint ≤ other.mark)
    (some' : all ≠ []) :
    ∃ chosen, Leads chosen all := by
  -- the induction over the candidates met so far
  induction all using List.reverseRecOn with
  | nil => exact absurd rfl some'
  | append_singleton earlier latest ih =>
      by_cases empty : earlier = []
      · subst empty
        exact ⟨latest, [], [], rfl, by simp, by simp⟩
      · obtain ⟨chosen, leads⟩ := ih
            (fun other member => marks other (List.mem_append_left _ member)) empty
        have floor : minint ≤ latest.mark := marks latest (by simp)
        by_cases beaten : chosen.mark = minint ∨ latest.mark > chosen.mark
        · refine ⟨latest, earlier, [], rfl, ?_, by simp⟩
          intro other member
          have lower := leads.best other member
          constructor
          · omega
          · intro same
            omega
        · obtain ⟨before, after, rfl, lower, higher⟩ := leads
          refine ⟨chosen, before, after ++ [latest], by simp, lower, ?_⟩
          intro other member
          rcases List.mem_append.mp member with late | here
          · exact higher other late
          · rw [List.mem_singleton.mp here]
            constructor
            · omega
            · omega

theorem better_before (chosen : Candidate) (before : List Candidate) (best : Int × Option Ref)
    (behind : best.1 = minint ∨ chosen.mark > best.1)
    (lower : ∀ other ∈ before, other.mark ≤ chosen.mark ∧
      (other.mark = chosen.mark → chosen.mark = minint)) :
    (before.foldl better best).1 = minint ∨ chosen.mark > (before.foldl better best).1 := by
  induction before generalizing best with
  | nil => exact behind
  | cons other before ih =>
      have below := lower other List.mem_cons_self
      apply ih
      · unfold better
        split_ifs
        · dsimp only
          omega
        · exact behind
      · exact fun later member => lower later (List.mem_cons_of_mem _ member)

theorem better_after (chosen : Candidate) (after : List Candidate)
    (higher : ∀ other ∈ after, other.mark ≤ chosen.mark ∧ chosen.mark ≠ minint) :
    after.foldl better (chosen.mark, some chosen.agent) = (chosen.mark, some chosen.agent) := by
  induction after with
  | nil => rfl
  | cons other after ih =>
      have above := higher other List.mem_cons_self
      have kept : better (chosen.mark, some chosen.agent) other =
          (chosen.mark, some chosen.agent) := by
        unfold better
        rw [if_neg (by dsimp only; omega)]
      rw [List.foldl_cons, kept]
      exact ih fun later member => higher later (List.mem_cons_of_mem _ member)

theorem Leads.picked {chosen : Candidate} {all : List Candidate} (leads : Leads chosen all) :
    (all.foldl better (minint, none)).2 = some chosen.agent := by
  obtain ⟨before, after, rfl, lower, higher⟩ := leads
  have taken : better (before.foldl better (minint, none)) chosen =
      (chosen.mark, some chosen.agent) := by
    unfold better
    exact if_pos (better_before chosen before (minint, none) (.inl rfl) lower)
  rw [List.foldl_append, List.foldl_cons, taken, better_after chosen after higher]

theorem mem_candidates (v : View) (scan : Scan) (indices : List Int) (chosen : Candidate) :
    chosen ∈ candidates v scan indices ↔
      ∃ index ∈ indices, ∃ ap ∈ stored scan index, candidate v ap = some chosen := by
  unfold candidates
  rw [List.mem_filterMap]
  constructor
  · rintro ⟨ap, member, found⟩
    obtain ⟨index, walked, inside⟩ := List.mem_flatMap.mp member
    exact ⟨index, walked, ap, inside, found⟩
  · rintro ⟨index, walked, ap, inside, found⟩
    exact ⟨ap, List.mem_flatMap.mpr ⟨index, walked, inside⟩, found⟩

theorem mem_walked (index : Int) : index ∈ walked ↔ 1 ≤ index ∧ index < last := by
  unfold walked last
  rw [List.mem_map]
  constructor
  · rintro ⟨number, member, rfl⟩
    have range := List.mem_range'_1.mp member
    constructor
    · exact Int.ofNat_le.mpr range.1
    · exact Int.ofNat_lt.mpr range.2
  · rintro ⟨low, high⟩
    refine ⟨index.toNat, List.mem_range'_1.mpr ?_, ?_⟩
    · omega
    · exact Int.toNat_of_nonneg (by omega)

theorem eligible_iff (v : View) (scan : Scan) (tidy : Tidy scan) (chosen : Candidate) :
    Eligible v scan chosen ↔ chosen ∈ candidates v scan walked ∨
      chosen ∈ candidates v scan [last] := by
  -- a candidate is on a channel the loop comes to, or on channel 165
  rw [mem_candidates, mem_candidates]
  constructor
  · rintro ⟨index, ap, member, found⟩
    have placed : 1 ≤ index ∧ index ≤ last := by
      unfold stored at member
      cases known : scan index with
      | none =>
          rw [known] at member
          cases member
      | some cha => exact tidy.placed index cha known
    by_cases edge : index = last
    · exact .inr ⟨index, List.mem_singleton.mpr edge, ap, member, found⟩
    · exact .inl ⟨index, (mem_walked index).mpr ⟨placed.1, by omega⟩, ap, member, found⟩
  · rintro (⟨index, -, ap, member, found⟩ | ⟨index, -, ap, member, found⟩)
    · exact ⟨index, ap, member, found⟩
    · exact ⟨index, ap, member, found⟩

section Picked

variable {v : View} {scan : Scan}

theorem picked_nothing (tidy : Tidy scan) (empty : candidates v scan walked = []) :
    PicksBest v scan ↔ Matched v scan := by
  -- where the loop comes to no candidate, nothing is picked
  have nothing : ((candidates v scan walked).foldl better (minint, none)).2 =
      none := by rw [empty]; rfl
  unfold PicksBest
  rw [select_candidates v scan tidy.distinct, nothing]
  constructor
  · rintro ⟨none', -⟩
    left
    intro missed member
    exact absurd ⟨missed, (eligible_iff v scan tidy missed).mpr (.inr member)⟩ (none'.mp rfl)
  · rintro (covered | ⟨_, _, _, chosen, leads, _⟩)
    · refine ⟨iff_of_true rfl ?_, fun agent picked => by cases picked⟩
      rintro ⟨chosen, eligible⟩
      rcases (eligible_iff v scan tidy chosen).mp eligible with inside | missed
      · rw [empty] at inside
        cases inside
      · obtain ⟨other, inside, -⟩ := covered chosen missed
        rw [empty] at inside
        cases inside
    · have inside := leads.mem
      rw [empty] at inside
      cases inside

theorem matched_of_best (tidy : Tidy scan) {chosen top : Candidate}
    (leads : Leads chosen (candidates v scan walked)) (eligible : Eligible v scan top)
    (same : top.agent = chosen.agent)
    (highest : ∀ other, Eligible v scan other → other.mark ≤ top.mark) : Matched v scan := by
  by_cases covered : ∀ missed ∈ candidates v scan [last], ∃ other ∈ candidates v scan walked,
    missed.mark ≤ other.mark
  · exact .inl covered
  · simp only [not_forall, not_exists, not_and, Int.not_le] at covered
    obtain ⟨missed, member, above⟩ := covered
    have bounded := highest missed ((eligible_iff v scan tidy missed).mpr (.inr member))
    rcases (eligible_iff v scan tidy top).mp eligible with inside | outside
    · have below := above top inside
      omega
    · exact .inr ⟨top, outside, highest, chosen, leads, same.symm⟩

theorem best_of_matched (tidy : Tidy scan) {chosen : Candidate}
    (leads : Leads chosen (candidates v scan walked)) (matched : Matched v scan) :
    ∃ top, Eligible v scan top ∧ top.agent = chosen.agent ∧
      ∀ other, Eligible v scan other → other.mark ≤ top.mark := by
  rcases matched with covered | ⟨missed, member, highest, leading, leads', same⟩
  · refine ⟨chosen, (eligible_iff v scan tidy chosen).mpr (.inl leads.mem), rfl, ?_⟩
    intro other eligible
    rcases (eligible_iff v scan tidy other).mp eligible with inside | missed
    · exact leads.best other inside
    · obtain ⟨cover, inside, below⟩ := covered other missed
      exact below.trans (leads.best cover inside)
  · refine ⟨missed, (eligible_iff v scan tidy missed).mpr (.inr member), ?_, highest⟩
    have picked := leads.picked.symm.trans leads'.picked
    rw [Option.some.injEq] at picked
    exact same.symm.trans picked.symm

end Picked

/-- The best agent of the whole table is picked exactly if channel 165 is matched by the others. -/
theorem picksBest_iff (v : View) (scan : Scan) (filled : Filled scan) :
    PicksBest v scan ↔ Matched v scan := by
  have tidy := filled.tidy
  by_cases empty : candidates v scan walked = []
  · exact picked_nothing tidy empty
  · obtain ⟨chosen, leads⟩ := exists_leads _ (candidate_mark v scan walked) empty
    have own : Eligible v scan chosen := (eligible_iff v scan tidy chosen).mpr (.inl leads.mem)
    unfold PicksBest
    rw [select_candidates v scan tidy.distinct, leads.picked]
    constructor
    · rintro ⟨-, best⟩
      obtain ⟨top, eligible, same, highest⟩ := best chosen.agent rfl
      exact matched_of_best tidy leads eligible same highest
    · intro matched
      refine ⟨iff_of_false (by simp) (fun none' => none' ⟨chosen, own⟩), ?_⟩
      rintro agent picked
      rw [Option.some.injEq] at picked
      subst picked
      exact best_of_matched tidy leads matched

def oneAp : View := { View.empty with agentMap := fun mac => if mac = [] then some 0 else none }

def probeOn (channel : Int) : ProbeInfoMessage :=
  ⟨"0a1b2c3d4e5f".toList, -40, 0, channel, "011".toList, 0⟩

def heardOn (channel : Int) : Scan :=
  (scanned oneAp 0 (fun _ => none) (probeOn channel)).getD fun _ => none

def twoAps : View := { View.empty with
  agentMap := fun mac => if mac = ['a'] then some 0 else if mac = ['b'] then some 1 else none
  agents := fun agent => { macAddress := if agent = 0 then ['a'] else ['b'] } }

def probeBy (agent : Ref) (rssi channel : Int) : ProbeInfoMessage :=
  ⟨"0a1b2c3d4e5f".toList, rssi, 0, channel, "011".toList, agent⟩

def heardFirst : Scan := (scanned twoAps 0 (fun _ => none) (probeBy 0 (-80) 6)).getD fun _ => none

def heardBoth : Scan := (scanned twoAps 100 heardFirst (probeBy 1 (-60) 36)).getD fun _ => none

theorem heard_both_picked : channelAPSelecM2 twoAps heardBoth = some 1 ∧
    PicksBest twoAps heardBoth := by
  have first : Filled heardFirst :=
    .heard twoAps 0 (probeBy 0 (-80) 6) .fresh (by unfold Valid; decide) rfl
  have both : Filled heardBoth :=
    .heard twoAps 100 (probeBy 1 (-60) 36) first (by unfold Valid; decide) rfl
  exact ⟨by decide, (picksBest_iff twoAps heardBoth both).mpr (.inl (by decide))⟩

theorem heard165_unpicked : ¬ ∀ v scan, Filled scan → PicksBest v scan := by
  intro all
  have nothing : channelAPSelecM2 oneAp (heardOn 165) = none := by decide
  have filled : Filled (heardOn 165) :=
    .heard oneAp 0 (probeOn 165) .fresh (by unfold Valid; decide) rfl
  exact (all oneAp (heardOn 165) filled).1.mp nothing ⟨⟨0, 20⟩, 26,
    ⟨[], 1, 10, 0⟩, by decide, by decide⟩

end LazyAS.ScanSelection

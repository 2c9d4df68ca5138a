import LazyAS.AccessControlMultiApp
import LazyAS.ScanSelection

/-! What `AccessControlMultiApp.channelAPSelecM2` hands out. What it hands out is always possible.
It is not always the best: an agent comes to SSIDs that were seen at other agents, raises their
marks also where it does not serve them, and has only as many turns as it has room. -/
namespace LazyAS.MultiSelection
open WireText ControllerView Runs AccessControlMultiApp
open AccessControlSingleApp (ApNode)
open ScanSelection (walked)

variable (v : View) (order : Order) (disSSID : List Text)

/-! Whatever the sets hold from earlier calls, what is handed out is possible. -/

/-- The SSID was asked for, and its agent is tracked, serves it and has room. -/
def Sound (selection : Selection) : Prop :=
  ∀ table, selection.agentHashtable = some table → ∀ ssid agent, table.lookup ssid = some agent →
    ssid ∈ disSSID ∧ (∃ mac, v.agentMap mac = some agent) ∧ ssid ∈ (v.agents agent).ssidSet ∧
      0 < getVapContainerIdle v agent

section Soundness
variable {v : View} {order : Order} {disSSID : List Text}

theorem offer_sound (agent : Ref) (pmark : Int) (tracked : ∃ mac, v.agentMap mac = some agent)
    (room : 0 < getVapContainerIdle v agent) (selection : Selection) (ssid : Text)
    (sound : Sound v disSSID selection) :
    Sound v disSSID (offer v disSSID agent pmark selection ssid) := by
  unfold offer
  split
  · rename_i asked
    rw [Bool.and_eq_true, List.contains_iff_mem] at asked
    intro table made other holder found
    dsimp only at made
    split at made
    · rename_i serves
      obtain ⟨old, before, rfl⟩ := Option.map_eq_some_iff.mp made
      by_cases own : other = ssid
      · subst own
        rw [AList.lookup_insert, Option.some.injEq] at found
        subst found
        exact ⟨asked.1, tracked, List.contains_iff_mem.mp serves, room⟩
      · rw [AList.lookup_insert_ne own] at found
        exact sound old before other holder found
    · exact sound table made other holder found
  · exact sound

theorem considerAp_sound (list : List Ref) (selection : Selection) (ap : Ref)
    (sound : Sound v disSSID selection) :
    Sound v disSSID (considerAp v order disSSID list selection ap) := by
  unfold considerAp
  split
  · exact sound
  · rename_i agent tracked
    split
    · exact sound
    · dsimp only
      split
      · have started (app : App) : Sound v disSSID
            { selection with
                app := app, agentHashtable := some (selection.agentHashtable.getD ∅) } := by
          intro table made ssid holder found
          rw [Option.some.injEq] at made
          subst made
          cases before : selection.agentHashtable with
          | none =>
              rw [before] at found
              cases found
          | some old =>
              rw [before] at found
              exact sound old before ssid holder found
        by_cases room : 0 < getVapContainerIdle v agent
        · exact run_invariant (Sound v disSSID) (started _)
            (fun _ ssid kept => offer_sound agent _ ⟨_, tracked⟩ room _ ssid kept) _
        · have turns (known : List Text) : (changeNum v agent known).toNat = 0 := by
            unfold changeNum
            split_ifs <;> omega
          rw [turns, List.take_zero]
          exact started _
      · exact sound

/-- Every agent that is handed out can serve its SSID, in every state of the application. -/
theorem selection_sound (v : View) (order : Order) (app : App) (staMAC : Text) (disSSID : List Text)
    (selection : Selection)
    (chosen : channelAPSelecM2 v order app staMAC disSSID = some selection) :
    Sound v disSSID selection := by
  obtain ⟨scan, -, rfl⟩ := Option.map_eq_some_iff.mp chosen
  show Sound v disSSID (run (considerChannel v order disSSID scan) { app } _)
  refine run_invariant (Sound v disSSID) (fun _ none' => by cases none') ?_ _
  intro selection index sound
  unfold considerChannel
  split
  · exact sound
  · rename_i list _
    have checked : Sound v disSSID { selection with
        app := checkFakeApfromCha v disSSID selection.app list } := sound
    show Sound v disSSID (run (considerAp v order disSSID list) _ list)
    exact run_invariant (Sound v disSSID) checked
      (fun selection ap kept => considerAp_sound list selection ap kept) list

end Soundness

/-! The entries of the table and what the agents come to. -/

structure Entry where
  agent : Ref
  mark : Int
  deriving DecidableEq

def entry (nodes : Ref → ApNode) (list : List Ref) (ap : Ref) : Option Entry :=
  (v.agentMap (nodes ap).apMAC).map fun agent => ⟨agent, markOf v nodes list ap agent⟩

/-- An agent with room that serves none of the SSIDs is passed over. -/
def isFake (agent : Ref) : Bool :=
  !(getVapContainerIdle v agent ≤ 0) && !(v.agents agent).ssidSet.any disSSID.contains

/-- The entries of some nodes that the loop takes up. -/
def visits (nodes : Ref → ApNode) (list items : List Ref) : List Entry :=
  (items.filterMap (entry v nodes list)).filter fun entry => !isFake v disSSID entry.agent

def visited (nodes : Ref → ApNode) (scan : Scan) : List Entry :=
  walked.flatMap fun index => match scan index with
    | none => []
    | some list => visits v disSSID nodes list list

structure Offer where
  agent : Ref
  mark : Int
  ssids : List Text
  deriving DecidableEq

structure Offers where
  known : List Text := []
  made : List Offer := []

/-- The SSIDs an agent comes to: as many as it has room, of those seen so far. -/
def turns (known : List Text) (agent : Ref) : List Text :=
  ((order.arrange known).take (changeNum v agent known).toNat).filter disSSID.contains

def Beats (made : List Offer) (mark : Int) (ssid : Text) : Prop :=
  ∀ earlier ∈ made, ssid ∈ earlier.ssids → earlier.mark < mark

instance (made : List Offer) (mark : Int) (ssid : Text) : Decidable (Beats made mark ssid) :=
  inferInstanceAs (Decidable (∀ earlier ∈ made, _))

/-- An agent makes an offer if its mark beats the others on one of its own SSIDs. -/
def extend (offers : Offers) (entry : Entry) : Offers :=
  let known := (v.agents entry.agent).ssidSet.foldl (fun known ssid => known.insert ssid)
      offers.known
  if ∃ ssid ∈ (v.agents entry.agent).ssidSet, Beats offers.made entry.mark ssid then
    ⟨known, offers.made ++ [⟨entry.agent, entry.mark, turns v order disSSID known entry.agent⟩]⟩
  else ⟨known, offers.made⟩

def offersOf (entries : List Entry) : Offers := entries.foldl (extend v order disSSID) {}

/-- The offer is for the SSID, of an agent that serves it, and beats those before it. -/
def Takes (before : List Offer) (made : Offer) (ssid : Text) : Prop :=
  ssid ∈ made.ssids ∧ ssid ∈ (v.agents made.agent).ssidSet ∧ Beats before made.mark ssid

def Holds (made : List Offer) (ssid : Text) (last : Offer) : Prop :=
  ∃ before after, made = before ++ last :: after ∧ Takes v before last ssid ∧
    ∀ between later rest, after = between ++ later :: rest →
      ¬ Takes v (before ++ last :: between) later ssid

/-- An AP of the whole table that serves the SSID and has room. -/
def Eligible (nodes : Ref → ApNode) (scan : Scan) (ssid : Text) (best : Entry) : Prop :=
  (∃ index list, scan index = some list ∧ ∃ ap ∈ list, entry v nodes list ap = some best) ∧
    ssid ∈ (v.agents best.agent).ssidSet ∧ 0 < getVapContainerIdle v best.agent

def Best (nodes : Ref → ApNode) (scan : Scan) (ssid : Text) (mark : Int) : Prop :=
  ∀ other, Eligible v nodes scan ssid other → other.mark ≤ mark

def newApp (nodes : Ref → ApNode) (tables : AList fun _ : Text => Scan) (staMAC : Text)
    (scan : Scan) : App :=
  { apNodes := nodes, sta2ChannelScan := tables.insert staMAC scan }

/-- Every SSID that can be handed out goes to an agent with the best mark. -/
def Optimal (nodes : Ref → ApNode) (tables : AList fun _ : Text => Scan) (staMAC : Text)
    (scan : Scan) : Prop :=
  ∀ ssid ∈ disSSID, (∃ served, Eligible v nodes scan ssid served) →
    ∃ selection table best, channelAPSelecM2 v order (newApp nodes tables staMAC scan) staMAC
      disSSID = some selection ∧
      selection.agentHashtable = some table ∧ table.lookup ssid = some best.agent ∧
      Eligible v nodes scan ssid best ∧ Best v nodes scan ssid best.mark

def Direct (nodes : Ref → ApNode) (scan : Scan) (made : List Offer) (ssid : Text) : Prop :=
  ∃ before best after, made = before ++ best :: after ∧ Takes v before best ssid ∧
    Best v nodes scan ssid best.mark

def Twice (nodes : Ref → ApNode) (scan : Scan) (made : List Offer) (ssid : Text) : Prop :=
  ∃ last best, Holds v made ssid last ∧ best.agent = last.agent ∧ last.mark < best.mark ∧
    Eligible v nodes scan ssid best ∧ Best v nodes scan ssid best.mark

def Taken (nodes : Ref → ApNode) (scan : Scan) : Prop :=
  ∀ ssid ∈ disSSID, (∃ served, Eligible v nodes scan ssid served) →
    Direct v nodes scan (offersOf v order disSSID (visited v disSSID nodes scan)).made ssid ∨
    Twice v nodes scan (offersOf v order disSSID (visited v disSSID nodes scan)).made ssid

/-! The condition, which leaves open who makes an offer. -/

def seen (entries : List Entry) : List Text :=
  entries.foldl (fun known entry => (v.agents entry.agent).ssidSet.foldl
    (fun known ssid => known.insert ssid) known) []

/-- With these agents in front of it, the SSID is among the first that the agent has room for. -/
def Comes (front : List Entry) (entry : Entry) (ssid : Text) : Prop :=
  ssid ∈ turns v order disSSID (seen v (front ++ [entry])) entry.agent

/-- For each of its SSIDs an agent in front that serves it comes to it with no lower mark, so the
agent is passed over. -/
def Silent (front : List Entry) (entry : Entry) : Prop :=
  ∀ own ∈ (v.agents entry.agent).ssidSet, ∃ before served after, front = before ++ served :: after ∧
    own ∈ (v.agents served.agent).ssidSet ∧ Comes v order disSSID before served own ∧
      entry.mark ≤ served.mark

/-- For one of its SSIDs every agent in front that comes to it has a lower mark. -/
def Loud (front : List Entry) (entry : Entry) : Prop :=
  ∃ own ∈ (v.agents entry.agent).ssidSet, ∀ before other after, front = before ++ other :: after →
    Comes v order disSSID before other own → other.mark < entry.mark

/-- One of the best agents for the SSID comes to it, and every agent in front that comes to it,
serving it or not, has a lower mark, if it is of the kind. -/
def Clear (nodes : Ref → ApNode) (scan : Scan) (ssid : Text) (kind : List Entry → Entry → Prop) :
    Prop :=
  ∃ before best after, visited v disSSID nodes scan = before ++ best :: after ∧
    ssid ∈ (v.agents best.agent).ssidSet ∧ Best v nodes scan ssid best.mark ∧
      Comes v order disSSID before best ssid ∧
    ∀ front other rest, before = front ++ other :: rest → kind front other →
      Comes v order disSSID front other ssid →
      other.mark < best.mark

/-- Every SSID that can be handed out has its best agent come to it before any other with such a
mark. -/
def Unspoiled (nodes : Ref → ApNode) (scan : Scan) (kind : List Entry → Entry → Prop) : Prop :=
  ∀ ssid ∈ disSSID, (∃ served, Eligible v nodes scan ssid served) →
    Clear v order disSSID nodes scan ssid kind

/-- An agent that serves an SSID is listed with one mark only. -/
def ListedOnce (nodes : Ref → ApNode) (scan : Scan) : Prop :=
  ∀ ssid one other, Eligible v nodes scan ssid one → Eligible v nodes scan ssid other →
    one.agent = other.agent →
    one.mark = other.mark

/-! The loops make the offers. -/

def held (selection : Selection) (ssid : Text) : Option Ref :=
  selection.agentHashtable.bind fun table => table.lookup ssid

structure Follows (nodes : Ref → ApNode) (offers : Offers) (selection : Selection) : Prop where
  same : selection.app.apNodes = nodes
  known : selection.app.ssidOnAP = offers.known
  marks : ∀ mark ssid, isBelow selection.dismark mark ssid = true ↔ Beats offers.made mark ssid
  holds : ∀ ssid agent, held selection ssid = some agent ↔ ∃ last, Holds v offers.made ssid last ∧
    last.agent = agent

theorem offer_changes (agent : Ref) (pmark : Int) (selection : Selection) (ssid : Text)
    (started : selection.agentHashtable.isSome) :
    (offer v disSSID agent pmark selection ssid).app = selection.app ∧
    (offer v disSSID agent pmark selection ssid).agentHashtable.isSome ∧ ∀ other,
      (offer v disSSID agent pmark selection ssid).dismark.lookup other =
        (if other ∈ [ssid].filter disSSID.contains ∧
          isBelow selection.dismark pmark other = true then some pmark
         else selection.dismark.lookup other) ∧
      held (offer v disSSID agent pmark selection ssid) other =
        if (other ∈ [ssid].filter disSSID.contains ∧ isBelow selection.dismark pmark other = true) ∧
          other ∈ (v.agents agent).ssidSet then some agent
        else held selection other := by
  -- one SSID that an agent comes to, and what all the others keep
  obtain ⟨table, made⟩ := Option.isSome_iff_exists.mp started
  unfold offer
  by_cases taken : (disSSID.contains ssid && isBelow selection.dismark pmark ssid) = true
  · rw [if_pos taken]
    rw [Bool.and_eq_true] at taken
    refine ⟨rfl, ?_, ?_⟩
    · dsimp only
      split
      · rw [made]
        rfl
      · exact started
    · intro other
      dsimp only [held]
      rw [made, List.filter_cons_of_pos taken.1, List.filter_nil]
      simp only [List.mem_singleton]
      by_cases own : other = ssid
      · subst own
        rw [AList.lookup_insert, if_pos ⟨rfl, taken.2⟩]
        refine ⟨rfl, ?_⟩
        by_cases serves : other ∈ (v.agents agent).ssidSet
        · rw [if_pos (List.contains_iff_mem.mpr serves), if_pos ⟨⟨rfl, taken.2⟩, serves⟩]
          exact AList.lookup_insert table
        · rw [if_neg (fun inside => serves (List.contains_iff_mem.mp inside)),
            if_neg (fun both => serves both.2)]
      · have kept : ¬ ((other = ssid ∧ isBelow selection.dismark pmark other = true) ∧
            other ∈ (v.agents agent).ssidSet) := fun both => own both.1.1
        rw [AList.lookup_insert_ne own, if_neg (fun both => own both.1), if_neg kept]
        refine ⟨rfl, ?_⟩
        split
        · exact AList.lookup_insert_ne own
        · rfl
  · rw [if_neg taken]
    refine ⟨rfl, started, ?_⟩
    intro other
    have untouched : ¬ (other ∈ [ssid].filter disSSID.contains ∧
        isBelow selection.dismark pmark other = true) := by
      rintro ⟨member, below⟩
      obtain ⟨own, asked⟩ := List.mem_filter.mp member
      rw [List.mem_singleton.mp own] at asked below
      exact taken (Bool.and_eq_true_iff.mpr ⟨asked, below⟩)
    rw [if_neg untouched, if_neg (fun both => untouched both.1)]
    exact ⟨rfl, rfl⟩

theorem offers_change (agent : Ref) (pmark : Int) (items : List Text) (selection : Selection)
    (started : selection.agentHashtable.isSome) :
    (items.foldl (offer v disSSID agent pmark) selection).app = selection.app ∧ ∀ other,
      (items.foldl (offer v disSSID agent pmark) selection).dismark.lookup other =
        (if other ∈ items.filter disSSID.contains ∧
          isBelow selection.dismark pmark other = true then some pmark
         else selection.dismark.lookup other) ∧
      held (items.foldl (offer v disSSID agent pmark) selection) other =
        if (other ∈ items.filter disSSID.contains ∧ isBelow selection.dismark pmark other = true) ∧
          other ∈ (v.agents agent).ssidSet then some agent
        else held selection other := by
  -- the induction over the SSIDs an agent comes to
  induction items generalizing selection with
  | nil => simp
  | cons ssid rest ih =>
      obtain ⟨app, some', changed⟩ := offer_changes v disSSID agent pmark selection ssid started
      obtain ⟨laterApp, later⟩ := ih (offer v disSSID agent pmark selection ssid) some'
      refine ⟨laterApp.trans app, ?_⟩
      intro other
      rw [List.foldl_cons, (later other).1, (later other).2, (changed other).1, (changed other).2]
      have split : other ∈ (ssid :: rest).filter disSSID.contains ↔
          other ∈ [ssid].filter disSSID.contains ∨ other ∈ rest.filter disSSID.contains := by
        rw [← List.mem_append, ← List.filter_append, List.singleton_append]
      have below : isBelow (offer v disSSID agent pmark selection ssid).dismark pmark other = true ↔
          isBelow selection.dismark pmark other = true ∧
              other ∉ [ssid].filter disSSID.contains := by
        unfold isBelow
        rw [(changed other).1]
        split_ifs with taken
        · simp [taken.1]
        · constructor
          · intro under
            exact ⟨under, fun member => taken ⟨member, under⟩⟩
          · exact fun both => both.1
      simp only [split, below]
      by_cases under : isBelow selection.dismark pmark other = true
      · by_cases first : other ∈ [ssid].filter disSSID.contains
        · simp [under, first]
        · simp [under, first]
      · simp [under]

theorem holds_append (made : List Offer) (latest : Offer) (ssid : Text) (last : Offer) :
    Holds v (made ++ [latest]) ssid last ↔
      (Takes v made latest ssid ∧ last = latest) ∨
        (¬ Takes v made latest ssid ∧ Holds v made ssid last) := by
  constructor
  · rintro ⟨before, after, shape, takes, final⟩
    rcases List.eq_nil_or_concat after with rfl | ⟨middle, end', rfl⟩
    · obtain ⟨rfl, same⟩ := List.append_inj' shape rfl
      rw [List.cons.injEq] at same
      exact .inl ⟨same.1 ▸ takes, same.1.symm⟩
    · rw [List.concat_eq_append, ← List.cons_append, ← List.append_assoc] at shape
      obtain ⟨rfl, same⟩ := List.append_inj' shape rfl
      rw [List.cons.injEq] at same
      refine .inr ⟨same.1 ▸ final middle end' [] (List.concat_eq_append ..), before, middle, rfl,
        takes, ?_⟩
      intro between later rest split
      exact final between later (rest ++ [end'])
        (by rw [List.concat_eq_append, split, List.append_assoc, List.cons_append])
  · rintro (⟨takes, rfl⟩ | ⟨leaves, before, after, rfl, takes, final⟩)
    · exact ⟨made, [], rfl, takes, fun between later rest split => by simp at split⟩
    · refine ⟨before, after ++ [latest], by rw [List.append_assoc, List.cons_append], takes, ?_⟩
      intro between later rest split
      rcases List.eq_nil_or_concat rest with rfl | ⟨middle, end', rfl⟩
      · obtain ⟨rfl, same⟩ := List.append_inj' split rfl
        rw [List.cons.injEq] at same
        exact same.1 ▸ leaves
      · rw [List.concat_eq_append, ← List.cons_append, ← List.append_assoc] at split
        obtain ⟨rfl, -⟩ := List.append_inj' split rfl
        exact final between later middle rfl

theorem beats_append (made : List Offer) (latest : Offer) (mark : Int) (ssid : Text) :
    Beats (made ++ [latest]) mark ssid ↔ Beats made mark ssid ∧
      (ssid ∈ latest.ssids → latest.mark < mark) := by
  unfold Beats
  simp [or_imp, forall_and]

theorem beats_trans {made : List Offer} {mark higher : Int} {ssid : Text}
    (beats : Beats made mark ssid) (below : mark < higher) : Beats made higher ssid :=
  fun earlier member comes => (beats earlier member comes).trans below

theorem marks_offered {dismark : AList fun _ : Text => Int} {made : List Offer}
    (marks : ∀ mark ssid, isBelow dismark mark ssid = true ↔ Beats made mark ssid) (agent : Ref)
    (mark : Int)
    (ssids : List Text) (after : AList fun _ : Text => Int) (ssid : Text)
    (changed : after.lookup ssid =
      if ssid ∈ ssids ∧ isBelow dismark mark ssid = true then some mark else dismark.lookup ssid)
        (other : Int) :
    isBelow after other ssid = true ↔ Beats (made ++ [⟨agent, mark, ssids⟩]) other ssid := by
  -- the marks after an offer are those of all the offers so far
  rw [beats_append, ← marks other ssid]
  unfold isBelow at changed ⊢
  rw [changed]
  change Option.all _ (if ssid ∈ ssids ∧ isBelow dismark mark ssid = true then _ else _) = true ↔
    isBelow dismark other ssid = true ∧ _
  by_cases comes : ssid ∈ ssids
  · by_cases under : isBelow dismark mark ssid = true
    · rw [if_pos ⟨comes, under⟩]
      simp only [Option.all_some, decide_eq_true_eq]
      constructor
      · intro below
        exact ⟨(marks other ssid).mpr (beats_trans ((marks mark ssid).mp under) below), fun _ =>
          below⟩
      · exact fun both => both.2 comes
    · rw [if_neg (fun both => under both.2)]
      refine ⟨fun below => ⟨below, fun _ => ?_⟩, fun both => both.1⟩
      by_contra notBelow
      have beats := (marks other ssid).mp below
      exact under ((marks mark ssid).mpr fun earlier member comes =>
        (beats earlier member comes).trans_le (Int.not_lt.mp notBelow))
  · rw [if_neg (fun both => comes both.1)]
    exact ⟨fun below => ⟨below, fun inside => absurd inside comes⟩, fun both => both.1⟩

theorem considerAp_follows (nodes : Ref → ApNode) (list : List Ref) (offers : Offers)
    (selection : Selection) (ap agent : Ref) (follows : Follows v nodes offers selection)
    (tracked : v.agentMap (nodes ap).apMAC = some agent)
    (real : selection.app.faultAP.contains ap = false) :
    Follows v nodes (extend v order disSSID offers ⟨agent, markOf v nodes list ap agent⟩)
        (considerAp v order disSSID list selection ap) ∧
      (considerAp v order disSSID list selection ap).app.faultAP = selection.app.faultAP := by
  -- one node of the loop is one entry of the offers
  obtain ⟨same, known, marks, holds⟩ := follows
  unfold considerAp extend
  rw [same, tracked]
  dsimp only
  rw [real]
  simp only [Bool.false_eq_true, if_false]
  generalize markOf v nodes list ap agent = mark
  unfold disAgentCheck
  dsimp only
  rw [known]
  generalize (v.agents agent).ssidSet.foldl (fun known ssid => known.insert ssid) offers.known =
    seen
  have improves : (v.agents agent).ssidSet.any (isBelow selection.dismark mark) = true ↔
      ∃ ssid ∈ (v.agents agent).ssidSet, Beats offers.made mark ssid := by
    rw [List.any_eq_true]
    exact exists_congr fun ssid => and_congr_right fun _ => marks mark ssid
  by_cases offers' : ∃ ssid ∈ (v.agents agent).ssidSet, Beats offers.made mark ssid
  · rw [if_pos (improves.mpr offers'), if_pos offers']
    obtain ⟨app, changed⟩ := offers_change v disSSID agent mark
      ((order.arrange seen).take (changeNum v agent seen).toNat)
      { selection with
        app := { selection.app with ssidOnAP := seen }
        agentHashtable := some (selection.agentHashtable.getD ∅) } rfl
    have come : ((order.arrange seen).take (changeNum v agent seen).toNat).filter disSSID.contains =
        turns v order disSSID seen agent := rfl
    simp only [come] at changed
    have before (ssid : Text) : ((selection.agentHashtable.getD ∅).lookup ssid) =
        held selection ssid := by
      unfold held
      cases selection.agentHashtable <;> rfl
    refine ⟨⟨?_, ?_, ?_, ?_⟩, by rw [app]⟩
    · rw [app]
      exact same
    · rw [app]
    · intro other ssid
      exact marks_offered marks agent mark _ _ ssid (changed ssid).1 other
    · intro ssid holder
      rw [(changed ssid).2]
      dsimp only [held, Option.bind_some]
      rw [before]
      have takes : Takes v offers.made ⟨agent, mark, turns v order disSSID seen agent⟩ ssid ↔
          (ssid ∈ turns v order disSSID seen agent ∧ isBelow selection.dismark mark ssid = true) ∧
            ssid ∈ (v.agents agent).ssidSet := by
        unfold Takes
        rw [marks mark ssid]
        tauto
      simp only [holds_append, takes]
      by_cases taken : (ssid ∈ turns v order disSSID seen agent ∧
        isBelow selection.dismark mark ssid = true) ∧
            ssid ∈ (v.agents agent).ssidSet
      · rw [if_pos taken]
        simp only [taken, not_true, false_and, or_false, true_and, exists_eq_left,
          Option.some.injEq]
      · rw [if_neg taken, holds ssid holder]
        simp only [taken, not_false_eq_true, false_and, false_or, true_and]
  · rw [if_neg (fun any => offers' (improves.mp any)), if_neg offers']
    exact ⟨⟨same, rfl, marks, holds⟩, rfl⟩

def IsFakeAp (nodes : Ref → ApNode) (ap : Ref) : Prop :=
  ∃ agent, v.agentMap (nodes ap).apMAC = some agent ∧ isFake v disSSID agent = true

theorem checkFakeAp_mem (app : App) (item ap : Ref) :
    ap ∈ (checkFakeAp v disSSID app item).faultAP ↔
      ap ∈ app.faultAP ∨ (ap = item ∧ IsFakeAp v disSSID app.apNodes ap) := by
  unfold checkFakeAp IsFakeAp isFake
  cases tracked : v.agentMap (app.apNodes item).apMAC with
  | none =>
      refine ⟨.inl, ?_⟩
      rintro (old | ⟨rfl, agent, found, -⟩)
      · exact old
      · rw [tracked] at found
        cases found
  | some agent =>
      dsimp only
      by_cases full : getVapContainerIdle v agent ≤ 0
      · rw [if_pos full]
        refine ⟨.inl, ?_⟩
        rintro (old | ⟨rfl, other, found, fake⟩)
        · exact old
        · rw [tracked, Option.some.injEq] at found
          subst found
          simp [full] at fake
      · rw [if_neg full]
        by_cases serves : (v.agents agent).ssidSet.any disSSID.contains = true
        · rw [if_pos serves]
          refine ⟨.inl, ?_⟩
          rintro (old | ⟨rfl, other, found, fake⟩)
          · exact old
          · rw [tracked, Option.some.injEq] at found
            subst found
            simp only [serves, Bool.not_true, Bool.and_false, Bool.false_eq_true] at fake
        · rw [if_neg serves]
          dsimp only
          rw [List.mem_insert_iff]
          constructor
          · rintro (rfl | old)
            · refine .inr ⟨rfl, agent, tracked, ?_⟩
              simp only [Bool.not_eq_true] at serves
              rw [serves]
              simpa using full
            · exact .inl old
          · rintro (old | ⟨rfl, -⟩)
            · exact .inr old
            · exact .inl rfl

theorem checkFakeAp_kept (app : App) (item : Ref) :
    (checkFakeAp v disSSID app item).apNodes = app.apNodes ∧
      (checkFakeAp v disSSID app item).ssidOnAP = app.ssidOnAP := by
  unfold checkFakeAp
  split
  · exact ⟨rfl, rfl⟩
  · split_ifs <;> exact ⟨rfl, rfl⟩

theorem checkFake_mem (list : List Ref) (app : App) :
    (checkFakeApfromCha v disSSID app list).apNodes = app.apNodes ∧
    (checkFakeApfromCha v disSSID app list).ssidOnAP = app.ssidOnAP ∧ ∀ ap,
      ap ∈ (checkFakeApfromCha v disSSID app list).faultAP ↔
        ap ∈ app.faultAP ∨ (ap ∈ list ∧ IsFakeAp v disSSID app.apNodes ap) := by
  -- the induction over the nodes of a list
  unfold checkFakeApfromCha
  induction list generalizing app with
  | nil => simp
  | cons item rest ih =>
      obtain ⟨nodes, known⟩ := checkFakeAp_kept v disSSID app item
      obtain ⟨laterNodes, laterKnown, later⟩ := ih (checkFakeAp v disSSID app item)
      refine ⟨laterNodes.trans nodes, laterKnown.trans known, ?_⟩
      intro ap
      rw [List.foldl_cons, later ap, checkFakeAp_mem, nodes, List.mem_cons]
      tauto

theorem nodes_follow (nodes : Ref → ApNode) (list items : List Ref) (offers : Offers)
    (selection : Selection) (follows : Follows v nodes offers selection)
    (faults : ∀ ap ∈ items, ap ∈ selection.app.faultAP ↔ IsFakeAp v disSSID nodes ap) :
    Follows v nodes ((visits v disSSID nodes list items).foldl (extend v order disSSID) offers)
        (items.foldl (considerAp v order disSSID list) selection) ∧
      (items.foldl (considerAp v order disSSID list) selection).app.faultAP =
        selection.app.faultAP := by
  -- the induction over the nodes that are left of a list
  induction items generalizing offers selection with
  | nil => exact ⟨follows, rfl⟩
  | cons ap rest ih =>
      have others (after : Selection) (same : after.app.faultAP = selection.app.faultAP) :
          ∀ other ∈ rest, other ∈ after.app.faultAP ↔ IsFakeAp v disSSID nodes other := by
        intro other member
        rw [same]
        exact faults other (List.mem_cons_of_mem _ member)
      have own := faults ap List.mem_cons_self
      have skipped (same : considerAp v order disSSID list selection ap = selection)
          (none' : visits v disSSID nodes list (ap :: rest) = visits v disSSID nodes list rest) :
          Follows v nodes ((visits v disSSID nodes list (ap :: rest)).foldl (extend v order disSSID)
            offers)
              ((ap :: rest).foldl (considerAp v order disSSID list) selection) ∧
            ((ap :: rest).foldl (considerAp v order disSSID list) selection).app.faultAP =
                selection.app.faultAP := by
        rw [List.foldl_cons, same, none']
        exact ih offers selection follows (others selection rfl)
      cases tracked : v.agentMap (nodes ap).apMAC with
      | none =>
          apply skipped
          · unfold considerAp
            rw [follows.same, tracked]
          · unfold visits
            rw [List.filterMap_cons_none (by unfold entry; rw [tracked]; rfl)]
      | some agent =>
          have found : entry v nodes list ap = some ⟨agent, markOf v nodes list ap agent⟩ := by
            unfold entry
            rw [tracked]
            rfl
          by_cases fake : isFake v disSSID agent = true
          · apply skipped
            · unfold considerAp
              rw [follows.same, tracked]
              exact if_pos (List.contains_iff_mem.mpr (own.mpr ⟨agent, tracked, fake⟩))
            · unfold visits
              rw [List.filterMap_cons_some found, List.filter_cons_of_neg (by simp [fake])]
          · have real : selection.app.faultAP.contains ap = false := by
              by_contra inside
              rw [Bool.not_eq_false, List.contains_iff_mem, own] at inside
              obtain ⟨other, known, faked⟩ := inside
              rw [tracked, Option.some.injEq] at known
              exact fake (known ▸ faked)
            obtain ⟨next, kept⟩ := considerAp_follows v order disSSID nodes list offers
              selection ap agent follows tracked real
            obtain ⟨last, lastKept⟩ := ih _ _ next (others _ kept)
            have visit : visits v disSSID nodes list (ap :: rest) =
                ⟨agent, markOf v nodes list ap agent⟩ :: visits v disSSID nodes list rest := by
              unfold visits
              rw [List.filterMap_cons_some found, List.filter_cons_of_pos (by simpa using fake)]
            rw [visit]
            exact ⟨last, lastKept.trans kept⟩

theorem considerChannel_follows (nodes : Ref → ApNode) (scan : Scan) (offers : Offers)
    (selection : Selection) (index : Int) (follows : Follows v nodes offers selection)
    (faults : ∀ ap ∈ selection.app.faultAP, IsFakeAp v disSSID nodes ap) :
    Follows v nodes ((match scan index with
        | none => []
        | some list => visits v disSSID nodes list list).foldl (extend v order disSSID) offers)
        (considerChannel v order disSSID scan selection index) ∧
      ∀ ap ∈ (considerChannel v order disSSID scan selection index).app.faultAP,
          IsFakeAp v disSSID nodes ap := by
  unfold considerChannel
  cases scan index with
  | none => exact ⟨follows, faults⟩
  | some list =>
      dsimp only
      obtain ⟨same, known, members⟩ := checkFake_mem v disSSID list selection.app
      rw [follows.same] at members
      have checked : Follows v nodes offers
          { selection with app := checkFakeApfromCha v disSSID selection.app list } :=
        ⟨same.trans follows.same, known.trans follows.known, follows.marks, follows.holds⟩
      have all : ∀ ap ∈ (checkFakeApfromCha v disSSID selection.app list).faultAP,
          IsFakeAp v disSSID nodes ap := by
        intro ap member
        rcases (members ap).mp member with old | ⟨-, fake⟩
        · exact faults ap old
        · exact fake
      obtain ⟨after, kept⟩ := nodes_follow v order disSSID nodes list list offers _ checked
        (fun ap member => ⟨all ap, fun fake => (members ap).mpr (.inr ⟨member, fake⟩)⟩)
      refine ⟨after, ?_⟩
      rw [kept]
      exact all

theorem selection_follows (nodes : Ref → ApNode) (tables : AList fun _ : Text => Scan)
    (staMAC : Text) (scan : Scan) :
    ∃ selection, channelAPSelecM2 v order (newApp nodes tables staMAC scan) staMAC disSSID =
      some selection ∧
      Follows v nodes (offersOf v order disSSID (visited v disSSID nodes scan)) selection := by
  have walk (indices : List Int) (offers : Offers) (selection : Selection)
      (follows : Follows v nodes offers selection)
      (faults : ∀ ap ∈ selection.app.faultAP, IsFakeAp v disSSID nodes ap) :
      Follows v nodes ((indices.flatMap fun index => match scan index with
          | none => []
          | some list => visits v disSSID nodes list list).foldl (extend v order disSSID) offers)
        (indices.foldl (considerChannel v order disSSID scan) selection) := by
    induction indices generalizing offers selection with
    | nil => exact follows
    | cons index rest ih =>
        obtain ⟨next, left⟩ := considerChannel_follows v order disSSID nodes scan offers selection
            index follows faults
        rw [List.flatMap_cons, List.foldl_append, List.foldl_cons]
        exact ih _ _ next left
  have started : Follows v nodes {} { app := newApp nodes tables staMAC scan } := by
    refine ⟨rfl, rfl, fun mark ssid => ?_, fun ssid agent => ?_⟩
    · exact iff_of_true (by simp [isBelow]) (by simp [Beats])
    · refine iff_of_false (by simp [held]) ?_
      rintro ⟨last, ⟨before, after, shape, -⟩, -⟩
      simp at shape
  refine ⟨_, ?_, walk walked {} _ started (by simp [newApp])⟩
  unfold channelAPSelecM2
  rw [show (newApp nodes tables staMAC scan).sta2ChannelScan.lookup staMAC =
    some scan from AList.lookup_insert tables]
  rfl

theorem made_eligible (nodes : Ref → ApNode) (scan : Scan) (made : Offer) (ssid : Text)
    (member : made ∈ (offersOf v order disSSID (visited v disSSID nodes scan)).made)
    (comes : ssid ∈ made.ssids)
    (serves : ssid ∈ (v.agents made.agent).ssidSet) :
    Eligible v nodes scan ssid ⟨made.agent, made.mark⟩ := by
  -- the induction is on the entries taken up so far
  have from' (entries : List Entry) (offer : Offer)
      (inside : offer ∈ (offersOf v order disSSID entries).made) :
      (⟨offer.agent, offer.mark⟩ : Entry) ∈ entries ∧
          ∃ known, offer.ssids = turns v order disSSID known offer.agent := by
    induction entries using List.reverseRecOn with
    | nil => cases inside
    | append_singleton earlier latest ih =>
        have older (old : offer ∈ (offersOf v order disSSID earlier).made) := ih old
        unfold offersOf at inside older
        rw [List.foldl_append, List.foldl_cons, List.foldl_nil] at inside
        unfold extend at inside
        dsimp only at inside
        split at inside
        · rcases List.mem_append.mp inside with old | new
          · exact ⟨List.mem_append_left _ (older old).1, (older old).2⟩
          · rw [List.mem_singleton.mp new]
            exact ⟨List.mem_append_right _ (List.mem_singleton.mpr rfl), _, rfl⟩
        · exact ⟨List.mem_append_left _ (older inside).1, (older inside).2⟩
  obtain ⟨entered, known, came⟩ := from' _ made member
  refine ⟨?_, serves, ?_⟩
  · obtain ⟨index, -, inside⟩ := List.mem_flatMap.mp entered
    cases found : scan index with
    | none =>
        rw [found] at inside
        cases inside
    | some list =>
        rw [found] at inside
        obtain ⟨ap, here, own⟩ := List.mem_filterMap.mp (List.mem_filter.mp inside).1
        exact ⟨index, list, found, ap, here, own⟩
  · by_contra full
    dsimp only at full
    have none' : (changeNum v made.agent known).toNat = 0 := by
      unfold changeNum
      split_ifs <;> omega
    rw [came, turns, none', List.take_zero] at comes
    cases comes

theorem holds_best_iff (nodes : Ref → ApNode) (scan : Scan) (made : List Offer) (ssid : Text)
    (eligible : ∀ offer ∈ made, ssid ∈ offer.ssids → ssid ∈ (v.agents offer.agent).ssidSet →
      Eligible v nodes scan ssid ⟨offer.agent, offer.mark⟩) :
    (∃ last best, Holds v made ssid last ∧ best.agent = last.agent ∧
      Eligible v nodes scan ssid best ∧
      Best v nodes scan ssid best.mark) ↔ Direct v nodes scan made ssid ∨
        Twice v nodes scan made ssid := by
  -- the last offer that took an SSID, set against the best mark
  constructor
  · rintro ⟨last, best, ⟨before, after, shape, takes, final⟩, same, possible, highest⟩
    have own := eligible last (by rw [shape]; simp) takes.1 takes.2.1
    rcases Int.lt_or_eq_of_le (highest _ own) with lower | equal
    · exact .inr ⟨last, best, ⟨before, after, shape, takes, final⟩, same, lower, possible, highest⟩
    · dsimp only at equal
      exact .inl ⟨before, last, after, shape, takes, equal ▸ highest⟩
  · rintro (⟨before, best, after, rfl, takes, highest⟩ |
      ⟨last, best, holds, same, -, possible, highest⟩)
    · have possible := eligible best (by simp) takes.1 takes.2.1
      refine ⟨best, ⟨best.agent, best.mark⟩, ⟨before, after, rfl, takes, ?_⟩, rfl, possible,
        highest⟩
      -- a later one would have to have a better mark
      rintro between later rest rfl ⟨comes, serves, beats⟩
      have below := highest _ (eligible later (by simp) comes serves)
      have above := beats best (by simp) takes.1
      dsimp only at below
      omega
    · exact ⟨last, best, holds, same, possible, highest⟩

theorem optimal_taken (nodes : Ref → ApNode) (tables : AList fun _ : Text => Scan) (staMAC : Text)
    (scan : Scan) :
    Optimal v order disSSID nodes tables staMAC scan ↔ Taken v order disSSID nodes scan := by
  obtain ⟨selection, chosen, follows⟩ := selection_follows v order disSSID nodes tables staMAC scan
  refine forall_congr' fun ssid => forall_congr' fun _ => forall_congr' fun _ => ?_
  rw [← holds_best_iff v nodes scan _ ssid
    (fun offer member comes serves => made_eligible v order disSSID nodes scan offer ssid member
      comes serves)]
  constructor
  · rintro ⟨other, table, best, same, made, found, possible, highest⟩
    rw [chosen, Option.some.injEq] at same
    subst same
    have holder : held selection ssid = some best.agent := by
      unfold held
      rw [made]
      exact found
    obtain ⟨last, holds, own⟩ := (follows.holds ssid best.agent).mp holder
    exact ⟨last, best, holds, own.symm, possible, highest⟩
  · rintro ⟨last, best, holds, same, possible, highest⟩
    have holder := (follows.holds ssid best.agent).mpr ⟨last, holds, same.symm⟩
    obtain ⟨table, made, found⟩ := Option.bind_eq_some_iff.mp holder
    exact ⟨selection, table, best, chosen, made, found, possible, highest⟩

/-! Who makes an offer. -/

section Made
variable {v : View} {order : Order} {disSSID : List Text}

variable (v order disSSID) in
theorem offersOf_known (entries : List Entry) :
    (offersOf v order disSSID entries).known = seen v entries := by
  have walk (offers : Offers) (known : List Text) (same : offers.known = known) :
      (entries.foldl (extend v order disSSID) offers).known =
        entries.foldl (fun known entry => (v.agents entry.agent).ssidSet.foldl
          (fun known ssid => known.insert ssid) known)
          known := by
    induction entries generalizing offers known with
    | nil => exact same
    | cons entry rest ih =>
        apply ih
        unfold extend
        dsimp only
        split <;> rw [same]
  exact walk {} [] rfl

variable (v order disSSID) in
theorem offersOf_snoc (front : List Entry) (entry : Entry) :
    (offersOf v order disSSID (front ++ [entry])).made =
      if ∃ ssid ∈ (v.agents entry.agent).ssidSet,
        Beats (offersOf v order disSSID front).made entry.mark ssid then
        (offersOf v order disSSID front).made ++
          [⟨entry.agent, entry.mark, turns v order disSSID (seen v (front ++ [entry])) entry.agent⟩]
      else (offersOf v order disSSID front).made := by
  have known := offersOf_known v order disSSID (front ++ [entry])
  unfold offersOf at known ⊢
  rw [List.foldl_append, List.foldl_cons, List.foldl_nil] at known ⊢
  unfold extend at known ⊢
  dsimp only at known ⊢
  split
  · rename_i beats
    rw [if_pos beats] at known
    rw [← known]
  · rfl

theorem made_entry {entries : List Entry} {before : List Offer} {made : Offer} {after : List Offer}
    (shape : (offersOf v order disSSID entries).made = before ++ made :: after) :
    ∃ front entry rest, entries = front ++ entry :: rest ∧
      (offersOf v order disSSID front).made = before ∧
      (∃ own ∈ (v.agents entry.agent).ssidSet, Beats before entry.mark own) ∧
      made = ⟨entry.agent, entry.mark,
        turns v order disSSID (seen v (front ++ [entry])) entry.agent⟩ := by
  -- an offer is that of an entry, which beats the offers of those in front of it
  induction entries using List.reverseRecOn generalizing after with
  | nil => simp [offersOf] at shape
  | append_singleton earlier latest ih =>
      have older {later : List Offer}
          (old : (offersOf v order disSSID earlier).made = before ++ made :: later) :
          ∃ front entry rest, earlier ++ [latest] = front ++ entry :: rest ∧
            (offersOf v order disSSID front).made = before ∧
            (∃ own ∈ (v.agents entry.agent).ssidSet, Beats before entry.mark own) ∧
            made = ⟨entry.agent, entry.mark,
                turns v order disSSID (seen v (front ++ [entry])) entry.agent⟩ := by
        obtain ⟨front, entry, rest, rfl, found⟩ := ih old
        exact ⟨front, entry, rest ++ [latest], by simp, found⟩
      rw [offersOf_snoc] at shape
      split at shape
      · -- the offer is the new one, or one of the old
        rename_i beats
        rcases List.eq_nil_or_concat after with rfl | ⟨later, last, rfl⟩
        · obtain ⟨old, new⟩ := List.append_inj' shape rfl
          exact ⟨earlier, latest, [], rfl, old, old ▸ beats, (List.cons.inj new).1.symm⟩
        · rw [List.concat_eq_append, ← List.cons_append, ← List.append_assoc] at shape
          exact older (List.append_inj' shape rfl).1
      · exact older shape

variable (v order disSSID) in
theorem offersOf_append (front rest : List Entry) :
    ∃ more, (offersOf v order disSSID (front ++ rest)).made =
    (offersOf v order disSSID front).made ++ more := by
  induction rest using List.reverseRecOn with
  | nil => exact ⟨[], by simp⟩
  | append_singleton rest latest ih =>
      obtain ⟨more, same⟩ := ih
      rw [← List.append_assoc, offersOf_snoc]
      split
      · exact ⟨more ++ [_], by rw [same, List.append_assoc]⟩
      · exact ⟨more, same⟩

/-- Once an agent that serves an SSID has come to it, no mark up to its own beats the offers for it.
-/
theorem served_marked {front rest : List Entry} {entry : Entry} {ssid : Text} {mark : Int}
    (serves : ssid ∈ (v.agents entry.agent).ssidSet)
    (comes : Comes v order disSSID front entry ssid)
    (below : mark ≤ entry.mark) :
    ¬ Beats (offersOf v order disSSID (front ++ entry :: rest)).made mark ssid := by
  intro beats
  obtain ⟨more, grown⟩ := offersOf_append v order disSSID (front ++ [entry]) rest
  have made := offersOf_snoc v order disSSID front entry
  rw [List.append_assoc, List.singleton_append] at grown
  by_cases offers : ∃ own ∈ (v.agents entry.agent).ssidSet,
    Beats (offersOf v order disSSID front).made entry.mark own
  · rw [if_pos offers] at made
    have under := beats ⟨entry.agent, entry.mark,
        turns v order disSSID (seen v (front ++ [entry])) entry.agent⟩
      (by simp [grown, made]) comes
    exact absurd under (by dsimp only; omega)
  · rw [if_neg offers] at made
    -- the SSID has an offer with at least the mark of the agent
    refine offers ⟨ssid, serves, fun offer inside own => ?_⟩
    have under := beats offer (by rw [grown, made]; exact List.mem_append_left _ inside) own
    omega

theorem beats_of_lower {front : List Entry} {mark : Int} {ssid : Text}
    (lower : ∀ earlier other rest, front = earlier ++ other :: rest →
      ¬ Silent v order disSSID earlier other →
      Comes v order disSSID earlier other ssid → other.mark < mark) :
    Beats (offersOf v order disSSID front).made mark ssid := by
  intro offer inside comes
  obtain ⟨before, after, shape⟩ := List.append_of_mem inside
  obtain ⟨earlier, other, rest, rfl, rfl, ⟨own, owned, beats⟩, rfl⟩ := made_entry shape
  refine lower earlier other rest rfl (fun silent => ?_) comes
  obtain ⟨first, served, later, rfl, serves, came, below⟩ := silent own owned
  exact served_marked serves came below beats

theorem direct_of_clear {nodes : Ref → ApNode} {scan : Scan} {ssid : Text}
    (clear : Clear v order disSSID nodes scan ssid fun front other => ¬ Silent v order disSSID front
      other) :
    Direct v nodes scan (offersOf v order disSSID (visited v disSSID nodes scan)).made ssid := by
  obtain ⟨before, best, after, shape, serves, highest, comes, lower⟩ := clear
  have beats : Beats (offersOf v order disSSID before).made best.mark ssid :=
    beats_of_lower lower
  have made := offersOf_snoc v order disSSID before best
  rw [if_pos ⟨ssid, serves, beats⟩] at made
  obtain ⟨more, grown⟩ := offersOf_append v order disSSID (before ++ [best]) after
  rw [made, List.append_assoc, List.append_assoc, List.singleton_append, List.singleton_append,
    ← shape] at grown
  exact ⟨_, _, more, grown, ⟨comes, serves, beats⟩, highest⟩

theorem clear_of_direct {nodes : Ref → ApNode} {scan : Scan} {ssid : Text}
    (direct : Direct v nodes scan
      (offersOf v order disSSID (visited v disSSID nodes scan)).made ssid) :
    Clear v order disSSID nodes scan ssid (Loud v order disSSID) := by
  obtain ⟨before, best, after, shape, ⟨comes, serves, beats⟩, highest⟩ := direct
  obtain ⟨front, entry, rest, split, earlier, -, rfl⟩ := made_entry shape
  refine ⟨front, entry, rest, split, serves, highest, comes, ?_⟩
  intro first other later shape' ⟨name, named, louder⟩ here
  have offers : Beats (offersOf v order disSSID first).made other.mark name :=
    beats_of_lower fun front another rest before _ => louder front another rest before
  have made := offersOf_snoc v order disSSID first other
  rw [if_pos ⟨name, named, offers⟩] at made
  obtain ⟨more, grown⟩ := offersOf_append v order disSSID (first ++ [other]) later
  rw [made, List.append_assoc, List.append_assoc, List.singleton_append, List.singleton_append,
    ← shape', earlier] at grown
  refine beats ⟨other.agent, other.mark,
    turns v order disSSID (seen v (first ++ [other])) other.agent⟩ ?_ here
  rw [grown]
  exact List.mem_append_right _ List.mem_cons_self

end Made

/-- Where for every SSID the best agent comes to it before any other with such a mark, unless that
one is passed over for its own SSIDs, every SSID goes to a best agent. Conversely, if no agent has
two marks, no other one with such a mark comes to it before which is the loudest so far for an SSID
of its own. -/
theorem optimal_unspoiled (nodes : Ref → ApNode) (tables : AList fun _ : Text => Scan)
    (staMAC : Text) (scan : Scan) :
    (Unspoiled v order disSSID nodes scan
      (fun front other => ¬ Silent v order disSSID front other) →
      Optimal v order disSSID nodes tables staMAC scan) ∧
    (ListedOnce v nodes scan → Optimal v order disSSID nodes tables staMAC scan →
      Unspoiled v order disSSID nodes scan (Loud v order disSSID)) := by
  rw [optimal_taken]
  constructor
  · exact fun clear ssid asked served => .inl (direct_of_clear (clear ssid asked served))
  · intro once taken ssid asked served
    rcases taken ssid asked served with direct |
        ⟨last, best, ⟨before, after, shape, takes, -⟩, same, lower, possible, -⟩
    · exact clear_of_direct direct
    · have own := made_eligible v order disSSID nodes scan last ssid (by rw [shape]; simp) takes.1
          takes.2.1
      exact absurd (once ssid _ _ own possible same.symm) (by dsimp only; omega)

/-! Three APs, of which the loudest serves another SSID than the others. -/

def guest : Text := "guest".toList

def office : Text := "office".toList

def threeAps : View :=
  { View.empty with
    agents := fun agent => { ssidSet := if agent = 1 then [office] else [guest] }
    agentMap := fun mac => if mac = ['A'] then some 0 else if mac = ['B'] then some 1
      else if mac = ['C'] then some 2 else none }

def threeNodes (ap : Ref) : ApNode :=
  if ap = 0 then ⟨['A'], 1, -60, 0⟩ else if ap = 1 then ⟨['B'], 1, -20, 0⟩ else ⟨['C'], 1, -40, 0⟩

def threeScan (index : Int) : Option (List Ref) :=
  if index = 1 then some [0] else if index = 2 then some [1] else if index = 3 then some [2]
    else none

theorem three_sound : Sound threeAps [guest, office]
    ((channelAPSelecM2 threeAps .stored (newApp threeNodes ∅ [] threeScan) [] [guest, office]).get
      rfl) :=
  selection_sound threeAps .stored (newApp threeNodes ∅ [] threeScan) [] [guest, office]
    _ (Option.some_get _).symm

theorem three_eligible {scan : Scan}
    (single : ∀ index list, scan index = some list → list = [0] ∨ list = [1] ∨ list = [2])
    {ssid : Text} {entry : Entry} (eligible : Eligible threeAps threeNodes scan ssid entry) :
    entry = ⟨0, -120⟩ ∨ entry = ⟨1, -40⟩ ∨ entry = ⟨2, -80⟩ := by
  obtain ⟨⟨index, list, listed, ap, member, own⟩, -, -⟩ := eligible
  rcases single index list listed with rfl | rfl | rfl
  · rw [List.mem_singleton.mp member] at own
    exact .inl (Option.some.inj own).symm
  · rw [List.mem_singleton.mp member] at own
    exact .inr (.inl (Option.some.inj own).symm)
  · rw [List.mem_singleton.mp member] at own
    exact .inr (.inr (Option.some.inj own).symm)

def sortedScan (index : Int) : Option (List Ref) :=
  if index = 1 then some [0] else if index = 2 then some [2] else if index = 3 then some [1]
    else none

theorem sortedScan_single (index : Int) (list : List Ref) (listed : sortedScan index = some list) :
    list = [0] ∨ list = [1] ∨ list = [2] := by
  unfold sortedScan at listed
  split_ifs at listed
  · exact .inl (Option.some.inj listed).symm
  · exact .inr (.inr (Option.some.inj listed).symm)
  · exact .inr (.inl (Option.some.inj listed).symm)

theorem sorted_optimal : Optimal threeAps .stored [guest, office] threeNodes ∅ [] sortedScan := by
  have walk : visited threeAps [guest, office] threeNodes sortedScan =
      [⟨0, -120⟩, ⟨2, -80⟩, ⟨1, -40⟩] := by decide +kernel
  refine (optimal_unspoiled threeAps .stored [guest, office] threeNodes ∅ [] sortedScan).1 ?_
  intro ssid asked _
  rcases List.mem_cons.mp asked with rfl | later
  · refine ⟨[⟨0, -120⟩], ⟨2, -80⟩, [⟨1, -40⟩],
      walk, by decide, ?_, by unfold Comes; decide +kernel, ?_⟩
    · intro other eligible
      rcases three_eligible sortedScan_single eligible with rfl | rfl | rfl
      · decide
      · exact absurd eligible.2.1 (by decide)
      · decide
    · intro front other rest shape _ _
      have inside : other ∈ [(⟨0, -120⟩ : Entry)] := by rw [shape]; simp
      rw [List.mem_singleton.mp inside]
      decide
  · rw [List.mem_singleton.mp later]
    refine ⟨[⟨0, -120⟩, ⟨2, -80⟩],
      ⟨1, -40⟩, [], walk, by decide, ?_, by unfold Comes; decide +kernel, ?_⟩
    · intro other eligible
      rcases three_eligible sortedScan_single eligible with rfl | rfl | rfl
      · decide
      · decide
      · decide
    · intro front other rest shape _ _
      have lower : ∀ entry ∈ [(⟨0, -120⟩ : Entry), ⟨2, -80⟩], entry.mark < -40 := by decide
      exact lower other (by rw [shape]; simp)

theorem threeScan_single (index : Int) (list : List Ref) (listed : threeScan index = some list) :
    list = [0] ∨ list = [1] ∨ list = [2] := by
  unfold threeScan at listed
  split_ifs at listed
  · exact .inl (Option.some.inj listed).symm
  · exact .inr (.inl (Option.some.inj listed).symm)
  · exact .inr (.inr (Option.some.inj listed).symm)

/-- The guests go to the weaker of the two agents that serve them: the loudest one, which does not,
has raised the mark before the other was looked at. -/
theorem three_spoiled : (∀ agent,
      ((threeAps.agents agent).ssidSet.length : Int) ≤ getVapContainerIdle threeAps agent) ∧
    ¬ Optimal threeAps .stored [guest, office] threeNodes ∅ [] threeScan := by
  constructor
  · intro agent
    have room : getVapContainerIdle threeAps agent = 32 := rfl
    rw [room]
    unfold threeAps
    dsimp only
    split_ifs <;> decide
  · intro optimal
    have stronger : Eligible threeAps threeNodes threeScan guest ⟨2, -80⟩ :=
      ⟨⟨3, [2], rfl, 2, by decide, by decide⟩, by decide, by decide⟩
    obtain ⟨selection, table, best, chosen, made, found, possible, highest⟩ :=
      optimal guest (by decide) ⟨_, stronger⟩
    have given : ((channelAPSelecM2 threeAps .stored (newApp threeNodes ∅ [] threeScan) []
        [guest, office]).bind
        fun selection => held selection guest) = some 0 := by decide +kernel
    have first : best.agent = 0 := by
      rw [chosen, Option.bind_some, held, made, Option.bind_some, found, Option.some.injEq] at given
      exact given
    have mark : best.mark = -120 := by
      rcases three_eligible threeScan_single possible with rfl | rfl | rfl
      · rfl
      · cases first
      · cases first
    have above := highest _ stronger
    dsimp only at above
    omega

end LazyAS.MultiSelection

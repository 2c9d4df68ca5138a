import LazyAS.StepEffects

/-! The index of containers, kept twice: a station has its containers under their keys and so has
the agent. Both tables agree as long as an address that is reported again finds its former agent
gone or without containers, and commands name the agent that is registered for its address. -/
namespace LazyAS.ContainerIndex
open WireText ControllerView Master VapBindings BindingLaws ViewGrowth StationCoherence
  ViewGround ViewMoves
  StepEffects Runs

/-- Whatever a station has is with the registered agent, whatever a registered agent has is with
the station. Every address has twelve characters, so a key tells its parts. -/
structure TwoSided (b : Bindings) (agentMap : Text → Option Ref) : Prop where
  stored : ∀ s key c, (b.stored s).lookup key = some c →
    agentMap (b.agentMac (b.vapAgent c)) = some (b.vapAgent c) ∧
      (b.held (b.vapAgent c)).lookup key = some c ∧ b.vapStation c = s
  held : ∀ a key c, agentMap (b.agentMac a) = some a → (b.held a).lookup key = some c →
    (b.stored (b.vapStation c)).lookup key = some c
  agentLength : ∀ mac a, agentMap mac = some a → mac.length = 12
  stationLength : ∀ mac s, b.stationMap.lookup mac = some s → mac.length = 12

def TwoSidedView (v : View) : Prop := TwoSided (bindings v) v.agentMap

theorem two_sided_of {v w : View} {b : Bindings} (after : bindings w = b)
    (same : w.agentMap = v.agentMap) (two : TwoSided b v.agentMap) : TwoSidedView w := by
  unfold TwoSidedView
  rw [after, same]
  exact two

theorem TwoSidedView.alike {v w : View} (two : TwoSidedView v) (same : Alike v w) :
    TwoSidedView w :=
  two_sided_of same.bindings (same.read View.agentMap) two

section Assignments

variable {b : Bindings} {agentMap : Text → Option Ref} {isOpen : Ref → Bool}

theorem key_parts {agent agent' station station' ssid ssid' : Text}
    (agents : agent.length = agent'.length) (stations : station.length = station'.length)
    (same : agent ++ station ++ ssid = agent' ++ station' ++ ssid') :
    agent = agent' ∧ station = station' := by
  rw [List.append_assoc, List.append_assoc] at same
  obtain ⟨first, rest⟩ := List.append_inj same agents
  exact ⟨first, (List.append_inj rest stations).1⟩

theorem TwoSided.key_owner (two : TwoSided b agentMap) {s a c : Ref}
    {ssid : Text} (agent : agentMap (b.agentMac a) = some a)
    (station : b.stationMap.lookup (b.stationMac s) = some s)
    (agent' : agentMap (b.agentMac (b.vapAgent c)) = some (b.vapAgent c))
    (station' : b.stationMap.lookup (b.stationMac (b.vapStation c)) = some (b.vapStation c))
    (key : b.agentMac a ++ b.stationMac s ++ ssid = b.key c) :
    b.vapAgent c = a ∧ b.vapStation c = s := by
  have agents := (two.agentLength _ _ agent).trans (two.agentLength _ _ agent').symm
  have stations := (two.stationLength _ _ station).trans (two.stationLength _ _ station').symm
  obtain ⟨first, second⟩ := key_parts agents stations key
  rw [first, agent'] at agent
  rw [second, station'] at station
  exact ⟨Option.some.inj agent, Option.some.inj station⟩

theorem TwoSided.remove (two : TwoSided b agentMap) (grounded : Grounded b agentMap isOpen)
    {s a c : Ref} {key : Text} (stored : (b.stored s).lookup key = some c)
    (held : (b.held a).lookup key = some c) {b' : Bindings}
    (stores : b'.stored = Function.update b.stored s ((b.stored s).erase key))
    (holds : b'.held = Function.update b.held a ((b.held a).erase key))
    (vapAgent : b'.vapAgent = b.vapAgent)
    (vapStation : b'.vapStation = b.vapStation) (agentMac : b'.agentMac = b.agentMac)
    (stationMap : b'.stationMap = b.stationMap) : TwoSided b' agentMap := by
  have own : b.vapAgent c = a := (grounded.held a key c held).2.1
  have named : b.vapStation c = s := (two.stored s key c stored).2.2
  refine ⟨?_, ?_, two.agentLength, ?_⟩
  · intro t text d found
    rw [stores, lookup_erased] at found
    obtain ⟨known, withAgent, station⟩ := two.stored t text d found.2
    rw [holds, vapAgent, vapStation, agentMac, lookup_erased]
    refine ⟨known, ⟨?_, withAgent⟩, station⟩
    -- what the agent has under the key belongs to the one station
    rintro ⟨same, rfl⟩
    rw [same] at withAgent
    cases withAgent.symm.trans held
    exact found.1 ⟨station.symm.trans named, rfl⟩
  · intro e text d known found
    rw [agentMac] at known
    rw [holds, lookup_erased] at found
    have withStation := two.held e text d known found.2
    rw [stores, vapStation, lookup_erased]
    refine ⟨?_, withStation⟩
    rintro ⟨same, rfl⟩
    rw [same] at withStation
    cases withStation.symm.trans stored
    exact found.1 ⟨(grounded.held e _ c found.2).2.1.symm.trans own, rfl⟩
  · rw [stationMap]
    exact two.stationLength

theorem TwoSided.attach (two : TwoSided b agentMap) (grounded : Grounded b agentMap isOpen)
    {s a : Ref} {key : Text} (agent : agentMap (b.agentMac a) = some a)
    (freeStored : (b.stored s).lookup key = none) (freeHeld : (b.held a).lookup key = none)
    {b' : Bindings} (stores : b'.stored =
      Function.update b.stored s ((b.stored s).insert key b.nextVap))
    (holds : b'.held = Function.update b.held a ((b.held a).insert key b.nextVap))
    (vapAgent : b'.vapAgent = Function.update b.vapAgent b.nextVap a)
    (vapStation : b'.vapStation = Function.update b.vapStation b.nextVap s)
    (agentMac : b'.agentMac = b.agentMac)
    (stationMap : b'.stationMap = b.stationMap) : TwoSided b' agentMap := by
  -- a new container enters both tables under a key that was free on both sides
  refine ⟨?_, ?_, two.agentLength, ?_⟩
  · intro t text d found
    rw [stores, lookup_inserted] at found
    rw [holds, vapAgent, vapStation, agentMac, lookup_inserted]
    rcases found with ⟨rfl, rfl, rfl⟩ | ⟨-, before⟩
    · simp only [Function.update_self]
      exact ⟨agent, .inl ⟨trivial, trivial, trivial⟩, trivial⟩
    · have old : d ≠ b.nextVap := Nat.ne_of_lt (grounded.stored t text d before).1
      obtain ⟨known, withAgent, station⟩ := two.stored t text d before
      rw [Function.update_of_ne old, Function.update_of_ne old]
      refine ⟨known, .inr ⟨?_, withAgent⟩, station⟩
      rintro ⟨same, rfl⟩
      rw [same, freeHeld] at withAgent
      cases withAgent
  · intro e text d known found
    rw [agentMac] at known
    rw [holds, lookup_inserted] at found
    rw [stores, vapStation, lookup_inserted]
    rcases found with ⟨rfl, rfl, rfl⟩ | ⟨-, before⟩
    · rw [Function.update_self]
      exact .inl ⟨rfl, rfl, rfl⟩
    · have old : d ≠ b.nextVap := Nat.ne_of_lt (grounded.held e text d before).1
      have withStation := two.held e text d known before
      rw [Function.update_of_ne old]
      refine .inr ⟨?_, withStation⟩
      rintro ⟨same, rfl⟩
      rw [same, freeStored] at withStation
      cases withStation
  · rw [stationMap]
    exact two.stationLength

theorem TwoSided.congr (two : TwoSided b agentMap) {b' : Bindings} (stores : b'.stored = b.stored)
    (holds : b'.held = b.held) (vapAgent : b'.vapAgent = b.vapAgent)
    (vapStation : b'.vapStation = b.vapStation)
    (agentMac : b'.agentMac = b.agentMac)
    (stationLength : ∀ mac s, b'.stationMap.lookup mac = some s → mac.length = 12) :
    TwoSided b' agentMap where
  stored := by
    rw [stores, holds, vapAgent, vapStation, agentMac]
    exact two.stored
  held := by
    rw [stores, holds, vapStation, agentMac]
    exact two.held
  agentLength := two.agentLength
  stationLength := stationLength

theorem TwoSided.entry (two : TwoSided b agentMap) (grounded : Grounded b agentMap isOpen)
    {s a : Ref} (ssid : Text) (agent : agentMap (b.agentMac a) = some a)
    (station : b.stationMap.lookup (b.stationMac s) = some s) (c : Ref) :
    (b.stored s).lookup (b.agentMac a ++ b.stationMac s ++ ssid) = some c ↔
      (b.held a).lookup (b.agentMac a ++ b.stationMac s ++ ssid) = some c := by
  constructor
  · intro found
    obtain ⟨-, named, -⟩ := grounded.stored s _ c found
    obtain ⟨known, withAgent, own⟩ := two.stored s _ c found
    have owner := (two.key_owner agent station known (by rw [own]; exact station) named).1
    rwa [owner] at withAgent
  · intro found
    obtain ⟨-, own, named⟩ := grounded.held a _ c found
    have withStation := two.held a _ c agent found
    obtain ⟨-, -, tracked⟩ := grounded.stored _ _ c withStation
    have owner := (two.key_owner agent station (by rw [own]; exact agent) tracked named).2
    rwa [owner] at withStation

theorem lookup_none_iff {table table' : Table} {key : Text}
    (same : ∀ c, table.lookup key = some c ↔ table'.lookup key = some c) :
    table.lookup key = none ↔ table'.lookup key = none := by
  constructor
  · exact fun absent => lookup_none (fun c => (same c).mpr) absent
  · exact fun absent => lookup_none (fun c => (same c).mp) absent

theorem create_key_new (s a : Ref) (ssid : Text) :
    (b.create s a ssid).key b.nextVap = b.agentMac a ++ b.stationMac s ++ ssid := by
  simp [Bindings.key, Bindings.create]

theorem TwoSided.joined (two : TwoSided b agentMap) (grounded : Grounded b agentMap isOpen)
    {s a : Ref} {ssid : Text} (agent : agentMap (b.agentMac a) = some a)
    (station : b.stationMap.lookup (b.stationMac s) = some s)
    (absent : (b.stored s).lookup (b.agentMac a ++ b.stationMac s ++ ssid) = none) :
    TwoSided (joined b s a ssid) agentMap := by
  have free := (lookup_none_iff (two.entry grounded ssid agent station)).mp absent
  have key := create_key_new (b := b) s a ssid
  have open_key : (adopted (b.create s a ssid) s b.nextVap).key b.nextVap ∉
      (adopted (b.create s a ssid) s b.nextVap).held a := by
    change (b.create s a ssid).key b.nextVap ∉ b.held a
    rw [key]
    exact AList.lookup_eq_none.mp free
  have shape : ViewGrowth.joined b s a ssid = { adopted (b.create s a ssid) s b.nextVap with
      held := Function.update b.held a
          ((b.held a).insert ((b.create s a ssid).key b.nextVap) b.nextVap) } := by
    unfold ViewGrowth.joined Bindings.hold
    rw [if_neg open_key]
    rfl
  rw [shape, key]
  refine two.attach grounded agent absent free ?_ rfl rfl rfl rfl rfl
  rw [← key]
  rfl

theorem TwoSided.added (two : TwoSided b agentMap) (grounded : Grounded b agentMap isOpen)
    {s a : Ref} {ssid : Text} (agent : agentMap (b.agentMac a) = some a)
    (station : b.stationMap.lookup (b.stationMac s) = some s)
    (free : (b.held a).lookup (b.agentMac a ++ b.stationMac s ++ ssid) = none) :
    TwoSided (added b s a ssid) agentMap := by
  have absent := (lookup_none_iff (two.entry grounded ssid agent station)).mpr free
  have key := create_key_new (b := b) s a ssid
  have open_key : (b.create s a ssid).key b.nextVap ∉ (b.create s a ssid).held a := by
    rw [key]
    exact AList.lookup_eq_none.mp free
  have shape : (b.create s a ssid).hold a b.nextVap = { b.create s a ssid with
      held := Function.update b.held a
          ((b.held a).insert ((b.create s a ssid).key b.nextVap) b.nextVap) } := by
    unfold Bindings.hold
    rw [if_neg open_key]
    rfl
  unfold ViewGrowth.added
  rw [shape, key]
  refine two.attach grounded agent absent free ?_ rfl rfl rfl rfl rfl
  rw [← key]
  rfl

theorem TwoSided.addStation (two : TwoSided b agentMap) (grounded : Grounded b agentMap isOpen)
    (mac : Text) (status : Status) (length : mac.length = 12) :
    TwoSided { b.createStation mac status with stationMap := b.stationMap.insert mac b.nextStation }
      agentMap := by
  refine ⟨?_, ?_, two.agentLength, ?_⟩
  · intro s key c found
    by_cases new : s = b.nextStation
    · subst new
      simp [Bindings.createStation] at found
    · exact two.stored s key c (by simpa [Bindings.createStation, new] using found)
  · intro a key c known found
    have old : b.vapStation c ≠ b.nextStation :=
      Nat.ne_of_lt (grounded.vapStation c (grounded.held a key c found).1)
    have withStation := two.held a key c known found
    simpa [Bindings.createStation, old] using withStation
  · intro address s found
    dsimp only at found
    by_cases same : address = mac
    · rw [same]
      exact length
    · rw [AList.lookup_insert_ne same] at found
      exact two.stationLength address s found

theorem TwoSided.forget (two : TwoSided b agentMap) {a : Ref}
    (agent : agentMap (b.agentMac a) = some a) (empty : b.held a = ∅) :
    TwoSided b (Function.update agentMap (b.agentMac a) none) := by
  have kept {mac : Text} {e : Ref}
      (found : Function.update agentMap (b.agentMac a) none mac = some e) :
      agentMap mac = some e := by
    by_cases same : mac = b.agentMac a
    · subst same
      simp at found
    · rwa [Function.update_of_ne same] at found
  refine ⟨?_, ?_, ?_, two.stationLength⟩
  · intro s key c found
    obtain ⟨known, withAgent, station⟩ := two.stored s key c found
    refine ⟨?_, withAgent, station⟩
    rw [Function.update_of_ne]
    · exact known
    · intro same
      rw [same, agent] at known
      rw [← Option.some.inj known, empty] at withAgent
      cases withAgent
  · exact fun e key c known found => two.held e key c (kept known) found
  · exact fun mac e found => two.agentLength mac e (kept found)

theorem TwoSided.register (two : TwoSided b agentMap) (grounded : Grounded b agentMap isOpen)
    (mac : Text) (sc : Ref) (length : mac.length = 12)
    (free : ∀ old, agentMap mac = some old → b.held old = ∅) (table : Ref → Option Ref) :
    TwoSided { b.createAgent mac sc with sc2AgentMap := table }
      (Function.update agentMap mac (some b.nextAgent)) := by
  -- a new agent takes an address whose agent has no containers
  refine ⟨?_, ?_, ?_, two.stationLength⟩
  · intro s key c found
    obtain ⟨known, withAgent, station⟩ := two.stored s key c found
    have old : b.vapAgent c ≠ b.nextAgent :=
      Nat.ne_of_lt (grounded.vapAgent c (grounded.stored s key c found).1)
    have address : b.agentMac (b.vapAgent c) ≠ mac := by
      rintro rfl
      rw [free _ known] at withAgent
      cases withAgent
    refine ⟨?_, ?_, station⟩
    · simpa [Bindings.createAgent, old, address] using known
    · simpa [Bindings.createAgent, old] using withAgent
  · intro a key c known found
    by_cases new : a = b.nextAgent
    · subst new
      simp [Bindings.createAgent] at found
    · have address : b.agentMac a ≠ mac := by
        intro same
        have taken : Function.update agentMap mac (some b.nextAgent) (b.agentMac a) = some a := by
          simpa [Bindings.createAgent, new] using known
        rw [same, Function.update_self] at taken
        exact new (Option.some.inj taken).symm
      refine two.held a key c ?_ ?_
      · simpa [Bindings.createAgent, new, address] using known
      · simpa [Bindings.createAgent, new] using found
  · intro address a found
    by_cases same : address = mac
    · rw [same]
      exact length
    · rw [Function.update_of_ne same] at found
      exact two.agentLength address a found

theorem TwoSided.createAgent (two : TwoSided b agentMap) (grounded : Grounded b agentMap isOpen)
    (mac : Text) (sc : Ref) : TwoSided (b.createAgent mac sc) agentMap := by
  refine ⟨?_, ?_, two.agentLength, two.stationLength⟩
  · intro s key c found
    obtain ⟨known, withAgent, station⟩ := two.stored s key c found
    have old : b.vapAgent c ≠ b.nextAgent :=
      Nat.ne_of_lt (grounded.vapAgent c (grounded.stored s key c found).1)
    refine ⟨?_, ?_, station⟩
    · simpa [Bindings.createAgent, old] using known
    · simpa [Bindings.createAgent, old] using withAgent
  · intro a key c known found
    by_cases new : a = b.nextAgent
    · subst new
      simp [Bindings.createAgent] at found
    · refine two.held a key c ?_ ?_
      · simpa [Bindings.createAgent, new] using known
      · simpa [Bindings.createAgent, new] using found

end Assignments

/-! Connections and aging. -/

theorem resetVap_two_sided (v : View) (a c : Ref) (grounded : GroundedView v)
    (agent : v.agentMap (v.agents a).macAddress = some a)
    (held : (v.agents a).vapContainerSet.lookup (vapKey v c) = some c) (two : TwoSidedView v) :
    TwoSidedView (resetVap v a c) := by
  have maps : (resetVap v a c).agentMap = v.agentMap := congrArg Prod.fst (channels_resetVap v a c)
  have steady := resetVap_steady v a c
  have stored : ((bindings v).stored ((bindings v).vapStation c)).lookup ((bindings v).key c) =
      some c :=
    two.held a (vapKey v c) c agent held
  have stores := resetVap_stored v a c grounded
  rw [if_pos stored] at stores
  unfold TwoSidedView
  rw [maps]
  exact two.remove grounded stored held stores (resetVap_held v a c) steady.vapAgent
    steady.vapStation
    steady.agentMac steady.stationMap

theorem closeSocket_two_sided (v : View) (order : Order) (sc : Ref) (grounded : GroundedView v)
    (two : TwoSidedView v) : TwoSidedView (closeSocket v order sc) := by
  refine closeSocket_induct v order sc TwoSidedView grounded two
    (fun _ _ same before => before.alike same)
    ?_ ?_ (fun _ => two)
  · intro w a c ground named held before
    exact resetVap_two_sided w a c ground (ground.connected sc a named).2.2 held before
  · intro w a ground named empty before
    have shape := bindings_shut w sc a
    unfold TwoSidedView
    rw [shape, shut_agentMap]
    have forgotten := before.forget (ground.connected sc a named).2.2 empty
    exact forgotten.congr rfl rfl rfl rfl rfl forgotten.stationLength

theorem Upkeep.two_sided {who : Ref → Prop} {now : Int} {v w : View} (move : Upkeep who now v w)
    (grounded : GroundedView v) (two : TwoSidedView v) : TwoSidedView w := by
  cases move with
  | alike same => exact two.alike same
  | close order sc b linked silent asked => exact closeSocket_two_sided v order sc grounded two

theorem Upkeeps.two_sided {who : Ref → Prop} {now : Int} {v w : View} (moves : Upkeeps who now v w)
    (grounded : GroundedView v) (two : TwoSidedView v) : TwoSidedView w :=
  (moves.invariant TwoSidedView grounded two fun _ _ ground move before => Upkeep.two_sided move
    ground before).2

theorem removeVap_two_sided (v : View) (a s c : Ref) (grounded : GroundedView v)
    (stored : (v.stations s).vapContainerSet.lookup (vapKey v c) = some c)
    (held : (v.agents a).vapContainerSet.lookup (vapKey v c) = some c) (two : TwoSidedView v) :
    TwoSidedView (removeVap v a s c) := by
  refine two_sided_of (bindings_removeVap v a s c)
    (congrArg Prod.fst (channels_agentRemoveVap v a c)) ?_
  exact two.remove grounded stored held rfl rfl rfl rfl rfl rfl

theorem erase_absent {table : Table} {key : Text} (absent : table.lookup key = none) :
    table.erase key = table :=
  AList.ext (List.kerase_of_notMem_keys (AList.lookup_eq_none.mp absent))

theorem drop_two_sided (v : View) (s c : Ref) (grounded : GroundedView v)
    (listed : Listed (bindings v) s c) (two : TwoSidedView v) :
    TwoSidedView (removeVap v (v.vaps c).agent s c) := by
  rcases listed with stored | ⟨stored, held⟩
  · exact removeVap_two_sided v _ s c grounded stored (two.stored s _ c stored).2.1 two
  · refine two_sided_of (bindings_removeVap v _ s c)
      (congrArg Prod.fst (channels_agentRemoveVap v _ c)) ?_
    refine two.congr ?_ ?_ rfl rfl rfl two.stationLength
    · change Function.update (bindings v).stored s
        (((bindings v).stored s).erase ((bindings v).key c)) = _
      rw [erase_absent stored, Function.update_eq_self]
    · change Function.update (bindings v).held ((bindings v).vapAgent c)
        (((bindings v).held ((bindings v).vapAgent c)).erase ((bindings v).key c)) = _
      rw [erase_absent held, Function.update_eq_self]

theorem ages_two_sided {now : Int} {v w : View} (moves : Ages now v w) (grounded : GroundedView v)
    (two : TwoSidedView v) : TwoSidedView w := by
  refine (Ages.invariant TwoSidedView grounded two ?_ moves).2
  intro x y ground move before
  cases move with
  | upkeep move => exact Upkeep.two_sided move ground before
  | drop s c tracked off own listed => exact drop_two_sided x s c ground listed before
  | untrack s tracked off idle =>
      exact TwoSided.congr before rfl rfl rfl rfl rfl
        (fun mac t found => before.stationLength mac t (lookup_erase_some found))

theorem closeFormer_free (v : View) (order : Order) (sc : Ref) (mac : Text)
    (grounded : GroundedView v)
    (fits : ∀ old, v.agentMap mac = some old → (v.agents old).vapContainerSet = ∅ ∨
      ∃ x, (v.agents old).sc = some x ∧ x ≠ sc ∧ v.sc2AgentMap x = some old)
    (a : Ref) (found : (closeFormer v order sc mac).agentMap mac = some a) :
    ((closeFormer v order sc mac).agents a).vapContainerSet = ∅ := by
  -- after the former connection of an address is closed, its agent is gone or has no containers
  have empty_after (x : Ref) (empty : (v.agents a).vapContainerSet = ∅) :
      ((closeSocket v order x).agents a).vapContainerSet = ∅ :=
    shrinks_empty (closeSocket_shrinks v order x grounded) empty
  unfold closeFormer at found ⊢
  cases old : v.agentMap mac with
  | none =>
      simp only [old] at found
      cases found
  | some b =>
      cases linked : (v.agents b).sc with
      | none =>
          simp only [old, linked] at found ⊢
          cases found
          rcases fits _ old with empty | ⟨x, here, -⟩
          · exact empty
          · cases linked.symm.trans here
      | some agentSc =>
          by_cases same : agentSc = sc
          · subst same
            simp only [old, linked, ne_eq, not_true_eq_false, if_false] at found ⊢
            cases found
            rcases fits _ old with empty | ⟨x, here, other, -⟩
            · exact empty
            · exact absurd (Option.some.inj (here.symm.trans linked)) other
          · simp only [old, linked, ne_eq, same, not_false_eq_true, if_true] at found ⊢
            have kept : v.agentMap mac = some a := by
              cases opened : v.isOpen agentSc with
              | true => exact (closeSocket_frees v order agentSc opened).2 mac a found
              | false => simpa [closeSocket, opened] using found
            have one : b = a := Option.some.inj (old.symm.trans kept)
            subst one
            rcases fits b old with empty | ⟨x, here, -, registered⟩
            · exact empty_after agentSc empty
            · have same_channel : x = agentSc := Option.some.inj (here.symm.trans linked)
              subst same_channel
              obtain ⟨-, opened, named⟩ := grounded.connected x b registered
              have gone := closeSocket_forgets v order x b opened registered
              have address : (v.agents b).macAddress = mac := (grounded.registered mac b old).2
              rw [address, found] at gone
              cases gone

theorem registerAgent_two_sided (v : View) (now : Int) (sc : Ref) (mac : Text)
    (grounded : GroundedView v) (length : mac.length = 12)
    (free : ∀ old, v.agentMap mac = some old → (v.agents old).vapContainerSet = ∅)
    (two : TwoSidedView v) : TwoSidedView (registerAgent v now sc mac) := by
  have after := bindings_registerAgent v now sc mac
  cases known : v.socketMap sc with
  | true =>
      have maps : (registerAgent v now sc mac).agentMap =
          Function.update v.agentMap mac (some v.nextAgent) := by
        simp [registerAgent, known, mirror]
      rw [known, if_pos rfl] at after
      unfold TwoSidedView
      rw [after, maps]
      exact two.register grounded mac sc length free _
  | false =>
      have maps : (registerAgent v now sc mac).agentMap =
          v.agentMap := by simp [registerAgent, known]
      rw [known, if_neg (by simp)] at after
      exact two_sided_of after maps (two.createAgent grounded mac sc)

/-! Reports, commands and acknowledgements. -/

theorem Admission.two_sided {v w : View} {now : Int} {s a : Ref} {ssid : Text}
    (admission : Admission v now s a ssid w) (grounded : GroundedView v)
    (agent : v.agentMap (v.agents a).macAddress = some a) (station : Tracked v s)
    (two : TwoSidedView v) :
    TwoSidedView w := by
  cases admission with
  | unchanged same => exact two.alike same
  | @resume u c same stored switches =>
      have before := two.alike same
      exact two_sided_of (bindings_resumeVap u now s c)
        (congrArg Prod.fst (channels_resumeVap u now s c))
        (before.congr rfl rfl rfl rfl rfl before.stationLength)
  | @join u same absent switches free =>
      have maps : u.agentMap = v.agentMap := same.read View.agentMap
      refine two_sided_of (bindings_joinVap u now s a ssid)
        (congrArg Prod.fst (channels_joinVap u now s a ssid)) ?_
      rw [same.bindings, maps]
      exact TwoSided.joined two grounded agent station absent
  | adopt c absent unlinked held =>
      -- the station would have the container too
      have stored := (two.entry grounded ssid agent station c).mpr held
      cases absent.symm.trans stored
  | @stray u same linked absent off =>
      have maps : u.agentMap = v.agentMap := same.read View.agentMap
      have created : TwoSidedView (newVapContainer v s a ssid) := by
        refine two_sided_of (v := v) (bindings_newVapContainer v s a ssid) rfl
          ⟨?_, ?_, two.agentLength, two.stationLength⟩
        · intro t key c found
          have old : c ≠ v.nextVap := Nat.ne_of_lt (grounded.stored t key c found).1
          obtain ⟨known, withAgent, own⟩ := two.stored t key c found
          have agentOf : ((bindings v).create s a ssid).vapAgent c = (bindings v).vapAgent c :=
            Function.update_of_ne old _ _
          refine ⟨?_, ?_, (Function.update_of_ne old _ _).trans own⟩
          · rw [agentOf]
            exact known
          · rw [agentOf]
            exact withAgent
        · intro e key c known found
          have old : c ≠ v.nextVap := Nat.ne_of_lt (grounded.held e key c found).1
          have stationOf : ((bindings v).create s a ssid).vapStation c =
              (bindings v).vapStation c :=
            Function.update_of_ne old _ _
          rw [stationOf]
          exact two.held e key c known found
      have before := created.alike same
      exact two_sided_of (bindings_resumeVap u now s v.nextVap)
        (congrArg Prod.fst (channels_resumeVap u now s _))
        (before.congr rfl rfl rfl rfl rfl before.stationLength)

theorem createStation_two_sided (v : View) (now : Int) (a : Ref) (mac ssid : Text)
    (grounded : GroundedView v) (agent : v.agentMap (v.agents a).macAddress = some a)
    (unknown : v.stationMap.lookup mac = none) (length : mac.length = 12) (two : TwoSidedView v) :
    TwoSidedView (createStation v now a mac ssid) := by
  have same := channels_createStation v now a mac ssid
  have after := bindings_createStation v now a mac ssid
  rw [joined_track] at after
  have seen := TwoSided.addStation two grounded mac .onLine length
  have ground := Grounded.addStation grounded mac .onLine unknown
  refine two_sided_of after (congrArg Prod.fst same) (seen.joined ground agent ?_ ?_)
  · have named : ((bindings v).createStation mac .onLine).stationMac v.nextStation = mac :=
      Function.update_self _ _ _
    dsimp only
    rw [named]
    exact AList.lookup_insert _
  · have empty : ((bindings v).createStation mac .onLine).stored v.nextStation = ∅ :=
      Function.update_self _ _ _
    dsimp only
    rw [empty]
    rfl

theorem probeStation_two_sided (v : View) (mac : Text) (grounded : GroundedView v)
    (unknown : v.stationMap.lookup mac = none) (length : mac.length = 12) (two : TwoSidedView v) :
    TwoSidedView (probeStation v mac).1 := by
  have after : bindings (probeStation v mac).1 =
      { (bindings v).createStation mac .offLine with
          stationMap := v.stationMap.insert mac v.nextStation } := by
    simp only [probeStation, unknown, bindings, addStation, mirror, Bindings.createStation,
      Function.comp_update]
  have maps : (probeStation v mac).1.agentMap = v.agentMap := by
    simp only [probeStation, unknown]
    rfl
  exact two_sided_of after maps (TwoSided.addStation two grounded mac .offLine length)

theorem leaveVap_two_sided (v : View) (now : Int) (s c : Ref) (two : TwoSidedView v) :
    TwoSidedView (leaveVap v now s c) := by
  have left : TwoSidedView (leftStation v s c) := by
    unfold leftStation
    split
    · have bound : bindings (setWorking (setStationStatus v s .offLine) s none) =
          ((bindings v).setStatus s .offLine).setWorking s none := by
        rw [bindings_setWorking, bindings_setStationStatus]
      exact two_sided_of (v := v) bound rfl (two.congr rfl rfl rfl rfl rfl two.stationLength)
    · exact two
  rw [leaveVap_eq]
  refine TwoSidedView.alike ?_ (alike_setLastProbeHeard _ c now)
  split
  · exact two_sided_of (bindings_setVapStatus _ c .offLine)
      (congrArg Prod.fst (channels_setVapStatus _ c .offLine))
      (TwoSided.congr left rfl rfl rfl rfl rfl left.stationLength)
  · exact left

theorem Acknowledgement.two_sided {v w : View} {a s c : Ref} (done : Acknowledgement v a s c w)
    (grounded : GroundedView v)
    (stored : (v.stations s).vapContainerSet.lookup (vapKey v c) = some c)
    (held : (v.agents a).vapContainerSet.lookup (vapKey v c) = some c) (two : TwoSidedView v) :
    TwoSidedView w := by
  have bound := bindings_switchOff v s c
  have maps : (switchOff v s c).agentMap = v.agentMap :=
    congrArg Prod.fst (channels_setVapStatus _ c .offLine)
  have off : TwoSidedView (switchOff v s c) :=
    two_sided_of bound maps (two.congr rfl rfl rfl rfl rfl two.stationLength)
  have ground := switchOff_grounded v s c grounded
  cases done with
  | idle on free => exact off
  | cleared on here =>
      exact two_sided_of (v := switchOff v s c) (bindings_setWorking _ s none) rfl
        (TwoSided.congr off rfl rfl rfl rfl rfl off.stationLength)
  | elsewhere d on working other removed =>
      rcases removed with rfl | rfl
      · exact off
      · refine removeVap_two_sided _ a s c ground ?_ ?_ off
        · change ((bindings (switchOff v s c)).stored s).lookup
            ((bindings (switchOff v s c)).key c) = some c
          rw [bound]
          exact stored
        · change ((bindings (switchOff v s c)).held a).lookup ((bindings (switchOff v s c)).key c) =
            some c
          rw [bound]
          exact held
  | offLine status removed =>
      rcases removed with rfl | rfl
      · exact two
      · exact removeVap_two_sided v a s c grounded stored held two

/-! Whole runs. -/

/-- The former agent of a reported address has no containers, or loses its connection. -/
def FormerGoes (v : View) (sc : Ref) (mac : Text) : Prop :=
  ∀ old, v.agentMap mac = some old → (v.agents old).vapContainerSet = ∅ ∨
    ∃ x, (v.agents old).sc = some x ∧ x ≠ sc ∧ v.sc2AgentMap x = some old

/-- The agent of a command is the one that is registered for its address. -/
def NamesAgent (v : View) (message : StationCtrlMessage) : Prop :=
  v.agentMap (v.agents message.agent).macAddress = some message.agent

def KeepsIndex (v : View) (event : Event) : Prop :=
  match event.op with
  | .localMac sc message => ∀ mac rest, takeSized message bodyStart = some (mac, rest) →
      mac.length = 12 ∧ FormerGoes v sc mac
  | .newStation sc message =>
      ∀ a mac ssid, newReport v event.order sc message = some (a, mac, ssid) →
      v.stationMap.lookup mac = none → mac.length = 12
  | .probeInfo _ message => ∀ info, takeProbe message = some info →
      v.stationMap.lookup info.staMacAddr = none → info.staMacAddr.length = 12
  | .addVap isRoam message => ∀ s, Accepted v event.now event.order isRoam message s →
      NamesAgent v message
  | .cmd key => ∀ appCmd s, v.cmdQueue.lookup key = some appCmd →
      Accepted v event.now event.order false appCmd.message s → NamesAgent v appCmd.message
  | _ => True

theorem closeFormer_two_sided (v : View) (order : Order) (sc : Ref) (mac : Text)
    (grounded : GroundedView v) (two : TwoSidedView v) :
    TwoSidedView (closeFormer v order sc mac) := by
  unfold closeFormer
  split
  · exact two
  · split
    · exact two
    · split
      · exact closeSocket_two_sided v order _ grounded two
      · exact two

theorem next_two_sided (v : View) (event : Event) (fits : KeepsIndex v event)
    (holds : GroundedView v ∧ TwoSidedView v) :
    GroundedView (next v event) ∧ TwoSidedView (next v event) := by
  obtain ⟨op, now, order⟩ := event
  obtain ⟨grounded, two⟩ := holds
  refine ⟨next_grounded v ⟨op, now, order⟩ grounded, ?_⟩
  have effect := step_effect v now order op grounded
  change TwoSidedView (step v now order op)
  generalize step v now order op = w at effect
  cases effect with
  | upkeep moves => exact Upkeeps.two_sided moves grounded two
  | accept => exact two
  | heard sc a registered =>
      exact two_sided_of (v := v) (bindings_agent_frame v a _ rfl rfl rfl) rfl two
  | close sc => exact closeSocket_two_sided v order sc grounded two
  | displace sc message mac after taken => exact closeFormer_two_sided v order sc mac grounded two
  | register sc message mac after taken opened =>
      obtain ⟨length, goes⟩ := fits mac after taken
      exact registerAgent_two_sided _ now sc mac (closeFormer_grounded v order sc mac grounded)
        length
        (closeFormer_free v order sc mac grounded goes)
          (closeFormer_two_sided v order sc mac grounded two)
  | create sc a message mac ssid report unknown moves =>
      have registered := newReport_registered v order report
      exact Upkeeps.two_sided moves
        (createStation_grounded v now a mac ssid grounded (registered_lt grounded registered)
          unknown)
        (createStation_two_sided v now a mac ssid grounded (grounded.connected sc a registered).2.2
          unknown
          (fits a mac ssid report unknown) two)
  | admitted sc a s message mac ssid report known admission moves =>
      have registered := newReport_registered v order report
      have named : (v.stations s).macAddress = mac := (grounded.tracked mac s known).2
      subst named
      exact Upkeeps.two_sided moves
        (Admission.grounded admission grounded (registered_lt grounded registered) known)
        (Admission.two_sided admission grounded (grounded.connected sc a registered).2.2 known two)
  | leave sc a s c message mac ssid registered known stored left =>
      exact leaveVap_two_sided v now s c two
  | flow sc s a message up down report =>
      obtain ⟨after, same⟩ := countTraffic_ground v a s up down
      exact two_sided_of after (congrArg Prod.fst same) two
  | probe sc message info taken unknown same =>
      exact (probeStation_two_sided v info.staMacAddr grounded unknown (fits info taken unknown)
        two).alike same
  | inform sc a message mode totStaSize channel curPos registered taken =>
      exact two_sided_of (v := v) (bindings_informAgent v a totStaSize channel mode message curPos)
        rfl two
  | @acknowledge u w sc a s c message mac ssid same registered known stored listed done =>
      have tracked : Tracked v s := by
        have named : (v.stations s).macAddress = mac := (grounded.tracked mac s known).2
        subst named
        exact known
      have agent := (grounded.connected sc a registered).2.2
      have named := (grounded.stored s _ c stored).2.1
      have held := (two.entry grounded ssid agent tracked c).mp stored
      have tables : (u.stations s).vapContainerSet.lookup (vapKey u c) = some c ∧
          (u.agents a).vapContainerSet.lookup (vapKey u c) = some c := by
        change ((bindings u).stored s).lookup ((bindings u).key c) = some c ∧
          ((bindings u).held a).lookup ((bindings u).key c) = some c
        rw [same.bindings, ← named]
        exact ⟨stored, held⟩
      exact Acknowledgement.two_sided done (same.grounded grounded) tables.1 tables.2
        (two.alike same)
  | add isRoam message s adds accepted same =>
      have agent : NamesAgent v message := by
        cases adds with
        | direct => exact fits s accepted
        | queued key appCmd waiting => exact fits appCmd s waiting accepted
      have named : (v.stations s).macAddress = message.staMacAddr :=
        (grounded.tracked _ s accepted.known).2
      have tracked : Tracked v s := by
        unfold Tracked
        rw [named]
        exact accepted.known
      refine TwoSidedView.alike ?_ same
      exact two_sided_of (v := v) (bindings_createVap v now s message.agent message.ssid)
        (congrArg Prod.fst (channels_agentAddVap _ message.agent v.nextVap))
        (TwoSided.added two grounded agent tracked accepted.absent)
  | age moves => exact ages_two_sided moves grounded two

theorem two_sided_empty : TwoSidedView View.empty where
  stored := fun _ _ _ found => by cases found
  held := fun _ _ _ known => by cases known
  agentLength := fun _ _ known => by cases known
  stationLength := fun _ _ known => by cases known

/-- In every run whose steps meet the condition, a tracked station and a tracked agent have the
same container under their key, and it names the two. -/
theorem index_two_sided (v : View) (reached : Reaches next KeepsIndex View.empty v) (s a : Ref)
    (ssid : Text) (c : Ref) (station : v.stationMap.lookup (v.stations s).macAddress = some s)
    (agent : v.agentMap (v.agents a).macAddress = some a) :
    (stationVap v s a ssid = some c ↔ agentVap v a s ssid = some c) ∧
    (stationVap v s a ssid = some c → v.agentMap (v.agents a).macAddress = some (v.vaps c).agent ∧
      v.stationMap.lookup (v.stations s).macAddress = some (v.vaps c).station) := by
  have start : GroundedView View.empty ∧ TwoSidedView View.empty :=
    ⟨grounded_empty, two_sided_empty⟩
  obtain ⟨grounded, two⟩ :=
    reached.invariant (fun v => GroundedView v ∧ TwoSidedView v) start next_two_sided
  have same := two.entry grounded ssid agent station c
  refine ⟨same, fun stored => ?_⟩
  have own : (v.vaps c).agent = a := (grounded.held a _ c (same.mp stored)).2.1
  have named : (v.vaps c).station = s := (two.stored s _ c stored).2.2
  rw [own, named]
  exact ⟨agent, station⟩

theorem joined_two_sided :
    let v := run next View.empty (hello 0 apMac ++ [join 0 apMac 400])
    stationVap v 0 0 "w".toList = some 0 ∧
      (stationVap v 0 0 "w".toList = some 0 ↔ agentVap v 0 0 "w".toList = some 0) := by
  have fits : Allowed next KeepsIndex View.empty (hello 0 apMac ++ [join 0 apMac 400]) := by
    refine ⟨trivial, ?_, trivial, ?_, trivial⟩
    · intro mac rest taken
      have report : takeSized ("000110901412".toList ++ apMac) bodyStart =
          some (apMac, 24) := by decide +kernel
      cases report.symm.trans taken
      have unknown : (run next View.empty ((hello 0 apMac).take 1)).agentMap apMac =
          none := by decide +kernel
      exact ⟨by decide, fun old found => absurd (unknown.symm.trans found) (by simp)⟩
    · intro a mac ssid report _
      have fields : newReport (run next View.empty (hello 0 apMac)) .stored 0 (joinReport apMac) =
          some (0, staMac, "w".toList) := by decide +kernel
      cases fields.symm.trans report
      decide
  have reached : Reaches next KeepsIndex View.empty _ := Reaches.append _ .start fits
  exact ⟨by decide +kernel,
    (index_two_sided _ reached 0 0 "w".toList 0 (by decide +kernel) (by decide +kernel)).1⟩

/-- An AP that reports its address again on the connection it has: the new agent has nothing of
what the stations have under its address. -/
theorem repeated_address_one_sided :
    ¬ ∀ events s a ssid c,
      (run next View.empty events).stationMap.lookup
        ((run next View.empty events).stations s).macAddress = some s →
      (run next View.empty events).agentMap ((run next View.empty events).agents a).macAddress =
        some a →
      (stationVap (run next View.empty events) s a ssid = some c ↔
        agentVap (run next View.empty events) a s ssid = some c) := by
  intro all
  let events := hello 0 apMac ++
    [join 0 apMac 400, ⟨.localMac 0 ("000110901412".toList ++ apMac), 500, .stored⟩]
  have same := all events 0 1 "w".toList 0 (by decide +kernel) (by decide +kernel)
  have stored : stationVap (run next View.empty events) 0 1 "w".toList = some 0 := by decide +kernel
  have held : agentVap (run next View.empty events) 1 0 "w".toList = none := by decide +kernel
  exact absurd (held.symm.trans (same.mp stored)) (by simp)

end LazyAS.ContainerIndex

import LazyAS.StationCoherence

/-! The two tables that find an agent, by its address and by its connection. A connection that
reports a second address gets a second agent, and the first one stays in the table of
addresses for good. The tables are looked at in a view of their own that leaves out the rest
of the controller's state. -/
namespace LazyAS.AgentRegistry
open WireText ControllerView Master StationCoherence Runs
open VapBindings (comp_update_same)

structure Registry where
  mac : Ref → Text
  sc : Ref → Option Ref
  agentMap : Text → Option Ref
  sc2AgentMap : Ref → Option Ref
  socketMap : Ref → Bool
  isOpen : Ref → Bool
  nextAgent : Ref

def registry (v : View) : Registry where
  mac := Agent.macAddress ∘ v.agents
  sc := Agent.sc ∘ v.agents
  agentMap := v.agentMap
  sc2AgentMap := v.sc2AgentMap
  socketMap := v.socketMap
  isOpen := v.isOpen
  nextAgent := v.nextAgent

/-! The same steps on the tables alone. -/

def Registry.close (r : Registry) (sc : Ref) : Registry :=
  if r.isOpen sc then
    let closed := { r with
      socketMap := Function.update r.socketMap sc false
      isOpen := Function.update r.isOpen sc false }
    match r.sc2AgentMap sc with
    | none => closed
    | some a => { closed with
        sc := Function.update r.sc a none
        sc2AgentMap := Function.update r.sc2AgentMap sc none
        agentMap := Function.update r.agentMap (r.mac a) none }
  else r

def Registry.register (r : Registry) (sc : Ref) (agentMacAddr : Text) : Registry :=
  let created := { r with
    mac := Function.update r.mac r.nextAgent agentMacAddr
    sc := Function.update r.sc r.nextAgent (some sc)
    nextAgent := r.nextAgent + 1 }
  if r.socketMap sc then
    { created with
      agentMap := Function.update r.agentMap agentMacAddr (some r.nextAgent)
      sc2AgentMap := Function.update r.sc2AgentMap sc (some r.nextAgent) }
  else created

def Registry.former (r : Registry) (sc : Ref) (agentMacAddr : Text) : Option Ref := do
  let old ← r.agentMap agentMacAddr
  let agentSc ← r.sc old
  if agentSc ≠ sc then some agentSc else none

def Registry.localMac (r : Registry) (sc : Ref) (agentMacAddr : Text) : Registry :=
  let closed := match r.former sc agentMacAddr with
    | none => r
    | some agentSc => r.close agentSc
  if closed.isOpen sc then closed.register sc agentMacAddr else closed

theorem registry_updAgent (v : View) (a : Ref) (change : Agent → Agent)
    (mac : (change (v.agents a)).macAddress = (v.agents a).macAddress) :
    registry (updAgent v a change) =
      { registry v with sc := Function.update (registry v).sc a (change (v.agents a)).sc } := by
  simp only [registry, updAgent, comp_update_same _ _ _ _ mac, Function.comp_update]

theorem agentRemoveVap_registry (v : View) (a c : Ref) :
    registry (agentRemoveVap v a c) = registry v := by
  unfold agentRemoveVap
  split
  · rw [registry_updAgent v a _ rfl]
    exact congrArg (fun scs => { registry v with sc := scs })
      (Function.update_eq_self a (registry v).sc)
  · rfl

theorem resetVap_registry (v : View) (a c : Ref) : registry (resetVap v a c) = registry v := by
  unfold resetVap
  simp only [agentRemoveVap_registry]
  split
  · split
    · rfl
    · rfl
  · rfl

theorem reset_registry (v : View) (order : Order) (a : Ref) :
    registry (reset v order a) =
      { registry v with sc := Function.update (registry v).sc a none } := by
  have emptied (items : List Ref) (w : View) :
      registry (items.foldl (fun w c => resetVap w a c) w) = registry w := by
    induction items generalizing w with
    | nil => rfl
    | cons c items ih => exact (ih _).trans (resetVap_registry w a c)
  unfold reset
  rw [← emptied (order.arrange (v.agents a).vapContainerSet.values) v, ← clearVaps]
  generalize clearVaps v order a = w
  exact registry_updAgent w a _ rfl

theorem closeSocket_registry (v : View) (order : Order) (sc : Ref) :
    registry (closeSocket v order sc) = (registry v).close sc := by
  cases opened : v.isOpen sc with
  | false => simp [closeSocket, Registry.close, registry, opened]
  | true =>
      cases registered : v.sc2AgentMap sc with
      | none => simp [closeSocket, Registry.close, registry, opened, registered]
      | some a =>
          have after := reset_registry { v with socketMap := Function.update v.socketMap sc false }
              order a
          have shape : closeSocket v order sc =
              (let w := removeAgent (reset { v with
                socketMap := Function.update v.socketMap sc false } order a) sc a
              { w with isOpen := Function.update w.isOpen sc false }) := by
            simp [closeSocket, opened, registered]
          rw [shape]
          generalize reset { v with socketMap := Function.update v.socketMap sc false } order a =
            w at after
          have mac : (w.agents a).macAddress = (v.agents a).macAddress :=
            congrFun (congrArg Registry.mac after) a
          simp only [registry, Registry.mk.injEq] at after
          obtain ⟨macs, scs, byMac, bySc, sockets, channels, next⟩ := after
          simp [registry, Registry.close, removeAgent, mirror, opened, registered, mac, macs, scs,
            byMac, bySc, sockets, channels, next]

theorem registerAgent_registry (v : View) (now : Int) (sc : Ref) (agentMacAddr : Text) :
    registry (registerAgent v now sc agentMacAddr) = (registry v).register sc agentMacAddr := by
  cases tracked : v.socketMap sc with
  | true => simp [registerAgent, Registry.register, registry, mirror, tracked, Function.comp_update]
  | false => simp [registerAgent, Registry.register, registry, tracked, Function.comp_update]

theorem processMsgLocalMac_registry (v : View) (now : Int) (order : Order) (sc : Ref)
    (message : Text) :
    registry (processMsgLocalMac v now order sc message) =
      match takeSized message bodyStart with
      | none => registry v
      | some (agentMacAddr, _) => (registry v).localMac sc agentMacAddr := by
  unfold processMsgLocalMac
  cases takeSized message bodyStart with
  | none => rfl
  | some taken =>
      obtain ⟨agentMacAddr, rest⟩ := taken
      have finish (w : View) (r : Registry) (same : registry w = r) :
          registry (if w.isOpen sc then registerAgent w now sc agentMacAddr else w) =
            if r.isOpen sc then r.register sc agentMacAddr else r := by
        subst same
        change _ = if w.isOpen sc then _ else _
        split
        · exact registerAgent_registry w now sc agentMacAddr
        · rfl
      dsimp only
      refine finish _ _ ?_
      unfold Registry.former
      cases found : v.agentMap agentMacAddr with
      | none => simp [registry, found]
      | some old =>
          cases linked : (v.agents old).sc with
          | none => simp [registry, found, linked]
          | some agentSc =>
              by_cases same : agentSc = sc
              · simp [registry, found, linked, same]
              · simpa [registry, found, linked, same] using closeSocket_registry v order agentSc
/-! The invariant. -/

def Inverse (r : Registry) : Prop :=
  ∀ mac a, r.agentMap mac = some a ↔
    r.mac a = mac ∧ ∃ sc, r.sc a = some sc ∧ r.sc2AgentMap sc = some a

/-- A registered agent has the connection it is found by, and that one is open. -/
structure Kept (r : Registry) : Prop where
  inverse : Inverse r
  linked : ∀ sc a, r.sc2AgentMap sc = some a → r.sc a = some sc ∧ r.isOpen sc = true ∧
    a < r.nextAgent

theorem Kept.named {r : Registry} (kept : Kept r) {sc a : Ref} (found : r.sc2AgentMap sc = some a) :
    r.agentMap (r.mac a) = some a :=
  (kept.inverse (r.mac a) a).mpr ⟨rfl, sc, (kept.linked sc a found).1, found⟩

theorem close_kept (r : Registry) (sc : Ref) (kept : Kept r) : Kept (r.close sc) := by
  cases opened : r.isOpen sc with
  | false => simpa [Registry.close, opened] using kept
  | true =>
      cases registered : r.sc2AgentMap sc with
      | none =>
          have result : r.close sc = { r with
              socketMap := Function.update r.socketMap sc false
              isOpen := Function.update r.isOpen sc false } := by simp [Registry.close, opened,
                registered]
          rw [result]
          refine ⟨kept.inverse, ?_⟩
          intro x b found
          obtain ⟨link, channel, known⟩ := kept.linked x b found
          have other : x ≠ sc := by
            rintro rfl
            rw [registered] at found
            cases found
          exact ⟨link, by simpa [other] using channel, known⟩
      | some a =>
          have result : r.close sc = { r with
              socketMap := Function.update r.socketMap sc false
              isOpen := Function.update r.isOpen sc false
              sc := Function.update r.sc a none
              sc2AgentMap := Function.update r.sc2AgentMap sc none
              agentMap := Function.update r.agentMap (r.mac a) none } := by
            simp [Registry.close, opened, registered]
          -- the agents that are still found are neither `a` nor found by `sc`
          have remains (x b : Ref) : Function.update r.sc2AgentMap sc none x = some b ↔
              x ≠ sc ∧ b ≠ a ∧ r.sc2AgentMap x = some b := by
            by_cases same : x = sc
            · simp [same]
            · simp only [Function.update_of_ne same, same, ne_eq, not_false_eq_true, true_and]
              refine ⟨fun found => ⟨?_, found⟩, fun both => both.2⟩
              rintro rfl
              have link := (kept.linked x b found).1
              rw [(kept.linked sc b registered).1] at link
              exact same (Option.some.inj link).symm
          rw [result]
          constructor
          · intro mac b
            dsimp only
            have before := kept.inverse mac b
            by_cases same : mac = r.mac a
            · subst same
              simp only [Function.update_self, reduceCtorEq, false_iff, not_and, not_exists]
              intro name x link
              rw [remains]
              rintro ⟨_, other, found⟩
              rw [Function.update_of_ne other] at link
              have both := (before.mpr ⟨name, x, link, found⟩).symm.trans (kept.named registered)
              exact other (Option.some.inj both)
            · rw [Function.update_of_ne same, before]
              constructor
              · rintro ⟨name, x, link, found⟩
                have other : b ≠ a := by
                  rintro rfl
                  exact same name.symm
                refine ⟨name, x, by rwa [Function.update_of_ne other], (remains x b).mpr ⟨?_, other,
                  found⟩⟩
                rintro rfl
                rw [registered] at found
                exact other (Option.some.inj found).symm
              · rintro ⟨name, x, link, found⟩
                obtain ⟨_, other, old⟩ := (remains x b).mp found
                rw [Function.update_of_ne other] at link
                exact ⟨name, x, link, old⟩
          · intro x b found
            obtain ⟨away, other, old⟩ := (remains x b).mp found
            obtain ⟨link, channel, known⟩ := kept.linked x b old
            exact ⟨by simpa [other] using link, by simpa [away] using channel, known⟩

theorem Kept.known {r : Registry} (kept : Kept r) {x b : Ref} (found : r.sc2AgentMap x = some b) :
    b ≠ r.nextAgent :=
  Nat.ne_of_lt (kept.linked x b found).2.2

theorem register_untracked (r : Registry) (sc : Ref) (mac : Text) (kept : Kept r)
    (untracked : r.socketMap sc = false) :
    Kept (r.register sc mac) := by
  have result : r.register sc mac = { r with
      mac := Function.update r.mac r.nextAgent mac
      sc := Function.update r.sc r.nextAgent (some sc)
      nextAgent := r.nextAgent + 1 } := by simp [Registry.register, untracked]
  rw [result]
  constructor
  · intro name b
    dsimp only
    rw [kept.inverse]
    constructor
    · rintro ⟨same, x, link, found⟩
      have old := kept.known found
      exact ⟨by rwa [Function.update_of_ne old], x, by rwa [Function.update_of_ne old], found⟩
    · rintro ⟨same, x, link, found⟩
      have old := kept.known found
      rw [Function.update_of_ne old] at same link
      exact ⟨same, x, link, found⟩
  · intro x b found
    obtain ⟨link, channel, before⟩ := kept.linked x b found
    exact ⟨by simpa [kept.known found] using link, channel, Nat.lt_succ_of_lt before⟩

/-- A new agent of an open connection, where the connection had no agent of another address
and the address no agent of another connection. -/
theorem register_tracked (r : Registry) (sc : Ref) (mac : Text) (kept : Kept r)
    (opened : r.isOpen sc = true) (own : ∀ a, r.sc2AgentMap sc = some a → r.mac a = mac)
    (free : ∀ a, r.agentMap mac = some a → r.sc a = some sc) (tracked : r.socketMap sc = true) :
    Kept (r.register sc mac) := by
  have result : r.register sc mac = { r with
      mac := Function.update r.mac r.nextAgent mac
      sc := Function.update r.sc r.nextAgent (some sc)
      nextAgent := r.nextAgent + 1
      agentMap := Function.update r.agentMap mac (some r.nextAgent)
      sc2AgentMap := Function.update r.sc2AgentMap sc (some r.nextAgent) } := by
    simp [Registry.register, tracked]
  -- the former agents that are still found are found by other connections
  have remains (x b : Ref) (old : b ≠ r.nextAgent) :
      Function.update r.sc2AgentMap sc (some r.nextAgent) x = some b ↔ x ≠ sc ∧
          r.sc2AgentMap x = some b := by
    by_cases same : x = sc
    · simp [same, Ne.symm old]
    · simp [same]
  rw [result]
  constructor
  · intro name b
    dsimp only
    by_cases new : b = r.nextAgent
    · -- the new agent is found by its address and by its connection only
      subst new
      simp only [Function.update_self, Option.some.injEq]
      constructor
      · intro found
        by_cases same : name = mac
        · exact ⟨same.symm, sc, rfl, by simp⟩
        · rw [Function.update_of_ne same] at found
          obtain ⟨_, x, _, linked⟩ := (kept.inverse name _).mp found
          exact absurd rfl (kept.known linked)
      · rintro ⟨rfl, _⟩
        simp
    · simp only [Function.update_of_ne new, remains _ b new]
      by_cases same : name = mac
      · subst same
        simp only [Function.update_self, Option.some.injEq, Ne.symm new, false_iff, not_and,
          not_exists]
        intro named x link away found
        have again := free b ((kept.inverse name b).mpr ⟨named, x, link, found⟩)
        exact away (Option.some.inj (link.symm.trans again))
      · rw [Function.update_of_ne same, kept.inverse]
        constructor
        · rintro ⟨named, x, link, found⟩
          have away : x ≠ sc := by
            rintro rfl
            exact same (named.symm.trans (own b found))
          exact ⟨named, x, link, away, found⟩
        · rintro ⟨named, x, link, -, found⟩
          exact ⟨named, x, link, found⟩
  · intro x b found
    dsimp only at found ⊢
    by_cases same : x = sc
    · subst same
      rw [Function.update_self] at found
      cases found
      exact ⟨by simp, opened, Nat.lt_succ_self _⟩
    · rw [Function.update_of_ne same] at found
      obtain ⟨link, channel, before⟩ := kept.linked x b found
      exact ⟨by simpa [kept.known found] using link, channel, Nat.lt_succ_of_lt before⟩

theorem register_kept (r : Registry) (sc : Ref) (mac : Text) (kept : Kept r)
    (opened : r.isOpen sc = true) (own : ∀ a, r.sc2AgentMap sc = some a → r.mac a = mac)
    (free : ∀ a, r.agentMap mac = some a → r.sc a = some sc) : Kept (r.register sc mac) := by
  cases tracked : r.socketMap sc with
  | false => exact register_untracked r sc mac kept tracked
  | true => exact register_tracked r sc mac kept opened own free tracked

theorem localMac_kept (r : Registry) (sc : Ref) (mac : Text) (kept : Kept r)
    (own : ∀ a, r.sc2AgentMap sc = some a → r.mac a = mac) : Kept (r.localMac sc mac) := by
  unfold Registry.localMac
  cases former : r.former sc mac with
  | none =>
      dsimp only
      split
      · rename_i opened
        refine register_kept r sc mac kept opened own ?_
        intro old found
        obtain ⟨_, x, link, _⟩ := (kept.inverse mac old).mp found
        by_contra other
        rw [link] at other
        have away : x ≠ sc := fun same => other (congrArg some same)
        simp [Registry.former, found, link, away] at former
      · exact kept
  | some agentSc =>
      obtain ⟨old, found, link, away⟩ : ∃ old, r.agentMap mac = some old ∧ r.sc old = some agentSc ∧
          agentSc ≠ sc := by
        unfold Registry.former at former
        cases found : r.agentMap mac with
        | none => simp [found] at former
        | some old =>
            cases link : r.sc old with
            | none => simp [found, link] at former
            | some x =>
                by_cases same : x = sc
                · simp [found, link, same] at former
                · have equal : x = agentSc := by simpa [found, link, same] using former
                  subst equal
                  exact ⟨old, rfl, link, same⟩
      obtain ⟨name, x, link', registered⟩ := (kept.inverse mac old).mp found
      cases link.symm.trans link'
      have channel := (kept.linked agentSc old registered).2.1
      have closed := close_kept r agentSc kept
      dsimp only
      split
      · rename_i opened
        refine register_kept _ sc mac closed opened ?_ ?_
        · intro a still
          simp only [Registry.close, channel, if_true, registered,
            Function.update_of_ne (Ne.symm away)] at still ⊢
          exact own a still
        · -- closing the former connection has freed the address
          intro a still
          simp [Registry.close, channel, registered, name] at still
      · exact closed

/-! Runs of connections. -/

/-- New connections, closed ones and address reports, where a connection that has an agent
reports that agent's address again. -/
def KeepsAddress (v : View) (event : Event) : Prop :=
  match event.op with
  | .accept | .closeSocket _ => True
  | .localMac sc message =>
      ∀ mac rest a, takeSized message bodyStart = some (mac, rest) → v.sc2AgentMap sc = some a →
        (v.agents a).macAddress = mac
  | _ => False

theorem next_kept (v : View) (event : Event) (fits : KeepsAddress v event)
    (kept : Kept (registry v)) :
    Kept (registry (next v event)) := by
  obtain ⟨op, now, order⟩ := event
  cases op with
  | accept =>
      refine ⟨kept.inverse, ?_⟩
      intro x b found
      obtain ⟨link, channel, known⟩ := kept.linked x b found
      refine ⟨link, ?_, known⟩
      change Function.update v.isOpen v.nextSocket true x = true
      by_cases same : x = v.nextSocket
      · simp [same]
      · rw [Function.update_of_ne same]
        exact channel
  | localMac sc message =>
      change Kept (registry (processMsgLocalMac v now order sc message))
      rw [processMsgLocalMac_registry]
      cases taken : takeSized message bodyStart with
      | none => exact kept
      | some pair =>
          exact localMac_kept (registry v) sc pair.1 kept fun a => fits pair.1 pair.2 a taken
  | closeSocket sc =>
      change Kept (registry (closeSocket v order sc))
      rw [closeSocket_registry]
      exact close_kept (registry v) sc kept
  | _ => exact fits.elim

theorem kept_empty : Kept (registry View.empty) := by
  constructor
  · intro mac a
    simp [registry, View.empty]
  · intro sc a found
    cases found

theorem close_clears (r : Registry) (sc : Ref) (kept : Kept r) (a : Ref) (x : Ref)
    (found : (r.close sc).sc2AgentMap x = some a) : (r.close sc).sc a ≠ some sc := by
  have after := close_kept r sc kept
  obtain ⟨link, channel, _⟩ := after.linked x a found
  intro same
  cases link.symm.trans same
  cases opened : r.isOpen sc with
  | false => simp [Registry.close, opened] at channel
  | true =>
      cases registered : r.sc2AgentMap sc with
      | none => simp [Registry.close, opened, registered] at channel
      | some b => simp [Registry.close, opened, registered] at channel

/-- In every run of connections, address reports and closings in which a connection that has
an agent reports the same address again, an agent is found by its address exactly if it is
found by its connection, and after a closing no agent of the connection is found. -/
theorem registries_agree (v : View) (reached : Reaches next KeepsAddress View.empty v) :
    (∀ mac a, v.agentMap mac = some a ↔
      (v.agents a).macAddress = mac ∧ ∃ sc, (v.agents a).sc = some sc ∧ v.sc2AgentMap sc = some a) ∧
    ∀ order sc a,
      (∀ mac, (closeSocket v order sc).agentMap mac = some a →
        ((closeSocket v order sc).agents a).sc ≠ some sc) ∧
      ∀ x, (closeSocket v order sc).sc2AgentMap x = some a →
        ((closeSocket v order sc).agents a).sc ≠ some sc := by
  have kept : Kept (registry v) :=
    reached.invariant (fun v => Kept (registry v)) kept_empty next_kept
  refine ⟨kept.inverse, ?_⟩
  intro order sc a
  have cleared : ∀ x, (registry (closeSocket v order sc)).sc2AgentMap x = some a →
      (registry (closeSocket v order sc)).sc a ≠ some sc := by
    rw [closeSocket_registry]
    exact fun x => close_clears (registry v) sc kept a x
  have after : Kept (registry (closeSocket v order sc)) := by
    rw [closeSocket_registry]
    exact close_kept (registry v) sc kept
  refine ⟨?_, cleared⟩
  intro mac found
  obtain ⟨_, x, _, registered⟩ := (after.inverse mac a).mp found
  exact cleared x registered

def addressReport (sc : Ref) (mac : Text) (now : Int) : Event :=
  ⟨.localMac sc ("000110901412".toList ++ mac), now, .stored⟩

/-- An AP that reports twice, and then again over a new connection. -/
def reconnected : List Event :=
  [⟨.accept, 0, .stored⟩, addressReport 0 apMac 100, addressReport 0 apMac 200,
    ⟨.accept, 300, .stored⟩,
    addressReport 1 apMac 400]

theorem reconnected_registered :
    (run next View.empty reconnected).agentMap apMac = some 2 ∧
      (run next View.empty reconnected).sc2AgentMap 1 = some 2 ∧
      ((run next View.empty reconnected).agentMap apMac = some 2 ↔
        ((run next View.empty reconnected).agents 2).macAddress = apMac ∧
          ∃ sc, ((run next View.empty reconnected).agents 2).sc = some sc ∧
            (run next View.empty reconnected).sc2AgentMap sc = some 2) := by
  have fits : Allowed next KeepsAddress View.empty reconnected := by
    refine ⟨trivial, ?_, ?_, trivial, ?_, trivial⟩
    · intro mac rest a _ found
      cases found
    · intro mac rest a taken found
      have first : (run next View.empty (reconnected.take 2)).sc2AgentMap 0 =
          some 0 := by decide +kernel
      cases first.symm.trans found
      have report : takeSized ("000110901412".toList ++ apMac) bodyStart =
          some (apMac, 24) := by decide +kernel
      cases report.symm.trans taken
      decide +kernel
    · intro mac rest a _ found
      have unknown : (run next View.empty (reconnected.take 4)).sc2AgentMap 1 =
          none := by decide +kernel
      exact absurd (unknown.symm.trans found) (by simp)
  exact ⟨by decide +kernel, by decide +kernel,
    (registries_agree _ (Reaches.append _ .start fits)).1 apMac 2⟩

/-- A second address on one connection leaves the first agent in the table of addresses. -/
theorem second_address_stays :
    ¬ ∀ (events : List Event) (mac : Text) (a : Ref),
      (∀ event ∈ events, event.op = .accept ∨ ∃ sc message, event.op = .localMac sc message) →
      (run next View.empty events).agentMap mac = some a →
      ∃ sc, ((run next View.empty events).agents a).sc = some sc ∧
        (run next View.empty events).sc2AgentMap sc = some a := by
  intro all
  let events := [⟨.accept, 0, .stored⟩, addressReport 0 apMac 100, addressReport 0 otherMac 200]
  obtain ⟨sc, link, found⟩ :=
    all events apMac 0 (by simp [events, addressReport]) (by decide +kernel)
  have channel : ((run next View.empty events).agents 0).sc = some 0 := by decide +kernel
  cases channel.symm.trans link
  exact absurd found (by decide +kernel)

end LazyAS.AgentRegistry

import LazyAS.Subscriptions
import LazyAS.Runs

/-! How the two tables of subscriptions fit together. `unRegisterSubscription` is told the type and
the id apart: it takes the id out of the set of that type and removes its subscription, whatever
type the subscription has. -/
namespace LazyAS.SubscriptionTables
open WireText ControllerView Master Subscriptions Runs

section Tables
variable {Callback : Type}

/-- `unRegisterSubscription`: nothing happens for a type that was never subscribed to. -/
def unRegisterSubscription (registry : Registry Callback) (msgType subscriptionId : Text) :
    Registry Callback :=
  match registry.msg2Subids.lookup msgType with
  | none => registry
  | some ids =>
      { subscriptions := registry.subscriptions.erase subscriptionId
        msg2Subids := registry.msg2Subids.insert msgType (ids.filter (· ≠ subscriptionId)) }

inductive Call (Callback : Type) where
  | register (r : Registration Callback)
  | unRegister (msgType subscriptionId : Text)

def next (registry : Registry Callback) : Call Callback → Registry Callback
  | .register r => registerSubscription registry r
  | .unRegister msgType subscriptionId => unRegisterSubscription registry msgType subscriptionId

/-- Every id that is listed under a type has a subscription of that type, and every subscription is
listed under its own type. -/
structure Consistent (registry : Registry Callback) : Prop where
  listed : ∀ type ids id, registry.msg2Subids.lookup type = some ids → id ∈ ids →
    ∃ tuple, registry.subscriptions.lookup id = some tuple ∧ tuple.es.msgType = type
  known : ∀ id tuple, registry.subscriptions.lookup id = some tuple →
    ∃ ids, registry.msg2Subids.lookup tuple.es.msgType = some ids ∧ id ∈ ids

/-- The loop of `checkSubscribtion` finds a subscription for every id it comes to. -/
def NeverMisses (registry : Registry Callback) : Prop :=
  ∀ (order : Order) type ids, registry.msg2Subids.lookup type = some ids →
    ∀ id ∈ order.arrange ids, (registry.subscriptions.lookup id).isSome

theorem Consistent.neverMisses {registry : Registry Callback} (consistent : Consistent registry) :
    NeverMisses registry := by
  intro order type ids found id member
  obtain ⟨tuple, stored, -⟩ :=
    consistent.listed type ids id found ((order.perm ids).mem_iff.mp member)
  exact Option.isSome_iff_exists.mpr ⟨tuple, stored⟩

theorem consistent_empty : Consistent (.empty Callback) where
  listed := fun _ _ _ found => absurd found (by simp [Registry.empty])
  known := fun _ _ found => absurd found (by simp [Registry.empty])

theorem mem_addId {ids : List Text} {id other : Text} :
    other ∈ addId ids id ↔ other ∈ ids ∨ other = id := by
  unfold addId
  by_cases taken : id ∈ ids
  · rw [if_pos (List.contains_iff_mem.mpr taken)]
    constructor
    · exact .inl
    · rintro (member | rfl)
      · exact member
      · exact taken
  · rw [if_neg (fun inside => taken (List.contains_iff_mem.mp inside)), List.mem_append,
      List.mem_singleton]

theorem register_consistent (registry : Registry Callback) (r : Registration Callback)
    (consistent : Consistent registry) : Consistent (registerSubscription registry r) := by
  -- a registration is turned down, or its id is new to both tables
  unfold registerSubscription genSubscribtionId
  by_cases taken : r.id ∈ registry.subscriptions
  · rw [if_pos taken]
    exact consistent
  · rw [if_neg taken]
    have fresh (type : Text) (ids : List Text) (found : registry.msg2Subids.lookup type = some ids)
        (id : Text) (member : id ∈ ids) : id ≠ r.id := by
      rintro rfl
      obtain ⟨tuple, stored, -⟩ := consistent.listed type ids _ found member
      exact taken (AList.lookup_isSome.mp (Option.isSome_iff_exists.mpr ⟨tuple, stored⟩))
    have before (id : Text) (member : id ∈ (registry.msg2Subids.lookup r.es.msgType).getD []) :
        ∃ ids, registry.msg2Subids.lookup r.es.msgType = some ids ∧ id ∈ ids := by
      cases found : registry.msg2Subids.lookup r.es.msgType with
      | none =>
          rw [found] at member
          exact absurd member (by simp)
      | some ids =>
          rw [found] at member
          exact ⟨ids, rfl, member⟩
    constructor
    · intro type ids id found member
      dsimp only at found ⊢
      by_cases same : type = r.es.msgType
      · subst same
        rw [AList.lookup_insert, Option.some.injEq] at found
        subst found
        rcases mem_addId.mp member with old | rfl
        · obtain ⟨ids, listed, member⟩ := before id old
          rw [AList.lookup_insert_ne (fresh _ ids listed id member)]
          exact consistent.listed _ ids id listed member
        · exact ⟨r.tuple, AList.lookup_insert _, rfl⟩
      · rw [AList.lookup_insert_ne same] at found
        rw [AList.lookup_insert_ne (fresh type ids found id member)]
        exact consistent.listed type ids id found member
    · intro id tuple stored
      dsimp only at stored ⊢
      by_cases same : id = r.id
      · subst same
        rw [AList.lookup_insert, Option.some.injEq] at stored
        subst stored
        exact ⟨_, AList.lookup_insert _, mem_addId.mpr (.inr rfl)⟩
      · rw [AList.lookup_insert_ne same] at stored
        obtain ⟨ids, listed, member⟩ := consistent.known id tuple stored
        by_cases type : tuple.es.msgType = r.es.msgType
        · rw [type, AList.lookup_insert]
          refine ⟨_, rfl, mem_addId.mpr (.inl ?_)⟩
          rw [type] at listed
          rw [listed]
          exact member
        · rw [AList.lookup_insert_ne type]
          exact ⟨ids, listed, member⟩

/-- The id is registered under the type it is removed from, if it is registered at all and the
type is known. -/
def Fits (registry : Registry Callback) : Call Callback → Prop
  | .register _ => True
  | .unRegister msgType subscriptionId => ∀ tuple, (registry.msg2Subids.lookup msgType).isSome →
      registry.subscriptions.lookup subscriptionId = some tuple → tuple.es.msgType = msgType

theorem unRegister_consistent_iff (registry : Registry Callback) (msgType subscriptionId : Text)
    (consistent : Consistent registry) :
    Consistent (unRegisterSubscription registry msgType subscriptionId) ↔
      Fits registry (.unRegister msgType subscriptionId) := by
  -- a removal under another type leaves the id in the set of its own type
  unfold unRegisterSubscription
  cases subscribed : registry.msg2Subids.lookup msgType with
  | none =>
      refine iff_of_true consistent ?_
      intro tuple known
      rw [subscribed] at known
      cases known
  | some ids =>
      dsimp only
      constructor
      · intro after tuple _ stored
        by_contra different
        obtain ⟨others, listed, member⟩ := consistent.known subscriptionId tuple stored
        have still : (registry.msg2Subids.insert msgType (ids.filter (· ≠ subscriptionId))).lookup
            tuple.es.msgType = some others := by
          rw [AList.lookup_insert_ne different, listed]
        obtain ⟨other, found, -⟩ := after.listed tuple.es.msgType others subscriptionId still member
        rw [AList.lookup_erase] at found
        cases found
      · intro fits
        constructor
        · intro type others id found member
          dsimp only at found ⊢
          by_cases same : type = msgType
          · subst same
            rw [AList.lookup_insert, Option.some.injEq] at found
            subst found
            obtain ⟨old, other⟩ := List.mem_filter.mp member
            rw [AList.lookup_erase_ne (by simpa using other)]
            exact consistent.listed type ids id subscribed old
          · rw [AList.lookup_insert_ne same] at found
            obtain ⟨tuple, stored, own⟩ := consistent.listed type others id found member
            have kept : id ≠ subscriptionId := by
              rintro rfl
              have known : (registry.msg2Subids.lookup msgType).isSome := by rw [subscribed]; rfl
              exact same (own.symm.trans (fits tuple known stored))
            rw [AList.lookup_erase_ne kept]
            exact ⟨tuple, stored, own⟩
        · intro id tuple stored
          dsimp only at stored ⊢
          have kept : id ≠ subscriptionId := by
            rintro rfl
            rw [AList.lookup_erase] at stored
            cases stored
          rw [AList.lookup_erase_ne kept] at stored
          obtain ⟨others, listed, member⟩ := consistent.known id tuple stored
          by_cases type : tuple.es.msgType = msgType
          · rw [type] at listed ⊢
            rw [AList.lookup_insert]
            rw [subscribed, Option.some.injEq] at listed
            subst listed
            exact ⟨_, rfl, List.mem_filter.mpr ⟨member, by simpa using kept⟩⟩
          · rw [AList.lookup_insert_ne type]
            exact ⟨others, listed, member⟩

theorem next_consistent_iff (registry : Registry Callback) (call : Call Callback)
    (consistent : Consistent registry) : Consistent (next registry call) ↔ Fits registry call := by
  cases call with
  | register r => exact iff_of_true (register_consistent registry r consistent) trivial
  | unRegister msgType subscriptionId =>
      exact unRegister_consistent_iff registry msgType subscriptionId consistent

/-- The tables fit together throughout a list of calls exactly if every removal names the type the
id is registered under. -/
theorem tables_consistent_iff (calls : List (Call Callback)) :
    Throughout next (fun registry => Consistent registry ∧ NeverMisses registry)
      (.empty Callback) calls ↔
      Allowed next Fits (.empty Callback) calls := by
  rw [← throughout_iff (fun _ => True) Consistent trivial consistent_empty (fun _ _ _ => trivial)
    (fun registry call _ consistent => next_consistent_iff registry call consistent) calls]
  constructor
  · intro all before after shape
    exact (all before after shape).1
  · intro all before after shape
    exact ⟨all before after shape, (all before after shape).neverMisses⟩

end Tables

/-- An application that subscribes to the probes and to the new stations of all stations. -/
def probes : Registration Unit := ⟨"App".toList, ⟨ALL, FNII_MSG_PROBE_INFO, ALL⟩, ()⟩

def arrivals : Registration Unit := ⟨"App".toList, ⟨ALL, FNII_MSG_NEW_STA, ALL⟩, ()⟩

/-- The subscription to the probes is removed as one to new stations: its id stays in the set of the
probes and is not found any more. -/
theorem other_type_removed :
    ¬ Throughout next (fun registry => Consistent registry ∧ NeverMisses registry)
    (.empty Unit) [.register probes, .register arrivals,
      .unRegister FNII_MSG_NEW_STA probes.id] := by
  intro all
  have after := (all [.register probes, .register arrivals, .unRegister FNII_MSG_NEW_STA probes.id]
      [] rfl).2
  have missed := after .stored FNII_MSG_PROBE_INFO [probes.id] (by decide +kernel) probes.id
      (by decide +kernel)
  exact absurd missed (by decide +kernel)

end LazyAS.SubscriptionTables

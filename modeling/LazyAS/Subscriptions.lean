import LazyAS.Master
import Mathlib.Data.List.Dedup

/-! The subscriptions of the applications: how `Master.registerSubscription` stores them and
which callbacks `checkSubscribtion` runs. Callbacks and the state they work on are parameters.
A callback that ends with an exception ends the whole delivery. `order` is the order in which
the set of ids is iterated. -/
namespace LazyAS.Subscriptions
open WireText ControllerView Master

def ALL : Text := ['*']

structure EventSubscription where
  staMacAddress : Text
  msgType : Text
  status : Text
  deriving DecidableEq

structure SubscriptionCallbackTuple (Callback : Type) where
  es : EventSubscription
  cb : Callback
  deriving DecidableEq

structure Registry (Callback : Type) where
  subscriptions : AList fun _ : Text => SubscriptionCallbackTuple Callback
  msg2Subids : AList fun _ : Text => List Text

def Registry.empty (Callback : Type) : Registry Callback := ⟨∅, ∅⟩

/-- The arguments of a call of `registerSubscription`. -/
structure Registration (Callback : Type) where
  appName : Text
  es : EventSubscription
  cb : Callback
  deriving DecidableEq

section Registering
variable {Callback : Type}

def Registration.tuple (r : Registration Callback) : SubscriptionCallbackTuple Callback :=
  ⟨r.es, r.cb⟩

def Registration.id (r : Registration Callback) : Text :=
  r.appName ++ r.es.msgType ++ r.es.staMacAddress

def genSubscribtionId (registry : Registry Callback) (r : Registration Callback) : Option Text :=
  if r.id ∈ registry.subscriptions then none else some r.id

def addId (ids : List Text) (id : Text) : List Text := if ids.contains id then ids else ids ++ [id]

def registerSubscription (registry : Registry Callback) (r : Registration Callback) :
    Registry Callback :=
  match genSubscribtionId registry r with
  | none => registry
  | some id =>
      let ids := (registry.msg2Subids.lookup r.es.msgType).getD []
      { subscriptions := registry.subscriptions.insert id r.tuple
        msg2Subids := registry.msg2Subids.insert r.es.msgType (addId ids id) }

def registerAll (rs : List (Registration Callback)) : Registry Callback :=
  rs.foldl registerSubscription (.empty Callback)

/-- `registerSubscription` for every address of the list `macAddrList`, up to the line `*`. -/
def registerList (subscribe : Text → List (Registration Callback)) :
    List Text → List (Registration Callback)
  | [] => []
  | mac :: macs => subscribe mac ++ if mac = ALL then [] else registerList subscribe macs

end Registering

section Delivery
variable {Callback State : Type} (exec : Callback → EventSubscription → State → State × Bool)
  (station : State → Option Status)

def matchesMac (es : EventSubscription) (mac : Text) : Bool :=
  es.staMacAddress = ALL || es.staMacAddress = mac

/-- The test on the status: it asks for the station's status, not for the subscription's. `none`
is the exception when the station is gone. -/
def statusTest (es : EventSubscription) (s : State) : Option Bool :=
  if es.status = ALL then some true
  else (station s).map fun current => current = .onLine || current = .offLine

/-- The loop of `checkSubscribtion`: the state it ends in and the callbacks it ran. -/
def deliver (registry : Registry Callback) (mac : Text) :
    List Text → State → State × List (SubscriptionCallbackTuple Callback)
  | [], s => (s, [])
  | id :: ids, s =>
      match registry.subscriptions.lookup id with
      | none => (s, [])
      | some tuple =>
          if matchesMac tuple.es mac then
            match statusTest station tuple.es s with
            | none => (s, [])
            | some false => deliver registry mac ids s
            | some true =>
                let result := exec tuple.cb tuple.es s
                if result.2 then
                  let later := deliver registry mac ids result.1
                  (later.1, tuple :: later.2)
                else (result.1, [tuple])
          else deliver registry mac ids s

def checkSubscribtion (order : Order) (registry : Registry Callback) (type mac : Text) (s : State) :
    State × List (SubscriptionCallbackTuple Callback) :=
  match station s, registry.msg2Subids.lookup type with
  | some _, some ids => deliver exec station registry mac (order.arrange ids) s
  | _, _ => (s, [])

/-! What the delivery goes through. -/

/-- The stored subscriptions for a type and a station, in the order of the iteration. -/
def candidates (order : Order) (registry : Registry Callback) (type mac : Text) :
    List (SubscriptionCallbackTuple Callback) :=
  ((order.arrange ((registry.msg2Subids.lookup type).getD [])).filterMap
    registry.subscriptions.lookup).filter
    fun tuple => matchesMac tuple.es mac

/-- The state behind some callbacks; `none` if one of them fails, or if the station is gone
where its status is looked at. -/
def behind : List (SubscriptionCallbackTuple Callback) → State → Option State
  | [], s => some s
  | tuple :: tuples, s =>
      if tuple.es.status = ALL ∨ (station s).isSome then
        let result := exec tuple.cb tuple.es s
        if result.2 then behind tuples result.1 else none
      else none

/-- The delivery gets as far as to run the callback. -/
def Reached (before : List (SubscriptionCallbackTuple Callback))
    (tuple : SubscriptionCallbackTuple Callback) (s : State) : Prop :=
  ∃ s', behind exec station before s = some s' ∧ (tuple.es.status = ALL ∨ (station s').isSome)

/-- The subscription asks for messages about stations in this status. -/
def wantsStatus (current : Status) (es : EventSubscription) : Bool :=
  es.status = ALL || es.status = current.text

def Wants (type mac : Text) (current : Status) (es : EventSubscription) : Bool :=
  es.msgType = type && matchesMac es mac && wantsStatus current es

/-- The loop without the lookups: it runs the candidates until one of them fails. -/
def runs : List (SubscriptionCallbackTuple Callback) → State →
    List (SubscriptionCallbackTuple Callback)
  | [], _ => []
  | tuple :: tuples, s =>
      if tuple.es.status = ALL ∨ (station s).isSome then
        let result := exec tuple.cb tuple.es s
        if result.2 then tuple :: runs tuples result.1 else [tuple]
      else []

theorem statusTest_known (es : EventSubscription) (s : State) :
    statusTest station es s = if es.status = ALL ∨ (station s).isSome then some true else none := by
  unfold statusTest
  by_cases all : es.status = ALL
  · simp [all]
  · cases station s with
    | none => simp [all]
    | some current => cases current <;> simp [all]

theorem deliver_runs (registry : Registry Callback) (mac : Text) (ids : List Text) (s : State)
    (known : ∀ id ∈ ids, id ∈ registry.subscriptions) :
    (deliver exec station registry mac ids s).2 = runs exec station
      ((ids.filterMap registry.subscriptions.lookup).filter fun tuple => matchesMac tuple.es mac)
        s := by
  induction ids generalizing s with
  | nil => rfl
  | cons id ids ih =>
      rw [List.forall_mem_cons] at known
      obtain ⟨tuple, stored⟩ := Option.isSome_iff_exists.mp (AList.lookup_isSome.mpr known.1)
      unfold deliver
      simp only [stored, List.filterMap_cons, List.filter_cons]
      by_cases own : matchesMac tuple.es mac = true
      · rw [if_pos own, if_pos own, statusTest_known, runs]
        by_cases test : tuple.es.status = ALL ∨ (station s).isSome
        · rw [if_pos test, if_pos test]
          dsimp only
          split
          · rw [ih _ known.2]
          · rfl
        · rw [if_neg test, if_neg test]
      · rw [if_neg own, if_neg own, ih s known.2]

theorem deliver_keeps (holds : State → Prop) (kept : ∀ cb es s, holds s → holds (exec cb es s).1)
    (registry : Registry Callback) (mac : Text) (ids : List Text) (s : State) (before : holds s) :
    holds (deliver exec station registry mac ids s).1 := by
  induction ids generalizing s with
  | nil => exact before
  | cons id ids ih =>
      unfold deliver
      cases registry.subscriptions.lookup id with
      | none => exact before
      | some tuple =>
          dsimp only
          by_cases own : matchesMac tuple.es mac = true
          · rw [if_pos own, statusTest_known]
            by_cases test : tuple.es.status = ALL ∨ (station s).isSome
            · rw [if_pos test]
              dsimp only
              split
              · exact ih _ (kept _ _ s before)
              · exact kept _ _ s before
            · rw [if_neg test]
              exact before
          · rw [if_neg own]
            exact ih s before

theorem deliver_reaches (holds : State → Prop) (brought : ∀ cb es s, holds (exec cb es s).1)
    (registry : Registry Callback) (mac : Text) (ids : List Text) (s : State)
    (known : ∀ id ∈ ids, id ∈ registry.subscriptions) (tracked : (station s).isSome = true)
    (wanted : ∃ id ∈ ids, ∃ tuple, registry.subscriptions.lookup id = some tuple ∧
      matchesMac tuple.es mac = true) :
    holds (deliver exec station registry mac ids s).1 := by
  -- what every callback brings about holds behind a delivery that runs one
  induction ids with
  | nil => simp at wanted
  | cons id ids ih =>
      rw [List.forall_mem_cons] at known
      cases stored : registry.subscriptions.lookup id with
      | none => exact absurd (AList.lookup_isSome.mpr known.1) (by simp [stored])
      | some tuple =>
          unfold deliver
          rw [stored]
          dsimp only
          by_cases own : matchesMac tuple.es mac = true
          · rw [if_pos own, statusTest_known, if_pos (Or.inr tracked)]
            dsimp only
            split
            · exact deliver_keeps exec station holds (fun cb es s _ => brought cb es s) registry mac
                ids _ (brought _ _ s)
            · exact brought _ _ s
          · rw [if_neg own]
            apply ih known.2
            obtain ⟨other, member, tuple', found, matched⟩ := wanted
            rcases List.mem_cons.mp member with here | later
            · rw [here, stored, Option.some.injEq] at found
              exact absurd (found ▸ matched) own
            · exact ⟨other, later, tuple', found, matched⟩

theorem runs_reached (tuples : List (SubscriptionCallbackTuple Callback)) (s : State) :
    ∃ count, runs exec station tuples s = tuples.take count ∧
      ∀ before tuple after, tuples = before ++ tuple :: after →
        (before.length < count ↔ Reached exec station before tuple s) := by
  -- what ran is the part of the candidates that the delivery reached
  induction tuples generalizing s with
  | nil =>
      refine ⟨0, rfl, ?_⟩
      intro before tuple after shape
      simp at shape
  | cons first tuples ih =>
      unfold runs
      by_cases test : first.es.status = ALL ∨ (station s).isSome
      · rw [if_pos test]
        dsimp only
        by_cases fine : (exec first.cb first.es s).2 = true
        · obtain ⟨count, ran, reached⟩ := ih (exec first.cb first.es s).1
          rw [if_pos fine]
          refine ⟨count + 1, by rw [ran, List.take_succ_cons], ?_⟩
          intro before tuple after shape
          cases before with
          | nil =>
              rw [List.nil_append, List.cons.injEq] at shape
              rw [← shape.1]
              exact iff_of_true (Nat.succ_pos _) ⟨s, rfl, test⟩
          | cons other before =>
              rw [List.cons_append, List.cons.injEq] at shape
              rw [← shape.1, List.length_cons, Nat.succ_lt_succ_iff,
                reached before tuple after shape.2]
              simp only [Reached, behind, if_pos test, if_pos fine]
        · rw [if_neg fine]
          refine ⟨1, rfl, ?_⟩
          intro before tuple after shape
          cases before with
          | nil =>
              rw [List.nil_append, List.cons.injEq] at shape
              rw [← shape.1]
              exact iff_of_true Nat.one_pos ⟨s, rfl, test⟩
          | cons other before =>
              rw [List.cons_append, List.cons.injEq] at shape
              rw [← shape.1]
              simp [Reached, behind, test, fine]
      · rw [if_neg test]
        refine ⟨0, rfl, ?_⟩
        intro before tuple after shape
        cases before with
        | nil =>
            rw [List.nil_append, List.cons.injEq] at shape
            rw [← shape.1]
            simpa [Reached, behind] using test
        | cons other before =>
            rw [List.cons_append, List.cons.injEq] at shape
            rw [← shape.1]
            simp [Reached, behind, test]

end Delivery

/-! What the tables hold after some registrations. -/

section Stored
variable {Callback : Type}

/-- The registrations that are stored: the first one for each id. -/
def accepted (seen : List Text) : List (Registration Callback) → List (Registration Callback)
  | [] => []
  | r :: rs => if r.id ∈ seen then accepted seen rs else r :: accepted (r.id :: seen) rs

theorem accepted_mem (seen : List Text) (rs : List (Registration Callback))
    (r : Registration Callback) :
    r ∈ accepted seen rs ↔ r.id ∉ seen ∧ rs.find? (fun other => other.id = r.id) = some r := by
  -- a registration is stored exactly when no other one with its id came before it
  induction rs generalizing seen with
  | nil => simp [accepted]
  | cons first rs ih =>
      unfold accepted
      by_cases same : first.id = r.id
      · rw [List.find?_cons_of_pos (by simpa using same)]
        by_cases taken : first.id ∈ seen
        · rw [if_pos taken, ih seen]
          exact iff_of_false (fun stored => stored.1 (same ▸ taken))
            (fun stored => stored.1 (same ▸ taken))
        · rw [if_neg taken, List.mem_cons, ih, Option.some.injEq]
          constructor
          · intro stored
            rcases stored with here | later
            · exact ⟨here ▸ taken, here.symm⟩
            · exact absurd (List.mem_cons.mpr (Or.inl same.symm)) later.1
          · intro stored
            exact Or.inl stored.2.symm
      · rw [List.find?_cons_of_neg (by simpa using same)]
        by_cases taken : first.id ∈ seen
        · rw [if_pos taken, ih seen]
        · rw [if_neg taken, List.mem_cons, ih, List.mem_cons, not_or]
          constructor
          · intro stored
            rcases stored with here | later
            · exact absurd (congrArg Registration.id here.symm) same
            · exact ⟨later.1.2, later.2⟩
          · intro stored
            exact Or.inr ⟨⟨Ne.symm same, stored.1⟩, stored.2⟩

theorem accepted_nodup (seen : List Text) (rs : List (Registration Callback)) :
    (accepted seen rs).Nodup := by
  induction rs generalizing seen with
  | nil => exact List.nodup_nil
  | cons r rs ih =>
      unfold accepted
      by_cases taken : r.id ∈ seen
      · rw [if_pos taken]
        exact ih seen
      · rw [if_neg taken, List.nodup_cons, accepted_mem]
        exact ⟨fun stored => stored.1 List.mem_cons_self, ih _⟩

/-- The tables hold exactly these registrations, in this order. -/
structure Holds (registry : Registry Callback) (held : List (Registration Callback)) : Prop where
  stored : ∀ r ∈ held, registry.subscriptions.lookup r.id = some r.tuple
  known : ∀ id, id ∈ registry.subscriptions ↔ id ∈ held.map Registration.id
  listed : ∀ type, (registry.msg2Subids.lookup type).getD [] =
    (held.filter fun r => r.es.msgType = type).map Registration.id

theorem holds_empty : Holds (.empty Callback) [] := by
  constructor
  · intro r member
    simp at member
  · intro id
    simp [Registry.empty]
  · intro type
    simp [Registry.empty]

theorem register_holds (registry : Registry Callback) (held : List (Registration Callback))
    (r : Registration Callback) (holds : Holds registry held) :
    Holds (registerSubscription registry r)
      (if r.id ∈ held.map Registration.id then held else held ++ [r]) := by
  unfold registerSubscription genSubscribtionId
  by_cases taken : r.id ∈ held.map Registration.id
  · rw [if_pos ((holds.known r.id).mpr taken), if_pos taken]
    exact holds
  · rw [if_neg (fun inside => taken ((holds.known r.id).mp inside)), if_neg taken]
    have other (x : Registration Callback) (member : x ∈ held) : x.id ≠ r.id := by
      intro same
      exact taken (same ▸ List.mem_map_of_mem member)
    have absent : ((held.filter fun x => x.es.msgType = r.es.msgType).map Registration.id).contains
        r.id = false := by
      rw [← Bool.not_eq_true, List.contains_iff_mem]
      intro inside
      obtain ⟨x, member, same⟩ := List.mem_map.mp inside
      exact other x (List.mem_of_mem_filter member) same
    constructor
    · intro x member
      rcases List.mem_append.mp member with old | new
      · rw [AList.lookup_insert_ne (other x old)]
        exact holds.stored x old
      · rw [List.mem_singleton.mp new, AList.lookup_insert]
    · intro id
      rw [AList.mem_insert, holds.known, List.map_append, List.mem_append, List.map_singleton,
        List.mem_singleton, or_comm]
    · intro type
      by_cases same : type = r.es.msgType
      · subst same
        simp only [AList.lookup_insert, Option.getD_some, addId, holds.listed, absent,
          Bool.false_eq_true, if_false, List.filter_append, List.map_append]
        simp
      · rw [AList.lookup_insert_ne same, holds.listed, List.filter_append]
        simp [Ne.symm same]

theorem registered_holds (rs : List (Registration Callback)) (registry : Registry Callback)
    (held : List (Registration Callback)) (holds : Holds registry held) (seen : List Text)
    (same : ∀ id, id ∈ seen ↔ id ∈ held.map Registration.id) :
    Holds (rs.foldl registerSubscription registry) (held ++ accepted seen rs) := by
  induction rs generalizing registry held seen with
  | nil => simpa [accepted] using holds
  | cons r rs ih =>
      have step := register_holds registry held r holds
      rw [List.foldl_cons, accepted]
      by_cases taken : r.id ∈ seen
      · rw [if_pos ((same r.id).mp taken)] at step
        rw [if_pos taken]
        exact ih _ held step seen same
      · rw [if_neg (fun inside => taken ((same r.id).mpr inside))] at step
        rw [if_neg taken]
        have longer := ih _ (held ++ [r]) step (r.id :: seen) (by
          intro id
          rw [List.mem_cons, same, List.map_append, List.mem_append, List.map_singleton,
            List.mem_singleton, or_comm])
        rwa [List.append_assoc, List.singleton_append] at longer

theorem registerAll_holds (rs : List (Registration Callback)) :
    Holds (registerAll rs) (accepted [] rs) := by
  have all := registered_holds rs (.empty Callback) [] holds_empty [] (fun _ => Iff.rfl)
  rwa [List.nil_append] at all

theorem candidates_perm (order : Order) (registry : Registry Callback)
    (held : List (Registration Callback)) (holds : Holds registry held) (type mac : Text) :
    (candidates order registry type mac).Perm
      ((held.filter fun r => r.es.msgType = type && matchesMac r.es mac).map
        Registration.tuple) := by
  -- the candidates are the stored subscriptions for the type and the station, each once
  have found : ∀ rs : List (Registration Callback), (∀ r ∈ rs, r ∈ held) →
      (rs.map Registration.id).filterMap registry.subscriptions.lookup =
          rs.map Registration.tuple := by
    intro rs inside
    induction rs with
    | nil => rfl
    | cons r rs ih =>
        rw [List.forall_mem_cons] at inside
        rw [List.map_cons, List.map_cons, List.filterMap_cons, holds.stored r inside.1, ih inside.2]
  have listed := found (held.filter fun r => r.es.msgType = type)
      (fun r member => List.mem_of_mem_filter member)
  unfold candidates
  rw [holds.listed]
  have arranged := ((order.perm ((held.filter fun r => r.es.msgType = type).map
    Registration.id)).filterMap registry.subscriptions.lookup).filter fun tuple =>
      matchesMac tuple.es mac
  rw [listed, List.filter_map, List.filter_filter] at arranged
  convert arranged using 3
  funext r
  rw [Bool.and_comm]
  rfl

end Stored

/-! Which callbacks run, and which ones should. -/

section Exact
variable {Callback State : Type} (exec : Callback → EventSubscription → State → State × Bool)
  (station : State → Option Status)

theorem checked_candidates (order : Order) (registry : Registry Callback)
    (held : List (Registration Callback)) (holds : Holds registry held) (type mac : Text)
    (s : State) (current : Status) (tracked : station s = some current) :
    (checkSubscribtion exec station order registry type mac s).2 =
      runs exec station (candidates order registry type mac) s := by
  unfold checkSubscribtion candidates
  rw [tracked]
  cases listed : registry.msg2Subids.lookup type with
  | none =>
      have nothing : order.arrange ([] : List Text) = [] := (order.perm []).eq_nil
      simp [nothing, runs]
  | some ids =>
      apply deliver_runs
      intro id member
      have known := holds.listed type
      rw [listed, Option.getD_some] at known
      rw [(order.perm ids).mem_iff, known, List.mem_map] at member
      rw [holds.known]
      cases member with
      | intro r found => exact found.2 ▸ List.mem_map_of_mem (List.mem_of_mem_filter found.1)

/-- A list whose first `count` items are the ones with a property, told place by place. -/
theorem front_exact {α : Type} (wanted : α → Bool) (items : List α) (count : Nat) :
    (∀ before item after, items = before ++ item :: after →
      (wanted item = true ↔ before.length < count)) ↔
      (∀ item ∈ items.take count, wanted item = true) ∧
        ∀ item ∈ items.drop count, ¬ wanted item = true := by
  induction items generalizing count with
  | nil => simp
  | cons first items ih =>
      cases count with
      | zero =>
          simp only [Nat.not_lt_zero, iff_false, List.take_zero, List.drop_zero, List.not_mem_nil,
            false_imp_iff, implies_true, true_and]
          constructor
          · intro each item member
            cases List.append_of_mem member with
            | intro before rest =>
                cases rest with
                | intro after shape => exact each before item after shape
          · intro none before item after shape
            apply none
            rw [shape]
            exact List.mem_append_right _ List.mem_cons_self
      | succ count =>
          rw [List.take_succ_cons, List.drop_succ_cons, List.forall_mem_cons, and_assoc, ← ih count]
          constructor
          · intro each
            constructor
            · exact (each [] first items rfl).mpr (Nat.succ_pos _)
            · intro before item after shape
              rw [each (first :: before) item after
                (by rw [shape]; rfl), List.length_cons, Nat.succ_lt_succ_iff]
          · intro each before item after shape
            cases before with
            | nil =>
                rw [List.nil_append, List.cons.injEq] at shape
                rw [← shape.1]
                exact iff_of_true each.1 (Nat.succ_pos _)
            | cons other before =>
                rw [List.cons_append, List.cons.injEq] at shape
                rw [each.2 before item after shape.2, List.length_cons, Nat.succ_lt_succ_iff]

theorem front_filter {α : Type} (wanted : α → Bool) (items : List α) (count : Nat)
    (inFront : ∀ item ∈ items.take count, wanted item = true)
    (behind : ∀ item ∈ items.drop count, ¬ wanted item = true) :
    items.filter wanted = items.take count := by
  calc items.filter wanted =
    (items.take count ++ items.drop count).filter wanted := by rw [List.take_append_drop]
    _ = items.take count := by
      rw [List.filter_append, List.filter_eq_self.mpr inFront, List.filter_eq_nil_iff.mpr behind,
        List.append_nil]

theorem front_complete {α : Type} (wanted : α → Bool) (items : List α) (count : Nat)
    (inFront : ∀ item ∈ items.take count, wanted item = true)
    (long : items.countP wanted ≤ (items.take count).length) :
    ∀ item ∈ items.drop count, ¬ wanted item = true := by
  have parts : items.countP wanted = (items.take count).countP wanted +
      (items.drop count).countP wanted := by
    rw [← List.countP_append, List.take_append_drop]
  have whole : (items.take count).countP wanted = (items.take count).length :=
    List.countP_eq_length.mpr inFront
  rw [← List.countP_eq_zero]
  omega

theorem wanted_perm (order : Order) (rs : List (Registration Callback)) (type mac : Text)
    (current : Status) :
    ((candidates order (registerAll rs) type mac).filter fun tuple => wantsStatus current
      tuple.es).Perm
      (((accepted [] rs).filter fun r => Wants type mac current r.es).map Registration.tuple) := by
  have stored := (candidates_perm order _ _ (registerAll_holds rs) type mac).filter
    fun tuple => wantsStatus current tuple.es
  rw [List.filter_map, List.filter_filter] at stored
  convert stored using 3
  funext r
  rw [Bool.and_comm]
  rfl

variable [DecidableEq Callback]

/-- The callbacks that run are those of the registered subscriptions that ask for the message,
each once. -/
def ExactDispatch (order : Order) (rs : List (Registration Callback)) (type mac : Text) (s : State)
    (current : Status) : Prop :=
  (checkSubscribtion exec station order (registerAll rs) type mac s).2.Perm
    ((rs.dedup.filter fun r => Wants type mac current r.es).map Registration.tuple)

/-- Every subscription that asks for the message is the one stored under its id. -/
def FirstWithId (rs : List (Registration Callback)) (type mac : Text) (current : Status) : Prop :=
  ∀ r ∈ rs, Wants type mac current r.es = true → rs.find? (fun other => other.id = r.id) = some r

theorem accepted_wanted_perm (rs : List (Registration Callback)) (type mac : Text)
    (current : Status) (first : FirstWithId rs type mac current) :
    ((accepted [] rs).filter fun r => Wants type mac current r.es).Perm
      (rs.dedup.filter fun r => Wants type mac current r.es) := by
  apply (List.perm_ext_iff_of_nodup ((accepted_nodup [] rs).filter _)
    ((List.nodup_dedup rs).filter _)).mpr
  intro r
  rw [List.mem_filter, List.mem_filter, accepted_mem, List.mem_dedup]
  constructor
  · intro stored
    exact ⟨List.mem_of_find?_eq_some stored.1.2, stored.2⟩
  · intro wanted
    exact ⟨⟨List.not_mem_nil, first r wanted.1 wanted.2⟩, wanted.2⟩

theorem accepted_wanted_subset (rs : List (Registration Callback)) (type mac : Text)
    (current : Status) :
    ((accepted [] rs).filter fun r => Wants type mac current r.es) ⊆
      rs.dedup.filter fun r => Wants type mac current r.es := by
  intro r member
  rw [List.mem_filter, accepted_mem] at member
  rw [List.mem_filter, List.mem_dedup]
  exact ⟨List.mem_of_find?_eq_some member.1.2, member.2⟩

/-- With nothing turned down, and no callback run but those wanted, the dispatch is exact, and
only then: what is stored and wanted can be no more than what is registered and wanted. -/
theorem dispatch_exact_iff (order : Order) (rs : List (Registration Callback)) (type mac : Text)
    (s : State) (current : Status) (tracked : station s = some current) :
    ExactDispatch exec station order rs type mac s current ↔
      FirstWithId rs type mac current ∧
        ∀ before tuple after, candidates order (registerAll rs) type mac = before ++ tuple ::
          after →
          (wantsStatus current tuple.es = true ↔ Reached exec station before tuple s) := by
  have stored := wanted_perm order rs type mac current
  unfold ExactDispatch
  rw [checked_candidates exec station order _ _ (registerAll_holds rs) type mac s current tracked]
  cases runs_reached exec station (candidates order (registerAll rs) type mac) s with
  | intro count ran =>
      rw [ran.1]
      have places : (∀ before tuple after, candidates order (registerAll rs) type mac = before ++
          tuple :: after →
          (wantsStatus current tuple.es = true ↔ Reached exec station before tuple s)) ↔
          ∀ before tuple after, candidates order (registerAll rs) type mac = before ++ tuple ::
            after →
            (wantsStatus current tuple.es = true ↔ before.length < count) := by
        constructor
        · intro each before tuple after shape
          rw [each before tuple after shape, ran.2 before tuple after shape]
        · intro each before tuple after shape
          rw [each before tuple after shape, ran.2 before tuple after shape]
      rw [places, front_exact]
      generalize candidates order (registerAll rs) type mac = offered at stored
      constructor
      · intro exact
        have inFront : ∀ tuple ∈ offered.take count, wantsStatus current tuple.es = true := by
          intro tuple member
          rw [exact.mem_iff, List.mem_map] at member
          cases member with
          | intro r found =>
              have wanted := (List.mem_filter.mp found.1).2
              rw [Wants, Bool.and_eq_true] at wanted
              rw [← found.2]
              exact wanted.2
        -- counting: accepted ≤ registered = run ≤ accepted
        have subset := accepted_wanted_subset rs type mac current
        have subperm : ((accepted [] rs).filter fun r => Wants type mac current r.es).Subperm
            (rs.dedup.filter fun r => Wants type mac current r.es) :=
          List.subperm_of_subset ((accepted_nodup [] rs).filter _) subset
        have ranLength := exact.length_eq
        rw [List.length_map] at ranLength
        have storedLength := stored.length_eq
        rw [List.length_map, ← List.countP_eq_length_filter] at storedLength
        have parts : (offered.take count).countP (fun tuple => wantsStatus current tuple.es) ≤
            offered.countP fun tuple => wantsStatus current tuple.es :=
          (List.take_sublist count offered).countP_le
        rw [List.countP_eq_length.mpr inFront] at parts
        have shorter := subperm.length_le
        constructor
        · intro r member wanted
          have all : r ∈ (accepted [] rs).filter fun r => Wants type mac current r.es := by
            rw [(subperm.perm_of_length_le (by omega)).mem_iff, List.mem_filter, List.mem_dedup]
            exact ⟨member, wanted⟩
          rw [List.mem_filter, accepted_mem] at all
          exact all.1.2
        · constructor
          · exact inFront
          · apply front_complete _ _ _ inFront
            omega
      · intro good
        rw [← front_filter _ offered count good.2.1 good.2.2]
        exact stored.trans ((accepted_wanted_perm rs type mac current good.1).map _)

end Exact

/-! The subscriptions of `AccessControlMultiApp`: two of them differ only in the status. -/

inductive MultiAppCallback where
  | cb | cb1 | cb2
  deriving DecidableEq

def multiAppInit (macAddrList : List Text) : List (Registration MultiAppCallback) :=
  registerList (fun mac =>
    [⟨"AccessControl".toList, ⟨mac, FNII_MSG_PROBE_INFO, Status.offLine.text⟩, .cb⟩,
      ⟨"AccessControl".toList, ⟨mac, FNII_MSG_NEW_STA, Status.onLine.text⟩, .cb1⟩,
      ⟨"AccessControl".toList, ⟨mac, FNII_MSG_PROBE_INFO, Status.onLine.text⟩, .cb2⟩]) macAddrList

/-- A callback that returns and leaves the station's status alone. -/
def returns (_ : MultiAppCallback) (_ : EventSubscription) (current : Status) : Status × Bool :=
  (current, true)

theorem offline_probe_dispatched :
    ExactDispatch returns some .stored (multiAppInit [ALL]) FNII_MSG_PROBE_INFO
      "38a4ed94179e".toList
      .offLine .offLine := by
  apply (dispatch_exact_iff returns some .stored (multiAppInit [ALL]) FNII_MSG_PROBE_INFO
    "38a4ed94179e".toList .offLine .offLine rfl).mpr
  constructor
  · unfold FirstWithId
    decide +kernel
  · intro before tuple after shape
    have offered : candidates .stored (registerAll (multiAppInit [ALL])) FNII_MSG_PROBE_INFO
        "38a4ed94179e".toList = [⟨⟨ALL, FNII_MSG_PROBE_INFO, Status.offLine.text⟩,
          .cb⟩] := by decide +kernel
    rw [offered] at shape
    cases before with
    | nil =>
        rw [List.nil_append, List.cons.injEq] at shape
        rw [← shape.1]
        exact iff_of_true (by decide) ⟨.offLine, rfl, Or.inr rfl⟩
    | cons other before => simp at shape

/-- The callback for on-line stations was turned down, and the one for off-line stations runs in
its place. -/
theorem online_probe_misdelivered :
    ¬ ExactDispatch returns some .stored (multiAppInit [ALL]) FNII_MSG_PROBE_INFO
      "38a4ed94179e".toList
      .onLine .onLine := by
  unfold ExactDispatch
  decide +kernel

end LazyAS.Subscriptions

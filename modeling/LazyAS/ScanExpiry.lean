import Mathlib.Data.List.Induction
import LazyAS.AccessControlMultiApp

/-! The clean-up of `cn.fi.app.AccessControlMultiApp`: which scans `delStation` drops. A scan is the
array of a station's lists with the time at which each list was made. `Hashtable` counts its
changes, and the iterator of the loop throws when another hand than its own made one. -/
namespace LazyAS.ScanExpiry
open WireText ControllerView

structure ChaList where
  list : List Ref := []
  date : Int
  deriving DecidableEq

abbrev Scan := Fin 27 → Option ChaList

abbrev ScanTable := AList fun _ : Text => Scan

structure App where
  sta2ChannelScan : ScanTable := ∅
  timeout : Option Int := none

def waitTimeout : Int := 120

section
variable (v : View) (now : Int)

def isOld (cha : ChaList) : Bool := now - cha.date > waitTimeout * 1000

def visited (i : Fin 27) : Prop := 1 ≤ i.val ∧ i.val < 26

instance (i : Fin 27) : Decidable (visited i) := inferInstanceAs (Decidable (_ ∧ _))

def dates (scan : Scan) : List Int :=
  ((List.finRange 27).filter (visited ·)).filterMap fun i => (scan i).map ChaList.date

def later (endTime t : Int) : Int := if endTime < t ∨ endTime = 0 then t else endTime

def endTime (scan : Scan) : Int := (dates scan).foldl later 0

def cleared (scan : Scan) : Scan := fun i => if visited i then (scan i).filter fun cha =>
    !isOld now cha else scan i

structure Sweep where
  table : ScanTable
  threw : Bool := false

def visit (staMacAddress : Text) (sweep : Sweep) (staMac : Text) : Sweep :=
  if sweep.threw then sweep
  else if (v.stationMap.lookup staMac).isSome then
    match sweep.table.lookup staMac with
    | none => { sweep with threw := true }
    | some scan =>
        let kept := sweep.table.insert staMac (cleared now scan)
        if now - endTime scan > waitTimeout * 1000 then
          -- taking the station of the call out is a change that the iterator finds when it takes
          -- out its own
          if staMacAddress ∈ kept then { table := kept.erase staMacAddress, threw := true }
          else { sweep with table := kept.erase staMac }
        else { sweep with table := kept }
  else sweep

/-- `none` where the time of the last clean-up is too near. -/
def due (app : App) : Prop :=
  app.timeout.all (fun timeout => now - timeout > waitTimeout * 1000) = true

instance (app : App) : Decidable (due now app) := inferInstanceAs (Decidable (_ = true))

structure Handled where
  app : App
  returned : Bool := true

def delStation (order : Order) (app : App) (staMacAddress : Text) : Handled :=
  if due now app then
    let sweep := (order.arrange app.sta2ChannelScan.keys).foldl (visit v now staMacAddress)
        { table := app.sta2ChannelScan }
    if sweep.threw then { app := { app with sta2ChannelScan := sweep.table }, returned := false }
    else { app := { sta2ChannelScan := sweep.table, timeout := some now } }
  else { app }

end

def Stale (now : Int) (scan : Scan) : Prop := ∀ i, (scan i).all (isOld now) = true

instance (now : Int) (scan : Scan) : Decidable (Stale now scan) :=
  inferInstanceAs (Decidable (∀ _, _))

/-- What should become of a scan: nothing is left of a stale one, and every other one loses its old
lists. -/
def expired (now : Int) (scan : Scan) : Option Scan :=
  if Stale now scan then none else some fun i => (scan i).filter fun cha => !isOld now cha

def sinceZero (dates : List Int) : List Int := (dates.reverse.takeWhile (· ≠ 0)).reverse

/-- Nothing was heard for the waiting time at the places from 1 to 25. The second case is that of a
clock which has not gone for the waiting time since its zero: there a zero is taken for the lack of
a date. -/
def Lapsed (now : Int) (scan : Scan) : Prop :=
  if now > waitTimeout * 1000 then ∀ i, visited i → (scan i).all (isOld now) = true
  else (∀ date ∈ dates scan, date ≤ 0) ∧ sinceZero (dates scan) ≠ [] ∧
    ∀ date ∈ sinceZero (dates scan), now - date > waitTimeout * 1000

def Covered (now : Int) (scan : Scan) : Prop :=
  (Lapsed now scan → Stale now scan) ∧
    (¬ Lapsed now scan → ¬ Stale now scan ∧ ∀ i, ¬ visited i →
      (scan i).all (fun cha => !isOld now cha) = true)

/-- No station of the table has to go while the station of the call is in it, and every scan is
covered. -/
def Smooth (now : Int) (staMacAddress : Text) (table : ScanTable) : Prop :=
  (staMacAddress ∈ table → ∀ sta scan, table.lookup sta = some scan → ¬ Lapsed now scan) ∧
    ∀ sta scan, table.lookup sta = some scan → Covered now scan

/-! Which dates `endTime` stands for. -/

theorem later_old (now e t : Int) (long : now > waitTimeout * 1000) :
    now - later e t > waitTimeout * 1000 ↔ now - e > waitTimeout * 1000 ∧
      now - t > waitTimeout * 1000 := by
  unfold later
  split <;> omega

theorem latest_old (now : Int) (long : now > waitTimeout * 1000) (dates : List Int) (e : Int) :
    now - dates.foldl later e > waitTimeout * 1000 ↔
      now - e > waitTimeout * 1000 ∧ ∀ date ∈ dates, now - date > waitTimeout * 1000 := by
  induction dates generalizing e with
  | nil => simp
  | cons date dates ih =>
      rw [List.foldl_cons, ih, later_old now e date long, List.forall_mem_cons, and_assoc]

theorem sinceZero_concat (dates : List Int) (t : Int) :
    sinceZero (dates ++ [t]) = if t = 0 then [] else sinceZero dates ++ [t] := by
  simp only [sinceZero, List.reverse_append, List.reverse_singleton, List.singleton_append,
    List.takeWhile_cons]
  by_cases zero : t = 0 <;> simp [zero]

theorem latest_since (dates : List Int) :
    ((∃ date ∈ dates, 0 < date) → 0 < dates.foldl later 0) ∧
      ((∀ date ∈ dates, date ≤ 0) → (sinceZero dates = [] → dates.foldl later 0 = 0) ∧
        (sinceZero dates ≠ [] → dates.foldl later 0 < 0 ∧
          ∀ bound, dates.foldl later 0 < bound ↔ ∀ date ∈ sinceZero dates, date < bound)) := by
  -- a positive date stays, and without one only what follows the last zero counts
  induction dates using List.reverseRecOn with
  | nil => simp [sinceZero]
  | append_singleton dates t ih =>
      obtain ⟨positive, negative⟩ := ih
      simp only [List.foldl_append, List.foldl_cons, List.foldl_nil, sinceZero_concat,
        List.mem_append, List.mem_singleton]
      generalize dates.foldl later 0 = e at *
      refine ⟨?_, fun below => ?_⟩
      · rintro ⟨date, member | rfl, above⟩
        · have stays := positive ⟨date, member, above⟩
          unfold later
          split <;> omega
        · unfold later
          split <;> omega
      · have last := below t (Or.inr rfl)
        obtain ⟨empty, some_date⟩ := negative fun date member => below date (Or.inl member)
        by_cases zero : t = 0
        · subst zero
          rw [if_pos rfl]
          refine ⟨fun _ => ?_, fun wrong => absurd rfl wrong⟩
          by_cases without : sinceZero dates = []
          · rw [empty without]
            rfl
          · exact if_pos (Or.inl (some_date without).1)
        · rw [if_neg zero]
          refine ⟨fun wrong => absurd wrong
            (List.append_ne_nil_of_right_ne_nil _ (List.cons_ne_nil _ _)), fun _ => ?_⟩
          by_cases without : sinceZero dates = []
          · rw [empty without, without]
            have first : later 0 t = t := if_pos (Or.inr rfl)
            rw [first]
            exact ⟨by omega, fun bound => by simp⟩
          · obtain ⟨before, bounds⟩ := some_date without
            have small : later e t < 0 ∧ ∀ bound, later e t < bound ↔ e < bound ∧ t < bound := by
              unfold later
              split
              · exact ⟨by omega, fun bound => by omega⟩
              · exact ⟨by omega, fun bound => by omega⟩
            refine ⟨small.1, fun bound => ?_⟩
            rw [small.2, bounds, List.forall_mem_append]
            simp

theorem mem_dates (scan : Scan) (date : Int) :
    date ∈ dates scan ↔ ∃ i, visited i ∧ ∃ cha, scan i = some cha ∧ cha.date = date := by
  simp only [dates, List.mem_filterMap, List.mem_filter, List.mem_finRange, true_and,
    decide_eq_true_eq, Option.map_eq_some_iff]

theorem visited_old (now : Int) (scan : Scan) :
    (∀ date ∈ dates scan, now - date > waitTimeout * 1000) ↔
    ∀ i, visited i → (scan i).all (isOld now) = true := by
  constructor
  · intro old i inside
    cases holds : scan i with
    | none => rfl
    | some cha =>
        exact decide_eq_true (old cha.date
          ((mem_dates scan cha.date).mpr ⟨i, inside, cha, holds, rfl⟩))
  · intro old date member
    obtain ⟨i, inside, cha, holds, rfl⟩ := (mem_dates scan date).mp member
    have here := old i inside
    rw [holds] at here
    exact of_decide_eq_true here

theorem lapsed_iff (now : Int) (scan : Scan) : now - endTime scan > waitTimeout * 1000 ↔
    Lapsed now scan := by
  unfold Lapsed endTime
  split
  case isTrue long =>
    rw [latest_old now long, ← visited_old, and_iff_right (by omega)]
  case isFalse short =>
    obtain ⟨positive, negative⟩ := latest_since (dates scan)
    generalize (dates scan).foldl later 0 = e at *
    constructor
    · intro old
      have below : ∀ date ∈ dates scan, date ≤ 0 := fun date member => by
        by_contra above
        have stays := positive ⟨date, member, by omega⟩
        omega
      have some_date : sinceZero (dates scan) ≠ [] := fun without => by
        have zero := (negative below).1 without
        omega
      obtain ⟨_, bounds⟩ := (negative below).2 some_date
      refine ⟨below, some_date, fun date member => ?_⟩
      have bound := (bounds (now - waitTimeout * 1000)).mp (by omega) date member
      omega
    · rintro ⟨below, some_date, old⟩
      obtain ⟨_, bounds⟩ := (negative below).2 some_date
      have bound := (bounds (now - waitTimeout * 1000)).mpr fun date member => by
        have far := old date member
        omega
      omega

/-! The loop over the keys. -/

def swept (now : Int) (scan : Scan) : Option Scan :=
  if now - endTime scan > waitTimeout * 1000 then none else some (cleared now scan)

section
variable (v : View) (now : Int) (staMacAddress : Text)

theorem visit_kept (sweep : Sweep) (staMac : Text) (scan : Scan) (going : sweep.threw = false)
    (tracked : (v.stationMap.lookup staMac).isSome) (holds : sweep.table.lookup staMac = some scan)
    (smooth : staMacAddress ∈ sweep.table → ¬ Lapsed now scan) :
    (visit v now staMacAddress sweep staMac).threw = false ∧
      (∀ sta, (visit v now staMacAddress sweep staMac).table.lookup sta =
        if sta = staMac then swept now scan else sweep.table.lookup sta) ∧
      (staMacAddress ∈ (visit v now staMacAddress sweep staMac).table →
        staMacAddress ∈ sweep.table) := by
  have inside : staMac ∈ sweep.table := AList.lookup_isSome.mp (by rw [holds]; rfl)
  have members : ∀ sta, sta ∈ sweep.table.insert staMac (cleared now scan) →
      sta ∈ sweep.table := fun sta member => by
    rcases (AList.mem_insert _).mp member with rfl | member
    · exact inside
    · exact member
  simp only [visit, going, Bool.false_eq_true, if_false, tracked, if_true, holds, swept]
  by_cases old : now - endTime scan > waitTimeout * 1000
  · have absent : staMacAddress ∉ sweep.table := fun member =>
        smooth member ((lapsed_iff now scan).mp old)
    rw [if_pos old, if_neg fun member => absent (members _ member)]
    refine ⟨rfl, fun sta => ?_, fun member => members _ (AList.mem_erase.mp member).2⟩
    by_cases same : sta = staMac
    · rw [same, if_pos rfl, if_pos old]
      exact AList.lookup_erase _ _
    · rw [if_neg same]
      exact (AList.lookup_erase_ne same).trans (AList.lookup_insert_ne same)
  · rw [if_neg old]
    refine ⟨rfl, fun sta => ?_, members _⟩
    by_cases same : sta = staMac
    · rw [same, if_pos rfl, if_neg old]
      exact AList.lookup_insert _
    · rw [if_neg same]
      exact AList.lookup_insert_ne same

theorem visit_threw (sweep : Sweep) (staMac : Text) (threw : sweep.threw = true) :
    visit v now staMacAddress sweep staMac = sweep := by
  rw [visit, if_pos threw]

theorem visits_threw (keys : List Text) (sweep : Sweep) (threw : sweep.threw = true) :
    (keys.foldl (visit v now staMacAddress) sweep).threw = true := by
  induction keys with
  | nil => exact threw
  | cons key keys ih =>
      rw [List.foldl_cons, visit_threw v now staMacAddress sweep key threw]; exact ih

/-- The loop takes out what has lapsed and clears the rest, as long as nothing lapses while the
station of the call is there. -/
theorem visits_kept (keys : List Text) (nodup : keys.Nodup) (sweep : Sweep)
    (going : sweep.threw = false) (tracked : ∀ sta ∈ keys, (v.stationMap.lookup sta).isSome)
    (present : ∀ sta ∈ keys, sta ∈ sweep.table)
    (smooth : staMacAddress ∈ sweep.table → ∀ sta ∈ keys, ∀ scan,
      sweep.table.lookup sta = some scan → ¬ Lapsed now scan) :
    (keys.foldl (visit v now staMacAddress) sweep).threw = false ∧
      ∀ sta, (keys.foldl (visit v now staMacAddress) sweep).table.lookup sta =
        if sta ∈ keys then (sweep.table.lookup sta).bind (swept now)
          else sweep.table.lookup sta := by
  induction keys generalizing sweep with
  | nil => exact ⟨going, fun sta => rfl⟩
  | cons key keys ih =>
      obtain ⟨absent, nodup⟩ := List.nodup_cons.mp nodup
      obtain ⟨scan, holds⟩ := Option.isSome_iff_exists.mp
          (AList.lookup_isSome.mpr (present key List.mem_cons_self))
      obtain ⟨goes, lookups, members⟩ := visit_kept v now staMacAddress sweep key scan going
        (tracked key List.mem_cons_self) holds fun member =>
          smooth member key List.mem_cons_self scan holds
      have others : ∀ sta ∈ keys, (visit v now staMacAddress sweep key).table.lookup sta =
          sweep.table.lookup sta :=
        fun sta member => by
          have other : sta ≠ key := fun same => absent (same ▸ member)
          rw [lookups, if_neg other]
      obtain ⟨last, rest⟩ := ih nodup _ goes
          (fun sta member => tracked sta (List.mem_cons_of_mem _ member))
        (fun sta member => by
          rw [← AList.lookup_isSome, others sta member, AList.lookup_isSome]
          exact present sta (List.mem_cons_of_mem _ member))
        (fun member sta listed scan found => smooth (members member) sta
          (List.mem_cons_of_mem _ listed) scan
          (others sta listed ▸ found))
      refine ⟨last, fun sta => ?_⟩
      rw [List.foldl_cons, rest]
      by_cases listed : sta ∈ keys
      · rw [if_pos listed, if_pos (List.mem_cons_of_mem _ listed), others sta listed]
      · rw [if_neg listed, lookups]
        by_cases same : sta = key
        · rw [same, if_pos rfl, if_pos List.mem_cons_self, holds]
          rfl
        · rw [if_neg same, if_neg fun member => (List.mem_cons.mp member).elim same listed]

theorem visits_end (keys : List Text) (nodup : keys.Nodup) (sweep : Sweep)
    (tracked : ∀ sta ∈ keys, (v.stationMap.lookup sta).isSome)
    (calling : staMacAddress ∈ sweep.table)
    (lapsed : ∃ sta ∈ keys, ∃ scan, sweep.table.lookup sta = some scan ∧ Lapsed now scan) :
    (keys.foldl (visit v now staMacAddress) sweep).threw = true := by
  -- a station that lapses while the station of the call is in the table ends the loop with an
  -- exception
  induction keys generalizing sweep with
  | nil => simp at lapsed
  | cons key keys ih =>
      obtain ⟨absent, nodup⟩ := List.nodup_cons.mp nodup
      rw [List.foldl_cons]
      by_cases going : sweep.threw = true
      · exact visits_threw v now staMacAddress keys
          _ (by rw [visit_threw v now staMacAddress sweep key going]; exact going)
      · rw [visit, if_neg going, if_pos (tracked key List.mem_cons_self)]
        cases holds : sweep.table.lookup key with
        | none => exact visits_threw v now staMacAddress keys _ rfl
        | some scan =>
            have calling' : staMacAddress ∈ sweep.table.insert key (cleared now scan) :=
              (AList.mem_insert _).mpr (Or.inr calling)
            simp only
            by_cases old : now - endTime scan > waitTimeout * 1000
            · rw [if_pos old, if_pos calling']
              exact visits_threw v now staMacAddress keys _ rfl
            · rw [if_neg old]
              obtain ⟨sta, listed, found, foundIn, has_lapsed⟩ := lapsed
              rcases List.mem_cons.mp listed with rfl | listed
              · cases Option.some.inj (holds.symm.trans foundIn)
                exact absurd ((lapsed_iff now scan).mpr has_lapsed) old
              · refine ih nodup _ (fun sta member => tracked sta (List.mem_cons_of_mem _ member))
                  calling'
                  ⟨sta, listed, found, ?_, has_lapsed⟩
                rw [← foundIn]
                exact AList.lookup_insert_ne fun same => absent (same ▸ listed)

end

theorem swept_expired (now : Int) (scan : Scan) :
    swept now scan = expired now scan ↔ Covered now scan := by
  -- what the loop leaves of a scan and what should become of it are the same exactly if the scan is
  -- covered
  unfold swept expired Covered
  rw [← lapsed_iff]
  by_cases old : now - endTime scan > waitTimeout * 1000
  · simp [old]
  · by_cases stale : Stale now scan
    · simp [old, stale]
    · simp only [old, stale, if_false, Option.some.injEq, false_implies, not_false_eq_true,
        true_and, forall_const, funext_iff]
      refine forall_congr' fun i => ?_
      by_cases inside : visited i
      · simp [cleared, inside]
      · rw [cleared, if_neg inside]
        cases scan i with
        | none => simp
        | some cha => by_cases age : isOld now cha <;> simp [inside, age, Option.filter]

/-- `delStation` does not throw, and drops the stale stations and the old lists of the others and
nothing else, exactly if the table is smooth for the station of the call. -/
theorem delStation_drops (v : View) (now : Int) (order : Order) (app : App) (staMacAddress : Text)
    (tracked : ∀ sta ∈ app.sta2ChannelScan, (v.stationMap.lookup sta).isSome)
    (elapsed : due now app) :
    ((delStation v now order app staMacAddress).returned = true ∧
      ∀ sta, (delStation v now order app staMacAddress).app.sta2ChannelScan.lookup sta =
        (app.sta2ChannelScan.lookup sta).bind (expired now)) ↔
          Smooth now staMacAddress app.sta2ChannelScan := by
  have keys : ∀ sta, sta ∈ order.arrange app.sta2ChannelScan.keys ↔
      sta ∈ app.sta2ChannelScan := fun sta =>
    (order.perm app.sta2ChannelScan.keys).mem_iff
  have nodup := (order.perm app.sta2ChannelScan.keys).nodup_iff.mpr app.sta2ChannelScan.nodupKeys
  have trackedKeys : ∀ sta ∈ order.arrange app.sta2ChannelScan.keys,
      (v.stationMap.lookup sta).isSome := fun sta member =>
    tracked sta ((keys sta).mp member)
  unfold delStation Smooth
  rw [if_pos elapsed]
  by_cases calm : staMacAddress ∈ app.sta2ChannelScan →
    ∀ sta scan, app.sta2ChannelScan.lookup sta = some scan → ¬ Lapsed now scan
  · obtain ⟨going, lookups⟩ :=
      visits_kept v now staMacAddress (order.arrange app.sta2ChannelScan.keys) nodup
      { table := app.sta2ChannelScan } rfl trackedKeys (fun sta member => (keys sta).mp member)
      (fun member sta _ scan found => calm member sta scan found)
    simp only [going, Bool.false_eq_true, if_false, true_and, lookups, keys]
    rw [and_iff_right calm]
    constructor
    · intro same sta scan holds
      have here := same sta
      rw [if_pos (AList.lookup_isSome.mp (by rw [holds]; rfl)), holds] at here
      exact (swept_expired now scan).mp here
    · intro covered sta
      cases holds : app.sta2ChannelScan.lookup sta with
      | none => simp
      | some scan =>
          rw [if_pos (AList.lookup_isSome.mp (by rw [holds]; rfl))]
          exact (swept_expired now scan).mpr (covered sta scan holds)
  · have threw : ((order.arrange app.sta2ChannelScan.keys).foldl (visit v now staMacAddress)
        { table := app.sta2ChannelScan }).threw = true := by
      simp only [Classical.not_imp, not_forall, not_not] at calm
      obtain ⟨member, sta, scan, holds, lapsed⟩ := calm
      exact visits_end v now staMacAddress _ nodup _ trackedKeys member
        ⟨sta, (keys sta).mpr (AList.lookup_isSome.mp (by rw [holds]; rfl)), scan, holds, lapsed⟩
    refine iff_of_false ?_ fun smooth => calm smooth.1
    rw [if_pos threw]
    rintro ⟨wrong, _⟩
    nomatch wrong

def twoStations : View :=
  { View.empty with stationMap := ((∅ : Table).insert "a".toList 0).insert "b".toList 1 }

def scanAt (date : Int) : Scan := fun i => if i = 6 then some { date } else none

def heard (dateA dateB : Int) : App where
  sta2ChannelScan := ((∅ : ScanTable).insert "a".toList (scanAt dateA)).insert "b".toList
    (scanAt dateB)

theorem heard_tracked (dateA dateB : Int) (sta : Text)
    (member : sta ∈ (heard dateA dateB).sta2ChannelScan) :
    (twoStations.stationMap.lookup sta).isSome := by
  have names : sta = "b".toList ∨ sta = "a".toList := by
    rcases (AList.mem_insert _).mp member with same | member
    · exact Or.inl same
    · rcases (AList.mem_insert _).mp member with same | member
      · exact Or.inr same
      · exact absurd member (AList.notMem_empty sta)
  rcases names with rfl | rfl
  · decide +kernel
  · decide +kernel

theorem delStation_drops_none : due 1000000 (heard 990000 990000) ∧
    (((delStation twoStations 1000000 .stored (heard 990000 990000) "a".toList).returned = true ∧
      ∀ sta, (delStation twoStations 1000000 .stored (heard 990000 990000)
        "a".toList).app.sta2ChannelScan.lookup sta =
        ((heard 990000 990000).sta2ChannelScan.lookup sta).bind (expired 1000000)) ↔
      Smooth 1000000 "a".toList (heard 990000 990000).sta2ChannelScan) :=
  ⟨by decide, delStation_drops twoStations 1000000 .stored (heard 990000 990000) "a".toList
    (heard_tracked 990000 990000) (by decide)⟩

/-- The other station has to go while the one of the call is in the table. -/
theorem delStation_throws :
    ¬ ∀ (v : View) (now : Int) (order : Order) (app : App) (staMacAddress : Text),
    (∀ sta ∈ app.sta2ChannelScan, (v.stationMap.lookup sta).isSome) → due now app →
      (delStation v now order app staMacAddress).returned = true := by
  intro returns
  have wrong := returns twoStations 1000000 .stored (heard 990000 100000) "a".toList
      (heard_tracked 990000 100000) (by decide)
  exact absurd wrong (by decide +kernel)

end LazyAS.ScanExpiry

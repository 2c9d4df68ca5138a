import LazyAS.ViewMoves
import Mathlib.Data.List.Induction

/-! Where an aging run comes to. It is a loop over the stations with a loop over the containers of a
station in it, and an exception ends both; what each visit keeps holds at every visit and at the
end. -/
namespace LazyAS.AgingVisits
open ControllerView Master ViewGround ViewMoves

section Loop

variable (body : View → Ref → View × Bool)

def ComesTo (v : View) (items : List Ref) (w : View) (item : Ref) : Prop :=
  ∃ before after, items = before ++ item :: after ∧ whileFine body v before = (w, true)

theorem whileFine_concat (v : View) (before : List Ref) (item : Ref) :
    whileFine body v (before ++ [item]) =
      if (whileFine body v before).2 then body (whileFine body v before).1 item
        else whileFine body v before := by
  induction before generalizing v with
  | nil =>
      simp only [List.nil_append, whileFine, if_true]
      split
      · rename_i fine
        exact Prod.ext rfl fine.symm
      · rfl
  | cons first before ih =>
      simp only [List.cons_append, whileFine]
      by_cases fine : (body v first).2 = true
      · simp only [fine, if_true]
        exact ih _
      · simp only [fine, if_false, Bool.false_eq_true]

theorem whileFine_prefix (holds : View → Prop) {v : View} {items : List Ref} (start : holds v)
    (each : ∀ w item, ComesTo body v items w item → holds w → holds (body w item).1)
    (before : List Ref) :
    ∀ after, items = before ++ after → holds (whileFine body v before).1 := by
  -- on the part of the loop that is done, from its end
  induction before using List.reverseRecOn with
  | nil => exact fun _ _ => start
  | append_singleton before item ih =>
      intro after shape
      rw [List.append_assoc, List.singleton_append] at shape
      have sofar := ih (item :: after) shape
      rw [whileFine_concat]
      split
      · rename_i fine
        exact each _ item ⟨before, after, shape, Prod.ext rfl fine⟩ sofar
      · exact sofar

theorem whileFine_visits (holds : View → Prop) {v : View} {items : List Ref} (start : holds v)
    (each : ∀ w item, ComesTo body v items w item → holds w → holds (body w item).1) :
    holds (whileFine body v items).1 :=
  whileFine_prefix body holds start each items [] (List.append_nil items).symm

variable {body}

theorem ComesTo.member {v w : View} {items : List Ref} {item : Ref}
    (comes : ComesTo body v items w item) :
    item ∈ items := by
  obtain ⟨before, after, shape, -⟩ := comes
  rw [shape]
  exact List.mem_append_right before List.mem_cons_self

theorem ComesTo.holds (holds : View → Prop) {v w : View} {items : List Ref} {item : Ref}
    (comes : ComesTo body v items w item) (start : holds v)
    (each : ∀ w item, ComesTo body v items w item → holds w → holds (body w item).1) : holds w := by
  obtain ⟨before, after, shape, done⟩ := comes
  have sofar := whileFine_prefix body holds start each before (item :: after) shape
  rwa [done] at sofar

theorem whileFine_done (body : View → Ref → View × Bool) (holds : View → List Ref → Prop)
    (each : ∀ w item rest, holds w (item :: rest) → (body w item).2 = true ∧
      holds (body w item).1 rest) {v : View}
    {items : List Ref} (start : holds v items) :
    (whileFine body v items).2 = true ∧ holds (whileFine body v items).1 [] := by
  -- a loop whose body does not fail comes to its end
  induction items generalizing v with
  | nil => exact ⟨rfl, start⟩
  | cons item items ih =>
      obtain ⟨fine, next⟩ := each v item items start
      unfold whileFine
      rw [if_pos fine]
      exact ih next

theorem ComesTo.left (holds : View → List Ref → Prop)
    (each : ∀ w item rest, holds w (item :: rest) → holds (body w item).1 rest) {v w : View}
    {items : List Ref}
    {item : Ref} (comes : ComesTo body v items w item) (start : holds v items) :
    ∃ rest, holds w (item :: rest) := by
  obtain ⟨before, after, rfl, done⟩ := comes
  induction before generalizing v with
  | nil =>
      cases done
      exact ⟨after, start⟩
  | cons first before ih =>
      unfold whileFine at done
      dsimp only at done
      split at done
      · exact ih done (each v first _ start)
      · rename_i stopped
        rw [done] at stopped
        exact absurd rfl stopped

end Loop

section Visits

variable (v : View) (now : Int) (order : Order)

/-- The run comes to the station, in the view `x`. -/
def StationVisited (x : View) (s : Ref) : Prop :=
  ComesTo (fun w s => ageStation w now order s) v (order.arrange v.stationMap.values) x s

/-- An off-line station that was heard lately: its containers are looked at one by one. -/
def Resting (x : View) (s : Ref) : Prop :=
  (x.stations s).status = .offLine ∧ now - (x.stations s).lastHeard ≤ 600 * 1000

/-- From the view `x` at a station, the run comes to the container, in the view `w`. -/
def VapVisited (x w : View) (s c : Ref) : Prop :=
  ComesTo (fun w c => ageVap w now order s c) x
    (order.arrange (x.stations s).vapContainerSet.values) w c

/-- The run comes to the container of an off-line station that was heard lately. -/
def Visited (w : View) (s c : Ref) : Prop :=
  ∃ x, StationVisited v now order x s ∧ Resting now x s ∧ VapVisited now order x w s c

variable {v now order}

theorem ageStation_resting {x : View} {s : Ref} (resting : Resting now x s) :
    ageStation x now order s =
    whileFine (fun w c => ageVap w now order s c) x
      (order.arrange (x.stations s).vapContainerSet.values) := by
  have late : ¬ now - (x.stations s).lastHeard > 600 * 1000 := Int.not_lt.mpr resting.2
  unfold ageStation
  rw [if_neg (by rw [resting.1]; decide), if_neg late]

theorem ageStation_other (holds : View → Prop) {x : View} {s : Ref} (active : ¬ Resting now x s)
    (start : holds x) (dropped : ∀ w c, holds w → holds (dropVap w now order s c))
    (removed : ∀ mac, holds x → holds (removeStation x mac)) :
    holds (ageStation x now order s).1 := by
  unfold ageStation
  split
  · exact start
  · rename_i status
    split
    · split
      · refine foldl_rule _ (fun w _ => holds w) (fun w c _ before => ?_) x _ start
        split
        · exact dropped w c before
        · exact before
      · exact removed _ start
    · rename_i late
      refine absurd ⟨?_, Int.not_lt.mp late⟩ active
      cases here : (x.stations s).status with
      | onLine => exact absurd here status
      | offLine => rfl

theorem visits_keep (holds : View → Prop) (start : holds v)
    (dropped : ∀ w s c, holds w → holds (dropVap w now order s c))
    (removed : ∀ w mac, holds w → holds (removeStation w mac))
    (each : ∀ w s c, Visited v now order w s c → holds w → holds (ageVap w now order s c).1) :
    holds (ageTask v now order) ∧ (∀ x s, StationVisited v now order x s → holds x) ∧
      ∀ w s c, Visited v now order w s c → holds w := by
  have inside (x : View) (s : Ref) (visited : StationVisited v now order x s)
      (resting : Resting now x s) (w : View)
      (c : Ref) (comes : VapVisited now order x w s c) (before : holds w) :
      holds (ageVap w now order s c).1 :=
    each w s c ⟨x, visited, resting, comes⟩ before
  have station (x : View) (s : Ref) (visited : StationVisited v now order x s) (before : holds x) :
      holds (ageStation x now order s).1 := by
    by_cases resting : Resting now x s
    · rw [ageStation_resting resting]
      exact whileFine_visits _ holds before (inside x s visited resting)
    · exact ageStation_other holds resting before (fun w c => dropped w s c) (removed x)
  have reached (x : View) (s : Ref) (visited : StationVisited v now order x s) : holds x :=
    visited.holds holds start station
  refine ⟨whileFine_visits _ holds start station, reached, ?_⟩
  rintro w s c ⟨x, visited, resting, comes⟩
  exact comes.holds holds (reached x s visited) (inside x s visited resting)

theorem StationVisited.run {x : View} {s : Ref} (visited : StationVisited v now order x s)
    (grounded : GroundedView v) :
    ∃ rest, AgeRun now v x (s :: rest) :=
  visited.left (AgeRun now v) (fun _ _ _ run => run.ageStation order)
    (AgeRun.start v now order grounded)

end Visits

end LazyAS.AgingVisits

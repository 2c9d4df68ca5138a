import LazyAS.AccessControlSingleApp
import LazyAS.Runs
import Mathlib.Order.Bounds.Basic

/-! What `chaList.addAP` stores for an agent that is heard over and over on one channel, compared
with the strongest reading since the agent was last silent for more than three seconds. The first
reading on a 5 GHz channel is raised by 50 and every later one by 500. -/
namespace LazyAS.ScanReadings
open WireText Runs AccessControlSingleApp
open HandoffApp (int32 channeltoIndex)

/-- The time and the strength of a call of `addAP`. -/
structure Reading where
  time : Int
  rssi : Int

/-- The readings of one agent on one channel and the list they were added to. -/
structure Heard where
  list : List ApNode := []
  readings : List Reading := []

def hear (mac : Text) (channel : Int) (heard : Heard) (reading : Reading) : Heard :=
  ⟨addAP reading.time mac reading.rssi channel heard.list, heard.readings ++ [reading]⟩

def since (kept : List Reading) (reading : Reading) : List Reading :=
  match kept.getLast? with
  | none => [reading]
  | some last => if reading.time - last.time > 3000 then [reading] else kept ++ [reading]

def recent (readings : List Reading) : List Reading := readings.foldl since []

def strengths (readings : List Reading) : Set Int :=
  {rssi | ∃ reading ∈ readings, reading.rssi = rssi}

/-- What is stored is the strongest recent reading raised by the bonus. -/
def Strongest (mac : Text) (bonus : Int) (heard : Heard) : Prop :=
  heard.readings ≠ [] →
    IsGreatest (strengths (recent heard.readings)) (findRSSIByAPMAC heard.list mac - bonus)

def firstBonus (channel : Int) : Int := if channeltoIndex channel < 14 then 0 else 50

def Covered (heard : Heard) (reading : Reading) : Prop :=
  ∃ earlier ∈ recent heard.readings, reading.rssi ≤ earlier.rssi

/-- A reading that leaves the strongest recent one stored: a 2.4 GHz reading exactly three seconds
after the last one is not stronger than these; the first 5 GHz reading can be raised by 50 and no
later one may call for a change. -/
def Fits (channel : Int) (heard : Heard) (reading : Reading) : Prop :=
  match heard.readings.getLast? with
  | none => channeltoIndex channel < 14 ∨ int32 (reading.rssi + 50) = reading.rssi + 50
  | some last =>
      if channeltoIndex channel < 14 then reading.time - last.time = 3000 → Covered heard reading
      else reading.time - last.time ≤ 3000 ∧ Covered heard reading

/-! The recent readings. -/

theorem recent_append (readings : List Reading) (reading : Reading) :
    recent (readings ++ [reading]) = since (recent readings) reading :=
  List.foldl_append

theorem since_last (kept : List Reading) (reading : Reading) :
    (since kept reading).getLast? = some reading := by
  unfold since
  split
  · rfl
  · split
    · rfl
    · exact List.getLast?_concat

theorem recent_last (readings : List Reading) : (recent readings).getLast? = readings.getLast? := by
  rcases List.eq_nil_or_concat readings with rfl | ⟨before, reading, rfl⟩
  · rfl
  · rw [List.concat_eq_append, recent_append, since_last, List.getLast?_concat]

theorem strengths_append (readings : List Reading) (reading : Reading) :
    strengths (readings ++ [reading]) = insert reading.rssi (strengths readings) := by
  ext rssi
  simp only [strengths, List.mem_append, List.mem_singleton, Set.mem_insert_iff, Set.mem_ofPred_eq]
  constructor
  · rintro ⟨earlier, old | rfl, rfl⟩
    · exact .inr ⟨earlier, old, rfl⟩
    · exact .inl rfl
  · rintro (rfl | ⟨earlier, old, rfl⟩)
    · exact ⟨reading, .inr rfl, rfl⟩
    · exact ⟨earlier, .inl old, rfl⟩

theorem strengths_single (reading : Reading) : strengths [reading] = {reading.rssi} := by
  ext rssi
  simp [strengths, eq_comm]

theorem covered_iff (heard : Heard) (reading : Reading) (greatest : Int)
    (known : IsGreatest (strengths (recent heard.readings)) greatest) :
    Covered heard reading ↔ reading.rssi ≤ greatest := by
  constructor
  · rintro ⟨earlier, member, weaker⟩
    exact weaker.trans (known.2 ⟨earlier, member, rfl⟩)
  · intro weaker
    obtain ⟨earlier, member, same⟩ := known.1
    exact ⟨earlier, member, same ▸ weaker⟩

/-! The entry. -/

/-- The only entry of the list was made by the readings, and has the time of the last one. -/
def Alone (mac : Text) (heard : Heard) : Prop :=
  (heard.list = [] ∧ heard.readings = []) ∨
    ∃ ap last, heard.list = [ap] ∧ ap.apMAC = mac ∧ heard.readings.getLast? = some last ∧
      ap.date = last.time

theorem reheard_rssi (now : Int) (ap : ApNode) (rssi channel : Int) :
    (reheard now ap rssi channel).RSSI =
      if (now - ap.date < 3000 ∧ rssi > ap.RSSI) ∨ now - ap.date > 3000 then preferred rssi channel
        else ap.RSSI := by
  unfold reheard
  by_cases stronger : now - ap.date < 3000 ∧ rssi > ap.RSSI
  · simp [stronger]
  · by_cases late : now - ap.date > 3000
    · simp [stronger, late]
    · simp [stronger, late]

theorem reheard_kept (now : Int) (ap : ApNode) (rssi channel : Int) :
    (reheard now ap rssi channel).apMAC = ap.apMAC ∧ (reheard now ap rssi channel).date = now := by
  unfold reheard
  dsimp only
  split_ifs <;> exact ⟨rfl, rfl⟩

theorem hear_alone (mac : Text) (channel : Int) (heard : Heard) (reading : Reading)
    (alone : Alone mac heard) :
    Alone mac (hear mac channel heard reading) := by
  right
  rcases alone with ⟨empty, -⟩ | ⟨ap, last, only, own, -, -⟩
  · have single : (hear mac channel heard reading).list =
        [⟨mac, 1, if channeltoIndex channel < 14 then reading.rssi else int32 (reading.rssi + 50),
            reading.time⟩] := by
      simp only [hear, empty, addAP]
    exact ⟨_, reading, single, rfl, List.getLast?_concat, rfl⟩
  · obtain ⟨sameMac, date⟩ := reheard_kept reading.time ap reading.rssi channel
    refine ⟨reheard reading.time ap reading.rssi channel, reading, ?_, sameMac.trans own,
      List.getLast?_concat, date⟩
    simp only [hear, only, addAP, own, if_true]

theorem stored_only (mac : Text) (ap : ApNode) (own : ap.apMAC = mac) :
    findRSSIByAPMAC [ap] mac = ap.RSSI := by
  unfold findRSSIByAPMAC
  rw [List.find?_cons_of_pos (by simpa using own)]

theorem int32_modulo (n : Int) : int32 n % 2 ^ 32 = n % 2 ^ 32 := Int.bmod_emod

theorem first_strongest_iff (mac : Text) (channel : Int) (reading : Reading) :
    Strongest mac (firstBonus channel) (hear mac channel {} reading) ↔ Fits channel {} reading := by
  have stored : findRSSIByAPMAC (hear mac channel {} reading).list mac =
      if channeltoIndex channel < 14 then reading.rssi else int32 (reading.rssi + 50) :=
        stored_only mac _ rfl
  have values : strengths (recent (hear mac channel {} reading).readings) = {reading.rssi} :=
    strengths_single reading
  unfold Strongest Fits firstBonus
  rw [stored, values]
  by_cases low : channeltoIndex channel < 14
  · rw [if_pos low, if_pos low]
    refine iff_of_true ?_ (.inl low)
    intro _
    rw [Int.sub_zero]
    exact isGreatest_singleton
  · rw [if_neg low, if_neg low]
    constructor
    · intro greatest
      have same := (greatest (by simp [hear])).unique isGreatest_singleton
      right
      omega
    · rintro (impossible | same) _
      · exact absurd impossible low
      · rw [same, Int.add_sub_cancel]
        exact isGreatest_singleton

theorem next_strongest_iff (mac : Text) (channel : Int) (heard : Heard) (reading : Reading)
    (alone : Alone mac heard) (strongest : Strongest mac (firstBonus channel) heard) :
    Strongest mac (firstBonus channel) (hear mac channel heard reading) ↔
      Fits channel heard reading := by
  rcases alone with ⟨noList, noReadings⟩ | ⟨ap, last, only, own, latest, date⟩
  · cases heard with
    | mk list readings =>
        dsimp only at noList noReadings
        subst noList noReadings
        exact first_strongest_iff mac channel reading
  · have some' : heard.readings ≠ [] := by
      intro empty
      rw [empty] at latest
      cases latest
    have before := strongest some'
    rw [only, stored_only mac ap own] at before
    have stored : findRSSIByAPMAC (hear mac channel heard reading).list mac =
        (reheard reading.time ap reading.rssi channel).RSSI := by
      simp only [hear, only, addAP, own, if_true]
      exact stored_only mac _ ((reheard_kept _ _ _ _).1.trans own)
    have kept : recent (hear mac channel heard reading).readings =
        since (recent heard.readings) reading :=
      recent_append _ _
    have grown : (hear mac channel heard reading).readings ≠ [] := by simp [hear]
    unfold Strongest Fits
    rw [stored, reheard_rssi, kept, latest, date]
    unfold since
    rw [recent_last, latest]
    dsimp only
    rw [covered_iff heard reading _ before]
    -- a restart forgets what was heard before
    by_cases late : reading.time - last.time > 3000
    · rw [if_pos late, strengths_single, if_pos (.inr late)]
      have greatest (value : Int) :
          ((hear mac channel heard reading).readings ≠ [] → IsGreatest {reading.rssi} value) ↔
          value = reading.rssi :=
        ⟨fun known => (known grown).unique isGreatest_singleton, fun same _ => same ▸
          isGreatest_singleton⟩
      rw [greatest]
      unfold preferred firstBonus
      have wrapped := int32_modulo (reading.rssi + 500)
      split_ifs
      · omega
      · omega
    · rw [if_neg late, strengths_append]
      have greatest (value : Int) : ((hear mac channel heard reading).readings ≠ [] →
          IsGreatest (insert reading.rssi (strengths (recent heard.readings))) value) ↔
          value = max reading.rssi (ap.RSSI - firstBonus channel) :=
        ⟨fun known => (known grown).unique (before.insert _), fun same _ => same ▸ before.insert _⟩
      rw [greatest]
      unfold preferred firstBonus
      have wrapped := int32_modulo (reading.rssi + 500)
      split_ifs
      all_goals omega

/-- A single reading tells the bonus, and with that bonus the strongest recent reading stays stored
exactly if every reading fits. -/
theorem strongest_iff (mac : Text) (channel : Int) :
    (∀ bonus reading, int32 (reading.rssi + 50) = reading.rssi + 50 →
      Strongest mac bonus (hear mac channel {} reading) → bonus = firstBonus channel) ∧
    ∀ readings, Throughout (hear mac channel) (Strongest mac (firstBonus channel)) {} readings ↔
      Allowed (hear mac channel) (Fits channel) {} readings := by
  constructor
  · intro bonus reading fits strongest
    have stored : findRSSIByAPMAC (hear mac channel {} reading).list mac =
        if channeltoIndex channel < 14 then reading.rssi else int32 (reading.rssi + 50) :=
          stored_only mac _ rfl
    have greatest := strongest (by simp [hear])
    rw [stored, show recent (hear mac channel {} reading).readings = [reading] from rfl,
      strengths_single] at greatest
    have same := greatest.unique isGreatest_singleton
    unfold firstBonus
    split_ifs at same ⊢
    · omega
    · omega
  · intro readings
    exact throughout_iff (Alone mac) (Strongest mac (firstBonus channel)) (.inl ⟨rfl, rfl⟩)
      (fun none => absurd rfl none)
        (fun heard reading alone => hear_alone mac channel heard reading alone)
      (fun heard reading alone strongest => next_strongest_iff mac channel heard reading alone
        strongest) readings

def faint : Reading := ⟨1000, -60⟩

def strong : Reading := ⟨2000, -5⟩

/-- On channel 36 the first reading is stored with a bonus of 50 and the second one with 500. -/
theorem no_bonus : ¬ ∃ bonus, Strongest [] bonus (run (hear [] 36) {} [faint]) ∧
    Strongest [] bonus (run (hear [] 36) {} [faint, strong]) := by
  rintro ⟨bonus, first, second⟩
  have one : IsGreatest (strengths [faint]) (-10 - bonus) := first (by decide)
  have two : IsGreatest (strengths ([faint] ++ [strong])) (495 - bonus) := second (by decide)
  rw [strengths_append] at two
  rw [strengths_single] at one two
  have fifty := one.unique isGreatest_singleton
  have raised := two.unique (isGreatest_singleton.insert _)
  unfold faint at fifty raised
  unfold strong at raised
  dsimp only at fifty raised
  omega

end LazyAS.ScanReadings

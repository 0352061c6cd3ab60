import PlantManager.Production.ShiftHours

/-! # The day that a reading is credited to

The leaderboard of a day reads the meters over the UTC day, while the shift is that of a reading's
date in the plant. The samples of a day are those of its own date exactly when no unit of a shift
comes at a time at which the two dates differ
(`Production.Leaderboard.leaderboard_ownDay_iff`).
-/

namespace PlantManager.Production.Leaderboard

open Ranking

variable {site : Site} {readings : String → List Reading} {station : Station} {day moment : ℤ}
  {now : Option ℤ}

def InWindow (day moment : ℤ) : Prop := (dayWindowUtc day).1 ≤ moment ∧ moment ≤ (dayWindowUtc day).2

instance : Decidable (InWindow day moment) := inferInstanceAs (Decidable (_ ∧ _))

/-- The readings of a meter up to a moment whose date in the plant is the day. -/
def ownReadings (site : Site) (readings : String → List Reading) (meterId : String)
    (day moment : ℤ) : List Reading :=
  (readings meterId).filter fun reading =>
    site.calendar.dayOf reading.eventDate = day ∧ reading.eventDate ≤ moment

/-- The samples and the units are those of the day's own readings. -/
structure StationTotal.OwnDay (site : Site) (readings : String → List Reading) (day moment : ℤ)
    (total : StationTotal) : Prop where
  samples : total.samples =
    samplesOf site.toPlant (ownReadings site readings total.station.meterId day moment)
  units : total.units = (((ownReadings site readings total.station.meterId day moment).filter
    (isSample site.toPlant)).map Reading.units).sum

theorem readPages_all {pages : ℕ} {rows : List Reading} (few : rows.length ≤ pages * pageSize) :
    (readPages pages rows).1 = rows := by
  induction pages generalizing rows with
  | zero =>
      rw [Nat.zero_mul, Nat.le_zero, List.length_eq_zero_iff] at few
      rw [few, readPages]
  | succ pages ih =>
      unfold readPages
      dsimp only
      split
      · next short =>
          refine List.take_of_length_le ?_
          rw [List.length_take] at short
          omega
      · rw [ih, List.take_append_drop]
        rw [List.length_drop]
        rw [Nat.succ_mul] at few
        omega

/-- A reading is among the samples. -/
theorem mem_samplesOf {rows : List Reading} {sample : ℤ × ℤ} :
    sample ∈ samplesOf site.toPlant rows ↔ ∃ reading ∈ rows, isSample site.toPlant reading ∧
      (reading.eventDate, reading.units) = sample := by
  rw [samplesOf, mem_sortBy, List.mem_map]
  simp only [List.mem_filter, and_assoc]

theorem sum_samplesOf (rows : List Reading) : ((samplesOf site.toPlant rows).map Prod.snd).sum =
    ((rows.filter (isSample site.toPlant)).map Reading.units).sum := by
  have perm := (sortBy_perm Prod.fst ((rows.filter (isSample site.toPlant)).map fun reading =>
    (reading.eventDate, reading.units))).map Prod.snd
  rw [samplesOf, perm.sum_eq, List.map_map]
  rfl

/-- Readings give the same samples when their units of the shift are the same. -/
theorem samplesOf_filter_eq_iff (site : Site) (first second : ℤ → Bool) (rows : List Reading) :
    samplesOf site.toPlant (rows.filter fun reading => first reading.eventDate) =
        samplesOf site.toPlant (rows.filter fun reading => second reading.eventDate) ↔
      ∀ reading ∈ rows, isSample site.toPlant reading →
        first reading.eventDate = second reading.eventDate := by
  constructor
  · intro same reading member isUnit
    have sides : ∀ {one other : ℤ → Bool},
        samplesOf site.toPlant (rows.filter fun reading => one reading.eventDate) =
          samplesOf site.toPlant (rows.filter fun reading => other reading.eventDate) →
        one reading.eventDate → other reading.eventDate := by
      intro one other same inside
      have sampled : (reading.eventDate, reading.units) ∈
          samplesOf site.toPlant (rows.filter fun reading => one reading.eventDate) :=
        mem_samplesOf.mpr ⟨reading, List.mem_filter.mpr ⟨member, inside⟩, isUnit, rfl⟩
      rw [same] at sampled
      obtain ⟨twin, held, -, sameTime⟩ := mem_samplesOf.mp sampled
      rw [← (Prod.mk.inj sameTime).1]
      exact (List.mem_filter.mp held).2
    exact Bool.eq_iff_iff.mpr ⟨sides same, sides same.symm⟩
  · intro agree
    unfold samplesOf
    rw [List.filter_filter, List.filter_filter]
    congr 2
    refine List.filter_congr fun reading member => ?_
    cases isUnit : isSample site.toPlant reading with
    | false => rfl
    | true => rw [agree reading member isUnit]

/-- A station is credited with its own day's units, if and only if each unit of a shift up to now
has the day for its date when it is in the day's window. -/
theorem leaderboard_ownDay_iff (site : Site) (readings : String → List Reading) (station : Station)
    (day moment : ℤ) (now : Option ℤ)
    (few : (readingsUpTo readings station.meterId day moment).length ≤ maxPages * pageSize) :
    (∀ total ∈ leaderboard site.toPlant readings [station] day moment now,
      total.OwnDay site readings day moment) ↔
      ∀ reading ∈ readings station.meterId, reading.eventDate ≤ moment →
        isSample site.toPlant reading →
          (InWindow day reading.eventDate ↔ site.calendar.dayOf reading.eventDate = day) := by
  have only : leaderboard site.toPlant readings [station] day moment now =
      [stationTotalAt site.toPlant readings station day moment now] := rfl
  have window : readingsUpTo readings station.meterId day moment =
      ((readings station.meterId).filter fun reading => reading.eventDate ≤ moment).filter
        fun reading => InWindow day reading.eventDate := by
    rw [List.filter_filter]
    refine List.filter_congr fun reading _ => ?_
    rw [← Bool.decide_and, decide_eq_decide]
    exact and_assoc.symm
  have own : ownReadings site readings station.meterId day moment =
      ((readings station.meterId).filter fun reading => reading.eventDate ≤ moment).filter
        fun reading => site.calendar.dayOf reading.eventDate = day := by
    rw [List.filter_filter]
    exact List.filter_congr fun reading _ => Bool.decide_and _ _
  have samples : (stationTotalAt site.toPlant readings station day moment now).samples =
      samplesOf site.toPlant (readingsUpTo readings station.meterId day moment) :=
    congrArg (samplesOf site.toPlant) (readPages_all few)
  have units : (stationTotalAt site.toPlant readings station day moment now).units =
      ((stationTotalAt site.toPlant readings station day moment now).samples.map Prod.snd).sum := rfl
  have same := samplesOf_filter_eq_iff site (fun moment => InWindow day moment)
    (fun moment => site.calendar.dayOf moment = day)
    ((readings station.meterId).filter fun reading => reading.eventDate ≤ moment)
  rw [← window, ← own] at same
  rw [only, List.forall_mem_singleton]
  have credited : (stationTotalAt site.toPlant readings station day moment now).OwnDay site readings
      day moment ↔ samplesOf site.toPlant (readingsUpTo readings station.meterId day moment) =
        samplesOf site.toPlant (ownReadings site readings station.meterId day moment) := by
    constructor
    · intro held
      exact samples.symm.trans held.samples
    · intro equal
      refine ⟨samples.trans equal, ?_⟩
      rw [units, samples, equal, sum_samplesOf]
      rfl
  rw [credited, same]
  simp only [List.mem_filter, decide_eq_true_iff, decide_eq_decide, and_imp]

/-- Six hours behind Greenwich, on Mondays to Fridays from two in the afternoon to half past ten. -/
private def lateShift : Site := Site.west (6 * 60 * minute) (by decide) {
  schedule := ⟨14 * 60 * minute, 22 * 60 * minute + 30 * minute, []⟩
  workWeekdays := [0, 1, 2, 3, 4]
  saturday := ⟨6 * 60 * minute, 12 * 60 * minute, []⟩
  isHoliday := fun _ => false
  holidayPublished := fun _ => false
  published := fun _ => false
  customHours := fun _ => none }

private def repair : Station := ⟨"42712", "Repair 1", "Repair", "Recycling"⟩

/-- Five units at an hour of day zero. -/
private def unitsAt (hour : ℤ) : String → List Reading :=
  fun _ => [⟨(hour + 6) * 60 * minute, 5, none, none⟩]

/-- Units in the afternoon. -/
theorem leaderboard_ownDay_afternoon :
    (readingsUpTo (unitsAt 15) repair.meterId 0 (2 * dayLength)).length ≤ maxPages * pageSize ∧
      ∀ total ∈ leaderboard lateShift.toPlant (unitsAt 15) [repair] 0 (2 * dayLength) none,
        total.OwnDay lateShift (unitsAt 15) 0 (2 * dayLength) :=
  ⟨by decide +kernel, (leaderboard_ownDay_iff lateShift (unitsAt 15) repair 0 (2 * dayLength) none
    (by decide +kernel)).mpr (by decide +kernel)⟩

/-- Units at eight in the evening are credited to the next day. -/
theorem evening_nextDay :
    (¬∀ total ∈ leaderboard lateShift.toPlant (unitsAt 20) [repair] 0 (2 * dayLength) none,
      total.OwnDay lateShift (unitsAt 20) 0 (2 * dayLength)) ∧
    (leaderboard lateShift.toPlant (unitsAt 20) [repair] 1 (2 * dayLength) none).map
      StationTotal.samples = [[(26 * 60 * minute, 5)]] := by
  constructor
  · intro own
    have samples := (own _ (List.mem_singleton_self _)).samples
    exact absurd samples (by decide +kernel)
  · decide +kernel

end PlantManager.Production.Leaderboard

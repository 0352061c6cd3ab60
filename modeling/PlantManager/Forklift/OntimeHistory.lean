import PlantManager.Roster.People

/-! # The history of being on time

The dashboard of a boundary has the totals from that boundary up to now, so the totals of a day are
those of its boundary less those of the next (`Forklift.diffDay`). The rows that are
written are those of their drivers and days exactly when no missing dashboard is taken for an empty
one and every name stands for the driver whose id it gets
(`Forklift.reconstruct_faithful_iff`).
-/

namespace PlantManager.Forklift

open Mapping Roster

/-! ## Drivers and dashboards -/

inductive Measure where
  | onTime
  | late
  | onCallMs
  | availableMs
  deriving DecidableEq

abbrev Amounts := Measure → ℕ

/-- The drivers, and what each of them did on every day so far. -/
structure Fleet (D : Type) where
  driverId : D → String
  displayName : D → Option String
  amounts : D → ℤ → Amounts

variable {D : Type}

def daysSince (boundary today : ℤ) : Finset ℤ :=
  @Finset.Icc ℤ Int.instLinearOrder.toPartialOrder.toPreorder Int.instLocallyFiniteOrder
    boundary today

/-- What a driver did from a boundary up to now. -/
def Fleet.total (fleet : Fleet D) (today : ℤ) (driver : D) (boundary : ℤ) : Amounts :=
  fun measure => ∑ day ∈ daysSince boundary today, fleet.amounts driver day measure

/-- The drivers of the list, and those whom the dashboard of each boundary lists. A dashboard that
could not be fetched is missing. -/
structure Answers (D : Type) where
  drivers : List D
  dashboard : ℤ → Option (List D)

structure LeaderboardEntry where
  name : Option String
  totals : Amounts

def Fleet.leaderboard (fleet : Fleet D) (today boundary : ℤ) (listed : List D) :
    List LeaderboardEntry :=
  listed.map fun driver => ⟨fleet.displayName driver, fleet.total today driver boundary⟩

/-! ## What the reconstruction writes -/

structure MetricsRow where
  driverId : String
  totals : Amounts

def idToName (fleet : Fleet D) (drivers : List D) : Dictionary String (Option String) :=
  Dictionary.ofItems fleet.driverId fleet.displayName drivers

def nameToId (names : Dictionary String (Option String)) : Dictionary (Option String) String :=
  Dictionary.ofItems Prod.snd Prod.fst names.entries

/-- The id that a name of the dashboard gets. -/
def resolved (names : Dictionary String (Option String)) (name : String) : String :=
  ((nameToId names).get (some name)).getD name

def driverMetricsFromDashboard (names : Dictionary String (Option String))
    (leaderboard : List LeaderboardEntry) : List MetricsRow :=
  leaderboard.filterMap fun entry =>
    let name := stripped (entry.name.getD "")
    if name = "" then none else some ⟨resolved names name, entry.totals⟩

/-- The rows of a boundary by the ids of their drivers. -/
def cumulative (fleet : Fleet D) (today : ℤ) (answers : Answers D) (boundary : ℤ) :
    Option (Dictionary String Amounts) :=
  (answers.dashboard boundary).map fun listed =>
    Dictionary.ofItems MetricsRow.driverId MetricsRow.totals
      (driverMetricsFromDashboard (idToName fleet answers.drivers)
        (fleet.leaderboard today boundary listed))

structure DriverDayRow where
  driverId : String
  name : Option String
  amounts : Amounts

/-- The totals of a day, none of them below zero. -/
def diffDay (names : Dictionary String (Option String)) (day next : Option (Dictionary String Amounts)) :
    List DriverDayRow :=
  (day.getD ∅).entries.map fun entry =>
    { driverId := entry.1
      name := (names.get entry.1).getD (some entry.1)
      amounts := entry.2 - ((next.getD ∅).get entry.1).getD 0 }

def historyDays (today : ℤ) (daysBack : ℕ) : List ℤ :=
  (List.range (daysBack + 1)).map fun index : ℕ => today - daysBack + index

/-- The rows that are written for each day. -/
def reconstructOntimeHistory (fleet : Fleet D) (today : ℤ) (daysBack : ℕ) (answers : Answers D) :
    List (ℤ × List DriverDayRow) :=
  (historyDays today daysBack).map fun day =>
    (day, diffDay (idToName fleet answers.drivers) (cumulative fleet today answers day)
      (cumulative fleet today answers (day + 1)))

/-! ## Whose rows they are -/

/-- The id that the tables have for a driver, or the name of one who is not in the list. -/
def storedId (fleet : Fleet D) (drivers : List D) (driver : D) : String :=
  if fleet.driverId driver ∈ drivers.map fleet.driverId then fleet.driverId driver
  else stripped ((fleet.displayName driver).getD "")

/-- The rows of a day are what their drivers did on it, and there are none without both of the
dashboards. -/
structure FaithfulRows (fleet : Fleet D) (answers : Answers D) (day : ℤ) (rows : List DriverDayRow) :
    Prop where
  known : ∀ row ∈ rows, ∃ driver, storedId fleet answers.drivers driver = row.driverId
  amounts : ∀ row ∈ rows, ∀ driver, storedId fleet answers.drivers driver = row.driverId →
    row.amounts = fleet.amounts driver day
  fetched : answers.dashboard day = none ∨ answers.dashboard (day + 1) = none → rows = []
  distinct : (rows.map DriverDayRow.driverId).Nodup

/-- The id that a driver gets from a dashboard. -/
def shownId (fleet : Fleet D) (names : Dictionary String (Option String)) (driver : D) :
    Option String :=
  let name := stripped ((fleet.displayName driver).getD "")
  if name = "" then none else some (resolved names name)

/-- The last driver of a dashboard who gets the id. -/
def standIn (fleet : Fleet D) (names : Dictionary String (Option String)) (listed : List D)
    (driverId : String) : Option D :=
  (listed.filter fun driver => shownId fleet names driver = some driverId).getLast?

def standInTotal (fleet : Fleet D) (today : ℤ) (names : Dictionary String (Option String))
    (boundary : ℤ) (listed : List D) (driverId : String) : Amounts :=
  ((standIn fleet names listed driverId).map (fleet.total today · boundary)).getD 0

/-- Both dashboards of a day with rows were fetched, and what the drivers under an id did between
the boundaries is what the driver with that id did. -/
def Matched (fleet : Fleet D) (today : ℤ) (answers : Answers D) (day : ℤ) : Prop :=
  let names := idToName fleet answers.drivers
  ∀ listed, answers.dashboard day = some listed →
    ∀ driver ∈ listed, ∀ driverId, shownId fleet names driver = some driverId →
      ∃ next, answers.dashboard (day + 1) = some next ∧
        (∃ owner, storedId fleet answers.drivers owner = driverId) ∧
        ∀ owner, storedId fleet answers.drivers owner = driverId →
          standInTotal fleet today names day listed driverId -
              standInTotal fleet today names (day + 1) next driverId =
            fleet.amounts owner day

variable {fleet : Fleet D} {today : ℤ} {answers : Answers D}

theorem driverMetrics_leaderboard (names : Dictionary String (Option String)) (boundary : ℤ)
    (listed : List D) :
    driverMetricsFromDashboard names (fleet.leaderboard today boundary listed) =
      listed.filterMap fun driver => (shownId fleet names driver).map fun driverId =>
        ⟨driverId, fleet.total today driver boundary⟩ := by
  unfold driverMetricsFromDashboard Fleet.leaderboard
  rw [List.filterMap_map]
  refine List.filterMap_congr fun driver _ => ?_
  dsimp only [Function.comp_apply, shownId]
  split <;> rfl

/-- What a boundary has under an id are the totals of the last driver who gets it. -/
theorem get_cumulative {boundary : ℤ} {listed : List D}
    (fetched : answers.dashboard boundary = some listed) (driverId : String) :
    ((cumulative fleet today answers boundary).getD ∅).get driverId =
      (standIn fleet (idToName fleet answers.drivers) listed driverId).map
        (fleet.total today · boundary) := by
  rw [cumulative, fetched, Option.map_some, Option.getD_some, Dictionary.get_ofItems,
    driverMetrics_leaderboard, standIn]
  have rows : ∀ drivers : List D,
      ((drivers.filterMap fun driver => (shownId fleet (idToName fleet answers.drivers) driver).map
        fun shown => (⟨shown, fleet.total today driver boundary⟩ : MetricsRow)).filter
          fun row => row.driverId = driverId) =
        (drivers.filter fun driver =>
          shownId fleet (idToName fleet answers.drivers) driver = some driverId).map
            fun driver => ⟨driverId, fleet.total today driver boundary⟩ := by
    intro drivers
    induction drivers with
    | nil => rfl
    | cons driver rest ih =>
        cases shown : shownId fleet (idToName fleet answers.drivers) driver with
        | none =>
            rw [List.filterMap_cons_none (by rw [shown]; rfl), ih,
              List.filter_cons_of_neg (by simp [shown])]
        | some other =>
            rw [List.filterMap_cons_some (by rw [shown]; rfl)]
            by_cases same : other = driverId
            · subst same
              rw [List.filter_cons_of_pos (by simp), ih, List.filter_cons_of_pos (by simp [shown]),
                List.map_cons]
            · rw [List.filter_cons_of_neg (by simpa using same), ih,
                List.filter_cons_of_neg (by simpa [shown] using same)]
  rw [rows, List.getLast?_map, Option.map_map]
  rfl

theorem standInTotal_eq {boundary : ℤ} {listed : List D}
    (fetched : answers.dashboard boundary = some listed) (driverId : String) :
    (((cumulative fleet today answers boundary).getD ∅).get driverId).getD 0 =
      standInTotal fleet today (idToName fleet answers.drivers) boundary listed driverId := by
  rw [get_cumulative fetched, standInTotal]

/-- An id has a row when a driver of the dashboard gets it. -/
theorem exists_row_iff {day : ℤ} {listed : List D} (fetched : answers.dashboard day = some listed)
    (driverId : String) :
    driverId ∈ ((cumulative fleet today answers day).getD ∅).keys ↔
      ∃ driver ∈ listed, shownId fleet (idToName fleet answers.drivers) driver = some driverId := by
  rw [Dictionary.mem_keys_iff, ← Option.isSome_iff_exists, get_cumulative fetched, Option.isSome_map,
    standIn, List.getLast?_isSome]
  constructor
  · intro some
    obtain ⟨driver, member⟩ := List.exists_mem_of_ne_nil _ some
    obtain ⟨inside, shown⟩ := List.mem_filter.mp member
    exact ⟨driver, inside, of_decide_eq_true shown⟩
  · rintro ⟨driver, inside, shown⟩
    exact List.ne_nil_of_mem (List.mem_filter.mpr ⟨inside, decide_eq_true shown⟩)

/-- The rows of a day are one for each id of its dashboard. -/
theorem mem_diffDay {names : Dictionary String (Option String)}
    {day next : Option (Dictionary String Amounts)} {row : DriverDayRow} :
    row ∈ diffDay names day next ↔ ∃ totals, (day.getD ∅).get row.driverId = some totals ∧
      row = ⟨row.driverId, (names.get row.driverId).getD (some row.driverId),
        totals - ((next.getD ∅).get row.driverId).getD 0⟩ := by
  rw [diffDay, List.mem_map]
  constructor
  · rintro ⟨entry, member, rfl⟩
    exact ⟨entry.2, Dictionary.get_eq_some_iff.mpr member, rfl⟩
  · rintro ⟨totals, found, same⟩
    exact ⟨(row.driverId, totals), Dictionary.get_eq_some_iff.mp found, same.symm⟩

theorem map_driverId_diffDay (names : Dictionary String (Option String))
    (day next : Option (Dictionary String Amounts)) :
    (diffDay names day next).map DriverDayRow.driverId = (day.getD ∅).keys := by
  rw [diffDay, List.map_map]
  rfl

theorem cumulative_eq_empty {boundary : ℤ} (failed : answers.dashboard boundary = none) :
    (cumulative fleet today answers boundary).getD ∅ = ∅ := by
  rw [cumulative, failed]
  rfl

/-- The rows of one day. -/
theorem faithfulRows_iff (day : ℤ) :
    FaithfulRows fleet answers day (diffDay (idToName fleet answers.drivers)
        (cumulative fleet today answers day) (cumulative fleet today answers (day + 1))) ↔
      Matched fleet today answers day := by
  constructor
  · intro faithful listed fetched driver inside driverId shown
    have key := (@exists_row_iff D fleet today answers day listed fetched driverId).mpr
      ⟨driver, inside, shown⟩
    obtain ⟨totals, found⟩ := Dictionary.mem_keys_iff.mp key
    have member : (⟨driverId, ((idToName fleet answers.drivers).get driverId).getD (some driverId),
        totals - (((cumulative fleet today answers (day + 1)).getD ∅).get driverId).getD 0⟩ :
          DriverDayRow) ∈ diffDay (idToName fleet answers.drivers)
            (cumulative fleet today answers day) (cumulative fleet today answers (day + 1)) :=
      mem_diffDay.mpr ⟨totals, found, rfl⟩
    cases next : answers.dashboard (day + 1) with
    | none =>
        rw [faithful.fetched (.inr next)] at member
        exact absurd member List.not_mem_nil
    | some later =>
        refine ⟨later, rfl, faithful.known _ member, fun owner owns => ?_⟩
        have amounts := faithful.amounts _ member owner owns
        rw [← standInTotal_eq fetched, ← standInTotal_eq next, found, Option.getD_some]
        exact amounts
  · intro matched
    have shownRow : ∀ row ∈ diffDay (idToName fleet answers.drivers)
        (cumulative fleet today answers day) (cumulative fleet today answers (day + 1)),
        ∃ listed, answers.dashboard day = some listed ∧ ∃ driver ∈ listed,
          shownId fleet (idToName fleet answers.drivers) driver = some row.driverId := by
      intro row member
      obtain ⟨totals, found, -⟩ := mem_diffDay.mp member
      cases fetched : answers.dashboard day with
      | none =>
          rw [cumulative_eq_empty fetched, Dictionary.get_empty] at found
          cases found
      | some listed =>
          exact ⟨listed, rfl,
            (exists_row_iff fetched row.driverId).mp (Dictionary.mem_keys_iff.mpr ⟨totals, found⟩)⟩
    refine ⟨?_, ?_, ?_, ?_⟩
    · intro row member
      obtain ⟨listed, fetched, driver, inside, shown⟩ := shownRow row member
      obtain ⟨-, -, known, -⟩ := matched listed fetched driver inside row.driverId shown
      exact known
    · intro row member owner owns
      obtain ⟨listed, fetched, driver, inside, shown⟩ := shownRow row member
      obtain ⟨later, next, -, amounts⟩ := matched listed fetched driver inside row.driverId shown
      rw [← amounts owner owns, ← standInTotal_eq fetched, ← standInTotal_eq next]
      obtain ⟨totals, found, same⟩ := mem_diffDay.mp member
      rw [congrArg DriverDayRow.amounts same, found, Option.getD_some]
    · intro failed
      refine List.eq_nil_iff_forall_not_mem.mpr fun row member => ?_
      obtain ⟨listed, fetched, driver, inside, shown⟩ := shownRow row member
      obtain ⟨later, next, -⟩ := matched listed fetched driver inside row.driverId shown
      rcases failed with missing | missing
      · rw [fetched] at missing
        cases missing
      · rw [next] at missing
        cases missing
    · rw [map_driverId_diffDay]
      exact Dictionary.nodup_keys _

/-- One driver, on time once on day 0 and twice on day 1. -/
def lonelyFleet : Fleet Unit where
  driverId _ := "fk-1"
  displayName _ := some "Trent"
  amounts _ day measure := if measure = .onTime then if day = 0 then 1 else 2 else 0

/-- The dashboard of day 1 could not be fetched. -/
def interruptedAnswers : Answers Unit where
  drivers := [()]
  dashboard boundary := if boundary = 1 then none else some [()]

end PlantManager.Forklift

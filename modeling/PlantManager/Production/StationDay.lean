import PlantManager.Attendance.Projection

/-! # The totals of a station's day

`Production.Leaderboard.fetchStationDay` adds up the readings of a meter over the UTC
day, as far as they are known when they are fetched. The last stretch of activity ends at the latest
with the shift, and with the clock if the caller gives one. Instants and times of the day are
microseconds.
-/

namespace PlantManager.Production.Leaderboard

open PlantManager.Ranking
open PlantManager.Attendance.Projection (PlantCalendar)

structure Station where
  meterId : String
  name : String
  category : String
  cell : String
  deriving DecidableEq

/-- A reading; units that are no number count as zero, and a duration that is none is left out. -/
structure Reading where
  eventDate : ℤ
  units : ℤ
  status : Option String
  duration : Option ℤ
  deriving DecidableEq

abbrev Interval := ℤ × ℤ

/-- The shift of a day, in times of the day. -/
structure Shift where
  workday : Bool
  start : ℤ
  stop : ℤ
  breaks : List Interval

def second : ℤ := 1000000

def minute : ℤ := 60 * second

def dayLength : ℤ := 86400 * second

/-- The first and the last millisecond of the UTC day. -/
def dayWindowUtc (day : ℤ) : Interval := (day * dayLength, day * dayLength + dayLength - 1000)

/-- The clock of the plant and the shifts of its days; `combine` is the instant of a time of a
day. The plant is not east of Greenwich. -/
structure Plant where
  calendar : PlantCalendar
  timeOf : ℤ → ℤ
  combine : ℤ → ℤ → ℤ
  shiftOf : ℤ → Shift
  window_ends : ∀ day, (dayWindowUtc day).2 < calendar.dayStart (day + 1)

structure StationTotal where
  station : Station
  units : ℤ
  readingCount : ℕ
  truncated : Bool
  downtimeMinutes : ℤ
  activeMinutes : ℤ
  lastReadingAt : Option ℤ
  lastStatus : Option String
  samples : List (ℤ × ℤ)
  activeIntervals : List Interval
  downtimeIntervals : List Interval
  deriving DecidableEq

/-! ## Activity -/

def transferGap : ℤ := 60 * minute

/-- Between two units that are not far apart, and for a while after the last. -/
def activeIntervals (samples : List (ℤ × ℤ)) (endOfDay : ℤ) : List Interval :=
  match samples.getLast? with
  | none => []
  | some last =>
      let between := (samples.zip samples.tail).filterMap fun pair =>
        if pair.2.1 - pair.1.1 ≤ transferGap then some (pair.1.1, pair.2.1) else none
      let tailEnd := min (last.1 + transferGap) endOfDay
      between ++ if last.1 < tailEnd then [(last.1, tailEnd)] else []

/-- What is left of some pieces outside a break. -/
def subtractBreak (pieces : List Interval) (shiftBreak : Interval) : List Interval :=
  pieces.flatMap fun piece =>
    if shiftBreak.2 ≤ piece.1 ∨ piece.2 ≤ shiftBreak.1 then [piece]
    else
      (if piece.1 < shiftBreak.1 then [(piece.1, min piece.2 shiftBreak.1)] else []) ++
        if shiftBreak.2 < piece.2 then [(max piece.1 shiftBreak.2, piece.2)] else []

section Plant

variable (plant : Plant)

/-- What is left of an interval outside the breaks of the days it touches. -/
def subtractBreaks (start stop : ℤ) : List Interval :=
  let first := plant.calendar.dayOf start
  let days := (List.range (plant.calendar.dayOf stop + 1 - first).toNat).map (first + ·)
  let breaks := days.flatMap fun day =>
    (plant.shiftOf day).breaks.map fun shiftBreak =>
      (plant.combine day shiftBreak.1, plant.combine day shiftBreak.2)
  (breaks.foldl subtractBreak [(start, stop)]).filter fun piece => piece.1 < piece.2

/-- The part of the downtime that lies in activity. A row has its end and its minutes; downtime does
not begin before the last unit that came before its end. -/
def adjustedDowntimeIntervals (downtimeRows samples : List (ℤ × ℤ)) (endOfDay : ℤ) :
    List Interval :=
  let active := activeIntervals samples endOfDay
  let sampleTimes := sortKeys (samples.map Prod.fst)
  sortBy toLex (downtimeRows.flatMap fun row =>
    let eventStart := match (sampleTimes.filter (· < row.1)).getLast? with
      | none => row.1 - minute * row.2
      | some sampleTime => max (row.1 - minute * row.2) sampleTime
    active.flatMap fun interval =>
      let left := max eventStart interval.1
      let right := min row.1 interval.2
      if left < right then subtractBreaks plant left right else [])

/-- The whole minutes of some intervals. -/
def minutesOf (intervals : List Interval) : ℤ :=
  (intervals.map fun interval => interval.2 - interval.1).sum / minute

/-! ## Reading a meter -/

def inShift (moment : ℤ) : Bool :=
  let shift := plant.shiftOf (plant.calendar.dayOf moment)
  let time := plant.timeOf moment
  shift.workday ∧ shift.start ≤ time ∧ time < shift.stop ∧
    ∀ shiftBreak ∈ shift.breaks, ¬ (shiftBreak.1 ≤ time ∧ time < shiftBreak.2)

def workingStatus : String := "Working"

/-- A reading that says that the station stood still. -/
def isDowntime (reading : Reading) : Bool :=
  reading.units = 0 ∧ (∃ status ∈ reading.status, status ≠ "" ∧ status ≠ workingStatus) ∧
    reading.duration.isSome ∧ inShift plant reading.eventDate

def isSample (reading : Reading) : Bool := 0 < reading.units ∧ inShift plant reading.eventDate

def pageSize : ℕ := 500

def maxPages : ℕ := 20

/-- Read rows page by page, and whether so many pages were not enough. -/
def readPages : ℕ → List Reading → List Reading × Bool
  | 0, _ => ([], true)
  | pages + 1, rows =>
      let page := rows.take pageSize
      if page.length < pageSize then (page, false)
      else
        let rest := readPages pages (rows.drop pageSize)
        (page ++ rest.1, rest.2)

/-- The end of the shift, or of the UTC day. -/
def evalEnd (day : ℤ) : ℤ :=
  let endOfDay := (dayWindowUtc day).2
  let dayLocal := plant.calendar.dayOf endOfDay
  min (plant.combine dayLocal (plant.shiftOf dayLocal).stop) endOfDay

/-- The units of the shift, by their time. -/
def samplesOf (rows : List Reading) : List (ℤ × ℤ) :=
  sortBy Prod.fst
    ((rows.filter (isSample plant)).map fun reading => (reading.eventDate, reading.units))

/-- The totals of a station by the rows of its meter, which come in the order of the service. -/
def fetchStationDay (station : Station) (day : ℤ) (rows : List Reading) (now : Option ℤ) :
    StationTotal :=
  let read := readPages maxPages rows
  let samples := samplesOf plant read.1
  let downtimeRows := (read.1.filter (isDowntime plant)).map fun reading =>
    (reading.eventDate, reading.duration.getD 0)
  let evalEnd := match now with
    | none => evalEnd plant day
    | some clock => min (evalEnd plant day) clock
  let intervals := activeIntervals samples evalEnd
  let adjusted := adjustedDowntimeIntervals plant downtimeRows samples evalEnd
  { station
    units := (samples.map Prod.snd).sum
    readingCount := read.1.length
    truncated := read.2
    downtimeMinutes := minutesOf adjusted
    activeMinutes := minutesOf intervals
    lastReadingAt := read.1.head?.map Reading.eventDate
    lastStatus := read.1.head?.bind Reading.status
    samples
    activeIntervals := intervals
    downtimeIntervals := adjusted }

/-- Most units first, and then by the name. -/
def boardKey (total : StationTotal) : ℤ ×ₗ String := toLex (-total.units, total.station.name)

section Readings

variable (readings : String → List Reading)

/-- What a fetch of a meter's day returns at a moment. -/
def readingsUpTo (meterId : String) (day moment : ℤ) : List Reading :=
  (readings meterId).filter fun reading =>
    (dayWindowUtc day).1 ≤ reading.eventDate ∧ reading.eventDate ≤ (dayWindowUtc day).2 ∧
      reading.eventDate ≤ moment

/-- The totals of a station that are fetched at a moment. -/
def stationTotalAt (station : Station) (day moment : ℤ) (now : Option ℤ) : StationTotal :=
  fetchStationDay plant station day (readingsUpTo readings station.meterId day moment) now

/-- The totals of some stations, fetched at a moment. -/
def leaderboard (stations : List Station) (day moment : ℤ) (now : Option ℤ) : List StationTotal :=
  sortBy boardKey (stations.map fun station => stationTotalAt plant readings station day moment now)

/-- The totals of a station by all readings of its day. -/
def wholeDay (station : Station) (day : ℤ) : StationTotal :=
  stationTotalAt plant readings station day (dayWindowUtc day).2 none

end Readings

end Plant

/-! ## The whole day -/

variable {plant : Plant} {readings : String → List Reading} {station : Station} {day moment : ℤ}

theorem activeIntervals_congr {samples : List (ℤ × ℤ)} {first second : ℤ}
    (same : ∀ last ∈ samples.getLast?,
      min (last.1 + transferGap) first = min (last.1 + transferGap) second) :
    activeIntervals samples first = activeIntervals samples second := by
  unfold activeIntervals
  cases held : samples.getLast? with
  | none => rfl
  | some last =>
      dsimp only
      rw [same last held]

theorem adjustedDowntimeIntervals_congr {downtimeRows samples : List (ℤ × ℤ)} {first second : ℤ}
    (same : activeIntervals samples first = activeIntervals samples second) :
    adjustedDowntimeIntervals plant downtimeRows samples first =
      adjustedDowntimeIntervals plant downtimeRows samples second := by
  unfold adjustedDowntimeIntervals
  rw [same]

/-- The clock of the caller does not cut the last stretch of activity. -/
def Uncut (plant : Plant) (day : ℤ) (total : StationTotal) (now : Option ℤ) : Prop :=
  ∀ clock ∈ now, ∀ last ∈ total.samples.getLast?,
    last.1 + transferGap ≤ clock ∨ evalEnd plant day ≤ clock

variable {now : Option ℤ}

theorem fetchStationDay_uncut {rows : List Reading}
    (uncut : Uncut plant day (fetchStationDay plant station day rows now) now) :
    fetchStationDay plant station day rows now = fetchStationDay plant station day rows none := by
  cases now with
  | none => rfl
  | some clock =>
      have same : activeIntervals (samplesOf plant (readPages maxPages rows).1)
          (min (evalEnd plant day) clock) =
            activeIntervals (samplesOf plant (readPages maxPages rows).1) (evalEnd plant day) :=
        activeIntervals_congr fun last held => by
          rw [← min_assoc, min_eq_left_iff]
          rcases uncut clock rfl last held with enough | late
          · exact (min_le_left _ _).trans enough
          · exact (min_le_right _ _).trans late
      unfold fetchStationDay
      dsimp only
      rw [adjustedDowntimeIntervals_congr same, same]

/-- A clock at the end of the UTC day or later cuts nothing. -/
theorem Uncut.late {total : StationTotal} (late : ∀ clock ∈ now, (dayWindowUtc day).2 ≤ clock) :
    Uncut plant day total now :=
  fun clock held _ _ => .inr ((min_le_right _ _).trans (late clock held))

/-- A fetch that no reading of the day comes after has all of them. -/
theorem readingsUpTo_all {meterId : String}
    (all : ∀ reading ∈ readingsUpTo readings meterId day (dayWindowUtc day).2,
      reading.eventDate ≤ moment) :
    readingsUpTo readings meterId day moment =
      readingsUpTo readings meterId day (dayWindowUtc day).2 := by
  refine List.filter_congr fun reading member => ?_
  refine decide_eq_decide.mpr ⟨fun held => ⟨held.1, held.2.1, held.2.1⟩, fun held => ?_⟩
  exact ⟨held.1, held.2.1,
    all reading (List.mem_filter.mpr ⟨member, decide_eq_true_iff.mpr held⟩)⟩

theorem readingsUpTo_late {meterId : String} (late : (dayWindowUtc day).2 ≤ moment) :
    readingsUpTo readings meterId day moment =
      readingsUpTo readings meterId day (dayWindowUtc day).2 := by
  refine readingsUpTo_all fun reading member => ?_
  have held := (List.mem_filter.mp member).2
  exact ((decide_eq_true_iff.mp held).2.1).trans late

/-- Totals are those of the whole day, if no reading came after and the clock cuts nothing. -/
theorem stationTotalAt_whole
    (all : ∀ reading ∈ readingsUpTo readings station.meterId day (dayWindowUtc day).2,
      reading.eventDate ≤ moment)
    (uncut : Uncut plant day (stationTotalAt plant readings station day moment now) now) :
    stationTotalAt plant readings station day moment now = wholeDay plant readings station day := by
  unfold wholeDay stationTotalAt at *
  rw [fetchStationDay_uncut uncut, readingsUpTo_all all]

theorem stationTotalAt_late (late : (dayWindowUtc day).2 ≤ moment)
    (given : ∀ clock ∈ now, (dayWindowUtc day).2 ≤ clock) :
    stationTotalAt plant readings station day moment now = wholeDay plant readings station day := by
  unfold wholeDay stationTotalAt
  rw [fetchStationDay_uncut (Uncut.late given), readingsUpTo_late late]

/-- The totals of a meter do not depend on how its station is named. -/
theorem wholeDay_station {other : Station} (same : other.meterId = station.meterId) :
    { wholeDay plant readings other day with station } = wholeDay plant readings station day := by
  unfold wholeDay stationTotalAt
  rw [same]
  rfl

@[simp] theorem wholeDay_station_eq : (wholeDay plant readings station day).station = station := rfl

@[simp] theorem stationTotalAt_station :
    (stationTotalAt plant readings station day moment now).station = station := rfl

end PlantManager.Production.Leaderboard

import PlantManager.Attendance.ProjectionReference
import PlantManager.Roster.People

/-! # The hours report

Clocked hours are split at the midnights of the plant (`Staffing.splitAtMidnights`), and
added up by employee and day (`Staffing.buildHoursReport`). Instants are microseconds.
-/

namespace PlantManager.Staffing

open Mapping Ranking
open Attendance.Projection (PlantCalendar)

/-! ## Times of the plant -/

/-- The clock of the plant shows midnight once a day, when the day begins. -/
structure PlantZone extends PlantCalendar where
  timeOf : ℤ → ℤ
  timeOf_nonneg : ∀ moment, 0 ≤ timeOf moment
  timeOf_eq_zero_iff : ∀ moment, timeOf moment = 0 ↔ moment = dayStart (dayOf moment)

/-- An instant, in the time of the plant or in that of a fixed offset. -/
structure Stamp where
  moment : ℤ
  inPlant : Bool
  deriving DecidableEq

namespace Stamp

variable (zone : PlantZone)

/-- Two times of the plant are compared by what the clock shows, others by their instants. -/
def Before (first second : Stamp) : Prop :=
  if first.inPlant ∧ second.inPlant then
    zone.dayOf first.moment < zone.dayOf second.moment ∨
      (zone.dayOf first.moment = zone.dayOf second.moment ∧
        zone.timeOf first.moment < zone.timeOf second.moment)
  else first.moment < second.moment

instance (first second : Stamp) : Decidable (first.Before zone second) := by
  unfold Before
  infer_instance

def later (first second : Stamp) : Stamp := if first.Before zone second then second else first

def earlier (first second : Stamp) : Stamp := if second.Before zone first then second else first

def midnight (day : ℤ) : Stamp := ⟨zone.dayStart day, true⟩

def AtMidnight (stamp : Stamp) : Prop := stamp.moment = zone.dayStart (zone.dayOf stamp.moment)

/-- The clock does not mislead about two times: they are one, not both of the plant, or one of them
is midnight. -/
def Comparable (first second : Stamp) : Prop :=
  first = second ∨ first.inPlant = false ∨ second.inPlant = false ∨ first.AtMidnight zone ∨
    second.AtMidnight zone

variable {zone} {first second : Stamp}

theorem dayOf_dayStart (zone : PlantZone) (day : ℤ) : zone.dayOf (zone.dayStart day) = day :=
  (zone.dayOf_eq_iff _ _).mpr ⟨le_rfl, zone.dayStart_strictMono (by omega)⟩

theorem atMidnight_midnight (day : ℤ) : (midnight zone day).AtMidnight zone := by
  unfold AtMidnight midnight
  rw [dayOf_dayStart]

theorem Comparable.symm (comparable : first.Comparable zone second) :
    second.Comparable zone first := by
  rcases comparable with same | one | two | one | two
  · exact .inl same.symm
  · exact .inr (.inr (.inl one))
  · exact .inr (.inl two)
  · exact .inr (.inr (.inr (.inr one)))
  · exact .inr (.inr (.inr (.inl two)))

/-- At midnight the clock tells the order of instants. -/
theorem clock_midnight_iff (day moment : ℤ) :
    (day < zone.dayOf moment ∨ (day = zone.dayOf moment ∧ 0 < zone.timeOf moment)) ↔
      zone.dayStart day < moment := by
  have start := zone.toPlantCalendar.dayStart_dayOf_le moment
  have stop := zone.toPlantCalendar.lt_dayStart_dayOf_add_one moment
  have nonneg := zone.timeOf_nonneg moment
  have zero := zone.timeOf_eq_zero_iff moment
  constructor
  · rintro (before | ⟨rfl, after⟩)
    · exact (zone.dayStart_strictMono before).trans_le start
    · refine start.lt_of_ne fun same => ?_
      omega
  · intro after
    rcases lt_trichotomy day (zone.dayOf moment) with before | rfl | past
    · exact .inl before
    · have shows : zone.timeOf moment ≠ 0 := fun shows => absurd (zero.mp shows) after.ne'
      exact .inr ⟨rfl, by omega⟩
    · have next := zone.dayStart_strictMono.monotone (by omega : zone.dayOf moment + 1 ≤ day)
      omega

theorem dayOf_lt_iff (day moment : ℤ) : zone.dayOf moment < day ↔ moment < zone.dayStart day := by
  have start := zone.toPlantCalendar.dayStart_dayOf_le moment
  have stop := zone.toPlantCalendar.lt_dayStart_dayOf_add_one moment
  constructor
  · intro before
    exact stop.trans_le (zone.dayStart_strictMono.monotone (by omega))
  · intro before
    by_contra past
    have next := zone.dayStart_strictMono.monotone (not_lt.mp past)
    omega

section

variable (comparable : first.Comparable zone second)
include comparable

theorem before_iff : first.Before zone second ↔ first.moment < second.moment := by
  unfold Before
  split
  · next both =>
      rcases comparable with rfl | one | two | one | two
      · simp
      · rw [both.1] at one
        cases one
      · rw [both.2] at two
        cases two
      · have shows := (zone.timeOf_eq_zero_iff first.moment).mpr one
        rw [shows, clock_midnight_iff, ← one]
      · have shows := (zone.timeOf_eq_zero_iff second.moment).mpr two
        have nonneg := zone.timeOf_nonneg first.moment
        rw [shows, or_iff_left (by omega), dayOf_lt_iff, ← two]
  · exact Iff.rfl

theorem later_moment : (later zone first second).moment = max first.moment second.moment := by
  have iff := before_iff comparable
  unfold later
  split
  · next before => exact (max_eq_right (iff.mp before).le).symm
  · next after => exact (max_eq_left (not_lt.mp (after ∘ iff.mpr))).symm

theorem earlier_moment : (earlier zone first second).moment = min first.moment second.moment := by
  have iff := before_iff comparable.symm
  unfold earlier
  split
  · next before => exact (min_eq_right (iff.mp before).le).symm
  · next after => exact (min_eq_left (not_lt.mp (after ∘ iff.mpr))).symm

end

theorem later_eq (zone : PlantZone) (first second : Stamp) :
    later zone first second = first ∨ later zone first second = second := by
  unfold later
  split
  · exact .inr rfl
  · exact .inl rfl

theorem earlier_eq (zone : PlantZone) (first second : Stamp) :
    earlier zone first second = first ∨ earlier zone first second = second := by
  unfold earlier
  split
  · exact .inr rfl
  · exact .inl rfl

theorem comparable_midnight (zone : PlantZone) (first : Stamp) (day : ℤ) :
    first.Comparable zone (midnight zone day) :=
  .inr (.inr (.inr (.inr (atMidnight_midnight day))))

end Stamp

/-! ## Splitting -/

/-- A part of an interval on one day. -/
structure Segment where
  day : ℤ
  elapsed : ℤ
  deriving DecidableEq

section Splitting

variable (zone : PlantZone) (stop : Stamp)

/-- The end of the part that begins at a cursor: the next midnight, or the end of all. -/
def segmentEnd (cursor : Stamp) : Stamp :=
  stop.earlier zone (.midnight zone (zone.dayOf cursor.moment + 1))

variable {zone stop}

theorem segmentEnd_moment (cursor : Stamp) : (segmentEnd zone stop cursor).moment =
    min stop.moment (zone.dayStart (zone.dayOf cursor.moment + 1)) :=
  Stamp.earlier_moment (Stamp.comparable_midnight zone stop _)

theorem segmentEnd_comparable (cursor : Stamp) :
    (segmentEnd zone stop cursor).Comparable zone stop := by
  rcases Stamp.earlier_eq zone stop (.midnight zone (zone.dayOf cursor.moment + 1)) with same | same
  · exact .inl same
  · unfold segmentEnd
    rw [same]
    exact (Stamp.comparable_midnight zone stop _).symm

theorem lt_segmentEnd {cursor : Stamp} (comparable : cursor.Comparable zone stop)
    (before : cursor.Before zone stop) :
    cursor.moment < (segmentEnd zone stop cursor).moment := by
  rw [segmentEnd_moment, lt_min_iff]
  exact ⟨(Stamp.before_iff comparable).mp before,
    zone.toPlantCalendar.lt_dayStart_dayOf_add_one cursor.moment⟩

variable (zone stop)

set_option linter.unusedVariables false in
/-- Split at every midnight until the end. -/
def splitAtMidnights (cursor : Stamp) (comparable : cursor.Comparable zone stop) : List Segment :=
  if before : cursor.Before zone stop then
    let next := segmentEnd zone stop cursor
    let elapsed := next.moment - cursor.moment
    let rest := splitAtMidnights next (segmentEnd_comparable cursor)
    if 0 < elapsed then ⟨zone.dayOf cursor.moment, elapsed⟩ :: rest else rest
  else []
termination_by (stop.moment - cursor.moment).toNat
decreasing_by
  have step := lt_segmentEnd comparable before
  have first := (Stamp.before_iff comparable).mp before
  omega

end Splitting

/-! ## Aggregates -/

structure HoursRecord where
  day : ℤ
  label : String
  hours : ℚ
  isOpen : Bool
  deriving DecidableEq

structure Aggregate where
  name : String
  employeeId : ℤ
  department : Option String
  dailyHours : Dictionary ℤ ℚ
  regularHours : ℚ
  overtimeHours : ℚ
  openShift : Bool
  conflictingRecord : Bool
  records : List HoursRecord

def Aggregate.addDaily (aggregate : Aggregate) (day : ℤ) (hours : ℚ) : Aggregate :=
  { aggregate with
    dailyHours := aggregate.dailyHours.alter day fun stored => stored.getD 0 + hours }

structure RosterPerson where
  name : String
  employeeId : Option ℤ
  active : Bool

/-- An active person whose id is new. -/
def addPerson (departments : ℤ → Option String) (aggregates : Dictionary ℤ Aggregate)
    (person : RosterPerson) : Dictionary ℤ Aggregate :=
  match person.employeeId with
  | none => aggregates
  | some employeeId =>
      if person.active then
        aggregates.setDefault employeeId ⟨Roster.stripped person.name, employeeId,
          departments employeeId, ∅, 0, 0, false, false, []⟩
      else aggregates

def activeAggregates (roster : List RosterPerson) (departments : ℤ → Option String) :
    Dictionary ℤ Aggregate :=
  roster.foldl (addPerson departments) ∅

def secondsPerHour : ℤ := 3600

def microseconds : ℤ := 1000000

/-- Elapsed microseconds as hours. -/
def hoursOf (elapsed : ℤ) : ℚ := elapsed / (microseconds * secondsPerHour : ℤ)

private def twoDigits (number : ℤ) : String :=
  if number < 10 then s!"0{number}" else toString number

/-- What a clock of twelve hours shows. -/
def timeLabel (zone : PlantZone) (moment : ℤ) : String :=
  let minutes := zone.timeOf moment / (60 * microseconds)
  let hour := minutes / 60
  let shown := if hour % 12 = 0 then 12 else hour % 12
  let past := twoDigits (minutes % 60)
  let half := if hour < 12 then "AM" else "PM"
  s!"{shown}:{past} {half}"

def clockedLabel (zone : PlantZone) (start : ℤ) (stop : Option ℤ) : String :=
  let began := timeLabel zone start
  let ended := (stop.map (timeLabel zone)).getD "open"
  s!"{began} – {ended}"

def addSegment (label : String) (isOpen : Bool) (aggregate : Aggregate) (segment : Segment) :
    Aggregate :=
  let added := aggregate.addDaily segment.day (hoursOf segment.elapsed)
  { added with
    records := added.records ++ [⟨segment.day, label, hoursOf segment.elapsed, isOpen⟩] }

theorem comparable_clipped (zone : PlantZone) (start reportStart : ℤ) (clippedEnd : Stamp) :
    ((Stamp.mk start false).later zone (.midnight zone reportStart)).Comparable zone clippedEnd := by
  rcases Stamp.later_eq zone ⟨start, false⟩ (.midnight zone reportStart) with same | same
  · rw [same]
    exact .inr (.inl rfl)
  · rw [same]
    exact (Stamp.comparable_midnight zone clippedEnd reportStart).symm

/-- Add the part of an interval that is in the report, from one midnight to another. -/
def addClockedInterval (zone : PlantZone) (aggregate : Aggregate) (start : ℤ) (stop : Stamp)
    (reportStart reportStop : ℤ) (isOpen : Bool) : Aggregate :=
  let clippedStart := (Stamp.mk start false).later zone (.midnight zone reportStart)
  let clippedEnd := stop.earlier zone (.midnight zone reportStop)
  if clippedStart.Before zone clippedEnd then
    let label := clockedLabel zone start (if isOpen then none else some stop.moment)
    (splitAtMidnights zone clippedEnd clippedStart
      (comparable_clipped zone start reportStart clippedEnd)).foldl (addSegment label isOpen)
        aggregate
  else aggregate

inductive CheckOut where
  | missing
  | unreadable
  | given (moment : ℤ)
  deriving DecidableEq

/-- An attendance; times are in UTC or have an offset, and are missing if they cannot be read. -/
structure Attendance where
  employeeId : Option ℤ
  checkIn : Option ℤ
  checkOut : CheckOut
  conflict : Bool
  deriving DecidableEq

/-- The interval of an attendance that can be read, and whether it is open. -/
def Attendance.interval (attendance : Attendance) (now : ℤ) : Option (ℤ × Stamp × Bool) :=
  match attendance.checkIn, attendance.checkOut with
  | none, _ => none
  | some _, .unreadable => none
  | some checkIn, .missing => some (checkIn, ⟨now, true⟩, true)
  | some checkIn, .given checkOut => some (checkIn, ⟨checkOut, false⟩, false)

def addAttendance (zone : PlantZone) (start stop now : ℤ) (aggregate : Aggregate)
    (attendance : Attendance) : Aggregate :=
  match attendance.interval now with
  | none => aggregate
  | some (checkIn, checkOut, isOpen) =>
      addClockedInterval zone { aggregate with
        openShift := aggregate.openShift || isOpen
        conflictingRecord := aggregate.conflictingRecord || attendance.conflict }
        checkIn checkOut start (stop + 1) isOpen

def aggregateClocked (zone : PlantZone) (aggregates : Dictionary ℤ Aggregate) (start stop now : ℤ)
    (attendances : List Attendance) : Dictionary ℤ Aggregate :=
  attendances.foldl (fun aggregates attendance =>
    match attendance.employeeId with
    | none => aggregates
    | some employeeId => aggregates.modify employeeId fun aggregate =>
        addAttendance zone start stop now aggregate attendance) aggregates

/-- An entry of the payroll; the duration is missing if it is no valid number of hours. -/
structure WorkEntry where
  employeeId : Option ℤ
  active : Bool
  day : Option ℤ
  typeCode : String
  conflict : Bool
  duration : Option ℚ

def addWorkEntry (start stop : ℤ) (aggregate : Aggregate) (entry : WorkEntry) : Aggregate :=
  match entry.day with
  | none => aggregate
  | some day =>
      if entry.active ∧ start ≤ day ∧ day ≤ stop ∧
          (entry.typeCode = "WORK100" ∨ entry.typeCode = "OVERTIME") then
        let marked := { aggregate with
          conflictingRecord := aggregate.conflictingRecord || entry.conflict }
        match entry.duration with
        | none => marked
        | some hours =>
            let added := marked.addDaily day hours
            if entry.typeCode = "WORK100" then
              { added with
                regularHours := added.regularHours + hours
                records := added.records ++ [⟨day, "Regular", hours, false⟩] }
            else
              { added with
                overtimeHours := added.overtimeHours + hours
                records := added.records ++ [⟨day, "Overtime", hours, false⟩] }
      else aggregate

def aggregatePayroll (aggregates : Dictionary ℤ Aggregate) (start stop : ℤ)
    (workEntries : List WorkEntry) : Dictionary ℤ Aggregate :=
  workEntries.foldl (fun aggregates entry =>
    match entry.employeeId with
    | none => aggregates
    | some employeeId => aggregates.modify employeeId fun aggregate =>
        addWorkEntry start stop aggregate entry) aggregates

/-! ## The report -/

inductive Source where
  | clocked
  | payroll
  deriving DecidableEq

structure HoursRow where
  name : String
  employeeId : ℤ
  department : Option String
  daily : List (ℤ × ℚ)
  regularHours : ℚ
  overtimeHours : ℚ
  totalHours : ℚ
  openShift : Bool
  conflictingRecord : Bool
  records : List HoursRecord

def HoursRow.needsAttention (row : HoursRow) : Bool := row.openShift || row.conflictingRecord

def hoursRow (source : Source) (aggregate : Aggregate) : HoursRow :=
  let daily := sortBy Prod.fst aggregate.dailyHours.entries
  let totalHours := match source with
    | .clocked => (daily.map Prod.snd).sum
    | .payroll => aggregate.regularHours + aggregate.overtimeHours
  { name := aggregate.name
    employeeId := aggregate.employeeId
    department := aggregate.department
    daily
    regularHours := match source with
      | .clocked => totalHours
      | .payroll => aggregate.regularHours
    overtimeHours := aggregate.overtimeHours
    totalHours
    openShift := aggregate.openShift
    conflictingRecord := aggregate.conflictingRecord
    records := sortBy HoursRecord.day aggregate.records }

structure HoursReport where
  rows : List HoursRow
  teamTotalHours : ℚ
  availableDepartments : List String

/-- What is asked for besides the dates. -/
structure HoursQuery where
  query : String
  department : String
  attention : String

section Report

variable (casefold : String → String)

def HoursQuery.Selects (wanted : HoursQuery) (row : HoursRow) : Bool :=
  let needle := casefold (Roster.stripped wanted.query)
  let selectedDepartment := Roster.stripped wanted.department
  if needle ≠ "" ∧ ¬needle.toList <:+: (casefold row.name).toList then false
  else if selectedDepartment ≠ "" ∧ row.department ≠ some selectedDepartment then false
  else if wanted.attention = "approaching_40" then 36 ≤ row.totalHours ∧ row.totalHours < 40
  else if wanted.attention = "over_40" then 40 ≤ row.totalHours
  else if wanted.attention = "attention" then row.needsAttention
  else true

/-- Most hours first, and then by the name. -/
def filterAndSortRows (rows : List HoursRow) (wanted : HoursQuery) : HoursReport :=
  let selected := sortBy (fun row => toLex (-row.totalHours, casefold row.name))
    (rows.filter (wanted.Selects casefold))
  { rows := selected
    teamTotalHours := (selected.map HoursRow.totalHours).sum
    availableDepartments := sortBy casefold
      ((rows.filterMap HoursRow.department).filter (· ≠ "")).dedup }

def buildHoursReport (zone : PlantZone) (source : Source) (roster : List RosterPerson)
    (start stop now : ℤ) (attendances : List Attendance) (workEntries : List WorkEntry)
    (departments : ℤ → Option String) (wanted : HoursQuery) : Except String HoursReport :=
  if wanted.attention ∉ ["all", "approaching_40", "over_40", "attention"] then
    .error "Unknown hours attention filter."
  else if stop < start then .error "Report start date must be on or before the end date."
  else
    let aggregates := activeAggregates roster departments
    let filled := match source with
      | .clocked => aggregateClocked zone aggregates start stop now attendances
      | .payroll => aggregatePayroll aggregates start stop workEntries
    .ok (filterAndSortRows casefold (filled.values.map (hoursRow source)) wanted)

end Report

end PlantManager.Staffing

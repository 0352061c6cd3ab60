import PlantManager.Attendance.Projection
import PlantManager.Attendance.RecalcQueue
import PlantManager.Mapping.SortedMap

/-! # Storing batches in the attendance mirror

A batch of rows from Odoo, or a full sweep, changes the mirror and enqueues the plant days it
affects, in one transaction. A batch that raises changes nothing. Instants are microseconds,
days are numbered.
-/

namespace PlantManager.Attendance.Mirror

open Checks Mapping
open Projection (PlantCalendar)
open Recalc (QueueRow)

/-- A normalized row from Odoo; an open row has no check-out. -/
structure AttendanceRow where
  attendanceId : ℤ
  employeeId : ℤ
  employeeName : Option String
  checkIn : ℤ
  checkOut : Option ℤ
  workCenterId : Option ℤ
  workCenterName : Option String
  departmentId : Option ℤ
  departmentName : Option String
  writeDate : ℤ
deriving DecidableEq

/-- A row of `odoo_attendance_mirror`; a deleted row stays as a tombstone. -/
structure MirrorRow extends AttendanceRow where
  firstSeenAt : ℤ
  lastSeenAt : ℤ
  lastSweepGeneration : Option ℤ
  deletedAt : Option ℤ
deriving DecidableEq

structure SyncState where
  cursorWriteDate : Option ℤ
  cursorId : Option ℤ
  lastIncrementalCompletedAt : Option ℤ
  lastFullSweepCompletedAt : Option ℤ
  lastFullSweepDeletionCount : ℕ
  fullSweepGeneration : ℤ
  baselineCompletedAt : Option ℤ
deriving DecidableEq

structure Tables where
  mirror : SortedMap ℤ MirrorRow
  sync : SyncState
  queue : SortedMap ℤ QueueRow

/-! ## Rows -/

def normalizeRow (raw : AttendanceRow) : Except Projection.Failure AttendanceRow := do
  raiseIf (∃ checkOut ∈ raw.checkOut, checkOut < raw.checkIn)
    (.valueError "check_out_utc cannot be before check_in_utc")
  let attendanceId ← Projection.positiveInt raw.attendanceId "odoo_attendance_id"
  let employeeId ← Projection.positiveInt raw.employeeId "employee_odoo_id"
  let workCenterId ← Projection.optionalPositiveInt raw.workCenterId "odoo_work_center_id"
  let departmentId ← Projection.optionalPositiveInt raw.departmentId "odoo_department_id"
  pure { raw with
    attendanceId := attendanceId
    employeeId := employeeId
    workCenterId := workCenterId
    departmentId := departmentId }

/-- Keep the row of an id that was written last. -/
def keepNewest (newest : SortedMap ℤ AttendanceRow) (row : AttendanceRow) :
    SortedMap ℤ AttendanceRow :=
  match newest.get row.attendanceId with
  | none => newest.set row.attendanceId row
  | some existing =>
      if existing.writeDate ≤ row.writeDate then newest.set row.attendanceId row else newest

def normalizedRows (rows : List AttendanceRow) :
    Except Projection.Failure (List AttendanceRow) := do
  let normalized ← rows.mapM normalizeRow
  pure ((normalized.foldl keepNewest ∅).entries.map Prod.snd)

/-! ## Days -/

/-- The plant days that a half-open interval meets; a check-out at midnight belongs to the day
before. -/
def localDaysTouched (calendar : PlantCalendar) (start : ℤ) (stop : Option ℤ) : Finset ℤ :=
  match stop with
  | none => {calendar.dayOf start}
  | some finish =>
      if finish = start then ∅
      else (Int.range (calendar.dayOf start) (calendar.dayOf (finish - 1) + 1)).toFinset

def rowDays (calendar : PlantCalendar) (row : AttendanceRow) (openEnd : ℤ) : Finset ℤ :=
  localDaysTouched calendar row.checkIn (some (row.checkOut.getD openEnd))

def MateriallyDifferent (existing incoming : AttendanceRow) : Prop :=
  existing.employeeId ≠ incoming.employeeId ∨ existing.checkIn ≠ incoming.checkIn ∨
    existing.checkOut ≠ incoming.checkOut ∨ existing.workCenterId ≠ incoming.workCenterId ∨
    existing.workCenterName ≠ incoming.workCenterName ∨
    existing.departmentId ≠ incoming.departmentId ∨
    existing.departmentName ≠ incoming.departmentName

instance (existing incoming : AttendanceRow) : Decidable (MateriallyDifferent existing incoming) :=
  inferInstanceAs (Decidable (_ ∨ _))

/-- Whether an observation is newer than a confirmed deletion. -/
def ObservationCanRevive (observedAt : ℤ) (deletedAt : Option ℤ) : Prop :=
  ∀ deleted ∈ deletedAt, deleted < observedAt

instance (observedAt : ℤ) (deletedAt : Option ℤ) :
    Decidable (ObservationCanRevive observedAt deletedAt) :=
  inferInstanceAs (Decidable (∀ deleted ∈ deletedAt, deleted < observedAt))

/-! ## Transactions -/

/-- When a batch was fetched and stored, and whether the first full load is over. -/
structure Cycle where
  calendar : PlantCalendar
  completedAt : ℤ
  observedAt : ℤ
  baselineCompleted : Bool

def enqueueRecalcs (days : Finset ℤ) (reason : String) (requestedAt : ℤ)
    (queue : SortedMap ℤ QueueRow) : SortedMap ℤ QueueRow :=
  (days.sort (· ≤ ·)).foldl
    (fun queue day => queue.set day (Recalc.enqueueRecalc reason requestedAt (queue.get day))) queue

/-- Upsert one row, and note the days that it changes. -/
def upsertRow (cycle : Cycle) (current : SortedMap ℤ MirrorRow × Finset ℤ)
    (incoming : AttendanceRow) : SortedMap ℤ MirrorRow × Finset ℤ :=
  let (mirror, affected) := current
  match mirror.get incoming.attendanceId with
  | none =>
      let inserted : MirrorRow :=
        { incoming with
          firstSeenAt := cycle.observedAt
          lastSeenAt := cycle.observedAt
          lastSweepGeneration := none
          deletedAt := none }
      (mirror.set incoming.attendanceId inserted,
        if cycle.baselineCompleted then
          affected ∪ rowDays cycle.calendar incoming cycle.completedAt
        else affected)
  | some existing =>
      if incoming.writeDate < existing.writeDate then (mirror, affected)
      -- The row was fetched before a newer sweep found it missing.
      else if ¬ObservationCanRevive cycle.observedAt existing.deletedAt then (mirror, affected)
      else
        let updated : MirrorRow :=
          { existing with
            toAttendanceRow := incoming
            lastSeenAt := max existing.lastSeenAt cycle.observedAt
            deletedAt := none }
        (mirror.set incoming.attendanceId updated,
          if cycle.baselineCompleted ∧ (existing.deletedAt ≠ none ∨
              MateriallyDifferent existing.toAttendanceRow incoming) then
            affected ∪ rowDays cycle.calendar existing.toAttendanceRow cycle.completedAt ∪
              rowDays cycle.calendar incoming cycle.completedAt
          else affected)

def upsertRows (cycle : Cycle) (rows : List AttendanceRow) (tables : Tables) :
    Tables × Finset ℤ :=
  let (mirror, affected) := rows.foldl (upsertRow cycle) (tables.mirror, ∅)
  ({ tables with
    mirror := mirror
    queue := enqueueRecalcs affected "odoo_attendance_changed" cycle.completedAt tables.queue },
    affected)

def laterCursor (currentDate currentId candidateDate candidateId : Option ℤ) :
    Option ℤ × Option ℤ :=
  match candidateDate, currentDate with
  | none, _ => (currentDate, currentId)
  | some _, none => (candidateDate, candidateId)
  | some candidate, some current =>
      if current < candidate ∨ current = candidate ∧ currentId.getD 0 < candidateId.getD 0 then
        (candidateDate, candidateId)
      else (currentDate, currentId)

def validateCursor : Option ℤ → Option ℤ → Except Projection.Failure Unit
  | none, none => .ok ()
  | none, some _ => .error (.valueError "cursor_id requires cursor_write_date")
  | some _, none => .error (.valueError "cursor_id must be a positive integer")
  | some _, some cursorId => discard (Projection.positiveInt cursorId "cursor_id")

/-- Store the rows of one poll and advance its cursor. -/
def storeIncrementalCycle (calendar : PlantCalendar) (rows : List AttendanceRow)
    (cursorWriteDate cursorId : Option ℤ) (completedAt observedAt : ℤ) (tables : Tables) :
    Except Projection.Failure (Tables × Finset ℤ) := do
  let normalized ← normalizedRows rows
  validateCursor cursorWriteDate cursorId
  let cycle : Cycle :=
    ⟨calendar, completedAt, observedAt, tables.sync.baselineCompletedAt.isSome⟩
  let (stored, affected) := upsertRows cycle normalized tables
  let (nextDate, nextId) := laterCursor tables.sync.cursorWriteDate tables.sync.cursorId
    cursorWriteDate cursorId
  pure ({ stored with
    sync := { stored.sync with
      cursorWriteDate := nextDate
      cursorId := nextId
      lastIncrementalCompletedAt := some completedAt } }, affected)

/-- The rows that a complete sweep did not find. -/
def deletedRows (presentIds : Finset ℤ) (mirror : SortedMap ℤ MirrorRow) : List MirrorRow :=
  (mirror.entries.filter fun entry => entry.2.deletedAt = none ∧ entry.1 ∉ presentIds).map Prod.snd

/-- Stamp the rows that a sweep found, and bury the others. -/
def sweepRow (presentIds : Finset ℤ) (generation observedAt : ℤ) (id : ℤ) (row : MirrorRow) :
    MirrorRow :=
  if row.deletedAt ≠ none then row
  else if id ∈ presentIds then { row with lastSweepGeneration := some generation }
  else { row with deletedAt := some observedAt, lastSweepGeneration := some generation }

/-- Store a complete sweep; tombstones that it found again are recovered first. -/
def storeFullSweep (calendar : PlantCalendar) (ids : List ℤ) (recoveryRows : List AttendanceRow)
    (generation completedAt observedAt : ℤ) (tables : Tables) :
    Except Projection.Failure (Tables × Finset ℤ) := do
  let presentIds := (← ids.mapM fun id => Projection.positiveInt id "attendance id").toFinset
  let recovery ← normalizedRows recoveryRows
  raiseIf (¬∀ row ∈ recovery, row.attendanceId ∈ presentIds)
    (.valueError "recovery rows must be present in the completed sweep")
  let generation ← Projection.positiveInt generation "generation"
  raiseIf (generation ≠ tables.sync.fullSweepGeneration + 1)
    (.valueError "full sweep generation is stale")
  raiseIf (¬∀ row ∈ recovery, ∃ existing ∈ tables.mirror.get row.attendanceId,
      existing.deletedAt ≠ none)
    (.runtimeError "tombstone recovery state changed before commit")
  let cycle : Cycle :=
    ⟨calendar, completedAt, observedAt, tables.sync.baselineCompletedAt.isSome⟩
  let (recovered, recoveredDays) := upsertRows cycle recovery tables
  let deleted := deletedRows presentIds recovered.mirror
  let deletedDays : Finset ℤ :=
    if cycle.baselineCompleted then
      deleted.toFinset.biUnion fun row => rowDays calendar row.toAttendanceRow completedAt
    else ∅
  pure (
    { mirror := recovered.mirror.mapValues (sweepRow presentIds generation observedAt)
      queue := enqueueRecalcs deletedDays "odoo_attendance_deleted" completedAt recovered.queue
      sync := { recovered.sync with
        lastFullSweepCompletedAt := some completedAt
        lastFullSweepDeletionCount := deleted.length
        fullSweepGeneration := generation } },
    recoveredDays ∪ deletedDays)

/-- What a source poll stores. -/
inductive Batch where
  | incremental (rows : List AttendanceRow) (cursorWriteDate cursorId : Option ℤ)
      (completedAt observedAt : ℤ)
  | fullSweep (ids : List ℤ) (recoveryRows : List AttendanceRow)
      (generation completedAt observedAt : ℤ)

def Batch.completedAt : Batch → ℤ
  | .incremental _ _ _ completedAt _ | .fullSweep _ _ _ completedAt _ => completedAt

def Batch.store (calendar : PlantCalendar) :
    Batch → Tables → Except Projection.Failure (Tables × Finset ℤ)
  | .incremental rows cursorWriteDate cursorId completedAt observedAt =>
      storeIncrementalCycle calendar rows cursorWriteDate cursorId completedAt observedAt
  | .fullSweep ids recoveryRows generation completedAt observedAt =>
      storeFullSweep calendar ids recoveryRows generation completedAt observedAt

end PlantManager.Attendance.Mirror

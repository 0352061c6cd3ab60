import PlantManager.Attendance.MirrorStore

/-! # Repairs of attendance departments

The row of `attendance_department_repairs` for one attendance. A projection of the mirror queues
the department that the work center asks for (`Attendance.Repair.reconcileRow`), a
worker claims the row and settles it in transactions that lock it under its claim. Instants are
microseconds.
-/

namespace PlantManager.Attendance.Repair

open Checks Mapping
open Projection (PlantCalendar)
open Mirror (AttendanceRow MirrorRow)

inductive Status where
  | pending
  | applying
  | complete
  | failed
deriving DecidableEq

/-- A version of the attendance, and the department that its work center asks for; the instant of
the projection orders what was observed. -/
structure Intent where
  writeDate : ℤ
  departmentId : ℤ
  workCenterId : ℤ
  projectedAt : ℤ
deriving DecidableEq

/-- What is asked for, whenever it was observed. -/
def Intent.key (intent : Intent) : ℤ × ℤ × ℤ :=
  (intent.writeDate, intent.departmentId, intent.workCenterId)

structure RepairRow where
  intent : Intent
  status : Status
  attemptCount : ℕ
  updatedAt : ℤ
  lastError : Option String
  successor : Option Intent
deriving DecidableEq

/-- What a projection says of the attendance, as it read it in the mirror. -/
structure RepairProjectionProof where
  writeDate : ℤ
  workCenterId : ℤ
  departmentId : Option ℤ
  targetDepartmentId : ℤ
  targetProjectedAt : ℤ
deriving DecidableEq

/-- The candidate of a projection agrees with its proof. -/
def RepairProjectionProof.candidate (proof : RepairProjectionProof) : Intent where
  writeDate := proof.writeDate
  departmentId := proof.targetDepartmentId
  workCenterId := proof.workCenterId
  projectedAt := proof.targetProjectedAt

structure RepairClaim where
  expectedWriteDate : ℤ
  targetDepartmentId : ℤ
  expectedWorkCenterId : ℤ
  mirrorWriteDate : Option ℤ
  attemptCount : ℕ
deriving DecidableEq

def maxAttempts : ℕ := 3

def lease : ℤ := 15 * 60 * 1000000

def errorLimit : ℕ := 500

def errorText (error : String) : String := String.ofList (error.toList.take errorLimit)

/-- A row that waits for its first attempt. -/
def RepairRow.opened (intent : Intent) (now : ℤ) : RepairRow where
  intent := intent
  status := .pending
  attemptCount := 0
  updatedAt := now
  lastError := none
  successor := none

/-- The row of the mirror, unless it is a tombstone. -/
def liveRow (attendanceId : ℤ) (mirror : SortedMap ℤ MirrorRow) : Option MirrorRow :=
  (mirror.get attendanceId).filter fun row => row.deletedAt = none

/-! ## Queueing -/

/-- A candidate older than what is queued is moved to the version in the mirror, if it is of the
same work center. -/
def rebase (live : Option MirrorRow) (candidate : Intent) (newest : ℤ) : Option Intent :=
  if candidate.writeDate < newest then
    match live with
    | none => none
    | some mirror =>
        if mirror.writeDate < newest ∨ mirror.workCenterId ≠ some candidate.workCenterId then none
        else some { candidate with writeDate := mirror.writeDate }
  else some candidate

/-- Queue behind the attempt that is being applied. -/
def enqueueApplying (live : Option MirrorRow) (candidate : Intent) (row : RepairRow) :
    Bool × RepairRow :=
  let latestProjectedAt := (row.successor.getD row.intent).projectedAt
  let newestVersion :=
    match row.successor with
    | none => row.intent.writeDate
    | some successor => max row.intent.writeDate successor.writeDate
  if candidate.projectedAt ≤ latestProjectedAt then (false, row)
  else
    match rebase live candidate newestVersion with
    | none => (false, row)
    | some value =>
        if row.successor = none ∧ value.key = row.intent.key then
          (false, { row with
            intent := { row.intent with projectedAt := candidate.projectedAt } })
        else (true, { row with successor := some value })

/-- Queue again, unless the same was asked for already. -/
def enqueueSettled (live : Option MirrorRow) (candidate : Intent) (now : ℤ) (row : RepairRow) :
    Bool × RepairRow :=
  if candidate.projectedAt ≤ row.intent.projectedAt then (false, row)
  else
    match rebase live candidate row.intent.writeDate with
    | none => (false, row)
    | some value =>
        if value.key = row.intent.key then
          (false, { row with
            intent := { row.intent with projectedAt := candidate.projectedAt } })
        else (true, .opened value now)

/-- Queue one candidate; whether the row has changed. -/
def enqueueCur (live : Option MirrorRow) (candidate : Intent) (now : ℤ) :
    Option RepairRow → Bool × RepairRow
  | none => (true, .opened candidate now)
  | some row =>
      if row.status = .applying then enqueueApplying live candidate row
      else enqueueSettled live candidate now row

/-- The projection read the version that is in the mirror. -/
def ExactProjection (mirror : MirrorRow) (proof : RepairProjectionProof) : Prop :=
  mirror.writeDate = proof.writeDate ∧ mirror.workCenterId = some proof.workCenterId ∧
    mirror.departmentId = proof.departmentId

instance (mirror : MirrorRow) (proof : RepairProjectionProof) :
    Decidable (ExactProjection mirror proof) :=
  inferInstanceAs (Decidable (_ ∧ _ ∧ _))

/-- Complete what a newer projection found correct. -/
def completeObsolete (proof : RepairProjectionProof) (now : ℤ) (row : RepairRow) : RepairRow :=
  if row.status ≠ .applying ∧ row.intent.projectedAt < proof.targetProjectedAt ∧
      (row.status ≠ .complete ∨ row.lastError ≠ none) then
    { row with
      intent := proof.candidate
      status := .complete
      updatedAt := now
      lastError := none }
  else row

/-- Reconcile the row with a projection; `candidate` tells whether it asks for a repair. -/
def reconcileRow (live : Option MirrorRow) (proof : RepairProjectionProof) (candidate : Bool)
    (now : ℤ) (repair : Option RepairRow) : Except String (Option RepairRow) :=
  match live with
  | none => .ok repair
  | some mirror =>
      let delayed := candidate = true ∧ repair ≠ none ∧ proof.writeDate < mirror.writeDate ∧
        mirror.workCenterId = some proof.workCenterId
      if candidate = false ∧ repair = none then .ok repair
      else if ¬ExactProjection mirror proof ∧ ¬delayed then .ok repair
      else if candidate then
        if proof.departmentId = some proof.targetDepartmentId then .ok repair
        else .ok (some (enqueueCur live proof.candidate now repair).2)
      else if proof.departmentId ≠ some proof.targetDepartmentId then
        .error "candidate-free projection cannot prove the row is correct"
      else .ok (repair.map (completeObsolete proof now))

/-- Whether a synchronization hands the proof on: one that finds a wrong department without a
candidate is left out. -/
def Covered (proof : RepairProjectionProof) (candidate : Bool) : Prop :=
  candidate = true ∨ proof.departmentId = some proof.targetDepartmentId

instance (proof : RepairProjectionProof) (candidate : Bool) : Decidable (Covered proof candidate) :=
  inferInstanceAs (Decidable (_ ∨ _))

/-! ## Claiming -/

/-- A lease that expired after the last attempt gives way to the successor, or fails. -/
def expire (now : ℤ) (row : RepairRow) : RepairRow :=
  if row.status = .applying ∧ row.updatedAt ≤ now - lease ∧ maxAttempts ≤ row.attemptCount then
    match row.successor with
    | some successor => .opened successor now
    | none =>
        { row with
          status := .failed
          updatedAt := now
          lastError := some "Odoo department repair lease expired after the final attempt" }
  else row

def Claimable (now : ℤ) (row : RepairRow) : Prop :=
  row.attemptCount < maxAttempts ∧
    (row.status = .pending ∨ row.status = .applying ∧ row.updatedAt ≤ now - lease)

instance (now : ℤ) (row : RepairRow) : Decidable (Claimable now row) :=
  inferInstanceAs (Decidable (_ ∧ _))

def claimOf (live : Option MirrorRow) (row : RepairRow) : RepairClaim where
  expectedWriteDate := row.intent.writeDate
  targetDepartmentId := row.intent.departmentId
  expectedWorkCenterId := row.intent.workCenterId
  mirrorWriteDate := live.map fun mirror => mirror.writeDate
  attemptCount := row.attemptCount + 1

/-- Claim the row when it is eligible. -/
def claimNext (live : Option MirrorRow) (now : ℤ) (repair : RepairRow) :
    Option (RepairClaim × RepairRow) :=
  let row := expire now repair
  if Claimable now row then
    some (claimOf live row,
      { row with
        status := .applying
        attemptCount := row.attemptCount + 1
        updatedAt := now })
  else none

/-- The fence of a claim. -/
def RepairClaim.fence (claim : RepairClaim) : ℕ × ℤ × ℤ × ℤ :=
  (claim.attemptCount, claim.expectedWriteDate, claim.targetDepartmentId,
    claim.expectedWorkCenterId)

def RepairRow.fence (row : RepairRow) : ℕ × ℤ × ℤ × ℤ :=
  (row.attemptCount, row.intent.writeDate, row.intent.departmentId, row.intent.workCenterId)

/-- The row is being applied under the claim. -/
def Owned (row : RepairRow) (claim : RepairClaim) : Prop :=
  row.status = .applying ∧ row.fence = claim.fence

instance (row : RepairRow) (claim : RepairClaim) : Decidable (Owned row claim) :=
  inferInstanceAs (Decidable (_ ∧ _))

def lockOwned (claim : RepairClaim) (repair : Option RepairRow) : Option RepairRow :=
  repair.filter fun row => Owned row claim

/-! ## Settling -/

/-- A successor moves to a newer version that was observed at its work center. -/
def Intent.observe (successor : Intent) : Option AttendanceRow → Intent
  | none => successor
  | some row =>
      if row.workCenterId = some successor.workCenterId ∧ successor.writeDate < row.writeDate then
        { successor with writeDate := row.writeDate }
      else successor

def promoteSuccessor (now : ℤ) (observed : Option AttendanceRow) (row : RepairRow) :
    Option RepairRow :=
  row.successor.map fun successor => .opened (successor.observe observed) now

def RepairRow.completed (row : RepairRow) (now : ℤ) : RepairRow :=
  { row with
    status := .complete
    updatedAt := now
    lastError := none }

/-- The mirror holds the version and the work center of the claim. -/
def InMirror (claim : RepairClaim) (mirror : MirrorRow) : Prop :=
  mirror.writeDate = claim.expectedWriteDate ∧
    mirror.workCenterId = some claim.expectedWorkCenterId

instance (claim : RepairClaim) (mirror : MirrorRow) : Decidable (InMirror claim mirror) :=
  inferInstanceAs (Decidable (_ ∧ _))

/-- Renew the lease of an owned row just before the write to Odoo. -/
def renewClaim (live : Option MirrorRow) (claim : RepairClaim) (now : ℤ) (row : RepairRow) :
    Bool × RepairRow :=
  match promoteSuccessor now none row with
  | some promoted => (false, promoted)
  | none =>
      match live with
      | none => (false, row.completed now)
      | some mirror =>
          if InMirror claim mirror then (true, { row with updatedAt := now })
          else (false, row.completed now)

/-- The mirror holds nothing newer than the row that was read again, at its work center. -/
def VerifiedRowIsCurrent (claim : RepairClaim) (row : AttendanceRow) (known : Option MirrorRow) :
    Prop :=
  row.workCenterId = some claim.expectedWorkCenterId ∧
    ∀ mirror ∈ known, mirror.writeDate ≤ row.writeDate ∧
      (mirror.writeDate = row.writeDate → mirror.workCenterId = row.workCenterId)

instance (claim : RepairClaim) (row : AttendanceRow) (known : Option MirrorRow) :
    Decidable (VerifiedRowIsCurrent claim row known) :=
  inferInstanceAs (Decidable (_ ∧ ∀ mirror ∈ known, _))

/-- The repair of one attendance, and the mirror. -/
structure Tables where
  repair : Option RepairRow
  mirror : Mirror.Tables

def upsertVerified (calendar : PlantCalendar) (row : AttendanceRow) (now : ℤ)
    (mirror : Mirror.Tables) : Mirror.Tables :=
  (Mirror.upsertRows ⟨calendar, now, now, mirror.sync.baselineCompletedAt.isSome⟩ [row] mirror).1

variable (calendar : PlantCalendar) (attendanceId : ℤ)

/-- Ask again for a version that was observed meanwhile. -/
def refreshExpected (claim : RepairClaim) (row : AttendanceRow) (now : ℤ) (tables : Tables) :
    Bool × Tables :=
  match lockOwned claim tables.repair with
  | none => (false, tables)
  | some owned =>
      if VerifiedRowIsCurrent claim row (tables.mirror.mirror.get attendanceId) then
        let refreshed := { owned.intent with writeDate := row.writeDate }
        let intent :=
          match owned.successor with
          | none => refreshed
          | some successor =>
              if row.writeDate ≤ successor.writeDate ∨
                  row.workCenterId = some successor.workCenterId then
                successor.observe (some row)
              else refreshed
        (true, ⟨some (.opened intent now), upsertVerified calendar row now tables.mirror⟩)
      else (false, tables)

/-- Ask again for another department. -/
def refreshTarget (claim : RepairClaim) (targetDepartmentId now : ℤ) (tables : Tables) :
    Bool × Tables :=
  match lockOwned claim tables.repair with
  | none => (false, tables)
  | some owned =>
      let refreshed := RepairRow.opened
        { owned.intent with
          departmentId := targetDepartmentId
          projectedAt := max owned.intent.projectedAt now } now
      (true, { tables with
        repair := some ((promoteSuccessor now none owned).getD refreshed) })

def discard (claim : RepairClaim) (now : ℤ) (tables : Tables) : Bool × Tables :=
  match lockOwned claim tables.repair with
  | none => (false, tables)
  | some owned =>
      (true, { tables with
        repair := some ((promoteSuccessor now none owned).getD (owned.completed now)) })

def finishVerified (claim : RepairClaim) (row : AttendanceRow) (now : ℤ) (tables : Tables) :
    Bool × Tables :=
  match lockOwned claim tables.repair with
  | none => (false, tables)
  | some owned =>
      if VerifiedRowIsCurrent claim row (tables.mirror.mirror.get attendanceId) then
        let finished := { owned with
          intent := { owned.intent with writeDate := row.writeDate } }.completed now
        (true, ⟨some ((promoteSuccessor now (some row) owned).getD finished),
          upsertVerified calendar row now tables.mirror⟩)
      else (false, tables)

/-- The row after a failed attempt; the attempts are counted over the versions. -/
def RepairRow.retried (row : RepairRow) (claim : RepairClaim) (error : String)
    (currentRow : Option AttendanceRow) (now : ℤ) : RepairRow :=
  { row with
    intent := { row.intent with
      writeDate := (currentRow.map fun current => current.writeDate).getD row.intent.writeDate }
    status := if maxAttempts ≤ claim.attemptCount then .failed else .pending
    updatedAt := now
    lastError := some (errorText error) }

/-- Retry later or give up; `none` where the claim was superseded. -/
def retryOrFail (claim : RepairClaim) (error : String) (currentRow : Option AttendanceRow)
    (now : ℤ) (tables : Tables) : Option Bool × Tables :=
  match lockOwned claim tables.repair with
  | none => (none, tables)
  | some owned =>
      if ∀ row ∈ currentRow,
          VerifiedRowIsCurrent claim row (tables.mirror.mirror.get attendanceId) then
        let mirror :=
          match currentRow with
          | none => tables.mirror
          | some row => upsertVerified calendar row now tables.mirror
        match promoteSuccessor now currentRow owned with
        | some promoted => (none, ⟨some promoted, mirror⟩)
        | none =>
            (some (decide (maxAttempts ≤ claim.attemptCount)),
              ⟨some (owned.retried claim error currentRow now), mirror⟩)
      else (none, tables)

end PlantManager.Attendance.Repair

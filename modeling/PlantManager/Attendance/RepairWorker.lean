import PlantManager.Attendance.DepartmentRepair

/-! # Workers on the repairs of departments

A session is what a worker does with one claim, from `claim_next` to the end of `process_next`.
Every transaction is one step, and so is every call to Odoo; what Odoo answers is arbitrary.
A worker can crash at any point. Claims are numbered in the order they were issued.
-/

namespace PlantManager.Attendance.Repair

open Checks Mapping
open Projection (PlantCalendar)
open Mirror (AttendanceRow MirrorRow)

def failureText : Projection.Failure → String
  | .typeError message => message
  | .valueError message => message
  | .keyError day => toString day
  | .runtimeError message => message

/-- Read the attendance in Odoo. -/
def readOne (attendanceId : ℤ) :
    Except String (List AttendanceRow) → Except String (Option AttendanceRow)
  | .error error => .error error
  | .ok [] => .ok none
  | .ok [raw] =>
      match Mirror.normalizeRow raw with
      | .error failure => .error (failureText failure)
      | .ok row =>
          if row.attendanceId = attendanceId then .ok (some row)
          else .error "Odoo attendance reread returned unrelated identity"
  | .ok (_ :: _ :: _) => .error "Odoo attendance reread returned duplicate identity"

/-- What the transaction of a renewal read, and how many claims were issued by then. -/
structure Renewal where
  repair : Option RepairRow
  live : Option MirrorRow
  issued : ℕ

/-- What a session does next. -/
inductive Task where
  | read
  | resolve (current : AttendanceRow)
  | reserve
  | write (renewal : Renewal)
  | reread (writeError : Option String)
  | refreshExpected (row : AttendanceRow)
  | refreshTarget (targetDepartmentId : ℤ)
  | discard
  | finish (row : AttendanceRow)
  | fail (error : String) (currentRow : Option AttendanceRow)

/-! ## The decisions of a session -/

def afterClaim (claim : RepairClaim) : Task :=
  if claim.mirrorWriteDate = some claim.expectedWriteDate then .read else .discard

def afterRead (claim : RepairClaim) : Except String (Option AttendanceRow) → Task
  | .error error => .fail error none
  | .ok none => .fail "Odoo attendance row is missing" none
  | .ok (some current) =>
      if current.workCenterId = some claim.expectedWorkCenterId then .resolve current else .discard

def afterTarget (claim : RepairClaim) (current : AttendanceRow) (freshTarget : ℤ) : Task :=
  if freshTarget ≠ claim.targetDepartmentId then .refreshTarget freshTarget
  else if current.departmentId = some claim.targetDepartmentId then .finish current
  else if maxAttempts < claim.attemptCount then
    .fail "Odoo department repair exceeded its maximum attempts" (some current)
  else if current.writeDate ≠ claim.expectedWriteDate then
    if maxAttempts ≤ claim.attemptCount then
      .fail "Odoo attendance source version kept changing during department repair" (some current)
    else .refreshExpected current
  else .reserve

def afterResolve (claim : RepairClaim) (current : AttendanceRow) :
    Except String (Option ℤ) → Task
  | .error error => .fail error none
  | .ok none => .fail "Odoo target department is unavailable" none
  | .ok (some target) =>
      match Projection.positiveInt target "target_department_id" with
      | .error failure => .fail (failureText failure) none
      | .ok freshTarget => afterTarget claim current freshTarget

def afterReread (claim : RepairClaim) : Option String → Except String (Option AttendanceRow) → Task
  | none, .error error => .fail error none
  | none, .ok none => .fail "Odoo attendance row disappeared after department repair" none
  | none, .ok (some verified) =>
      if verified.workCenterId ≠ some claim.expectedWorkCenterId then .discard
      else if verified.departmentId ≠ some claim.targetDepartmentId then
        .fail "Odoo department repair verification failed" (some verified)
      else .finish verified
  | some writeError, .error readError =>
      .fail s!"{errorText writeError}; reread failed: {errorText readError}" none
  | some writeError, .ok none => .fail writeError none
  | some writeError, .ok (some afterError) =>
      if afterError.workCenterId ≠ some claim.expectedWorkCenterId then .discard
      else if afterError.departmentId = some claim.targetDepartmentId then .finish afterError
      else .fail writeError (some afterError)

/-! ## Runs -/

structure Session where
  claim : RepairClaim
  serial : ℕ
  startedAt : ℤ
  task : Task

/-- The tables, the sessions of the workers, and how many claims were issued. -/
structure State (W : Type) where
  tables : Tables
  sessions : W → Option Session
  issued : ℕ

inductive Action (W : Type) where
  | enqueue (candidate : Intent) (now : ℤ)
  | reconcile (proof : RepairProjectionProof) (candidate : Bool) (now : ℤ)
  | store (batch : Mirror.Batch)
  | claim (worker : W) (now : ℤ)
  /-- A worker claims the row of another attendance. -/
  | expire (now : ℤ)
  | read (worker : W) (answer : Except String (List AttendanceRow))
  | resolve (worker : W) (answer : Except String (Option ℤ))
  | reserve (worker : W) (now : ℤ)
  | write (worker : W) (error : Option String)
  | settle (worker : W)
  | crash (worker : W)

variable {W : Type} [DecidableEq W]

def Tables.live (attendanceId : ℤ) (tables : Tables) : Option MirrorRow :=
  liveRow attendanceId tables.mirror.mirror

def State.become (state : State W) (worker : W) (session : Option Session) : State W :=
  { state with sessions := Function.update state.sessions worker session }

/-- The tables after the last transaction of a session. -/
def settled (calendar : PlantCalendar) (attendanceId : ℤ) (session : Session) (tables : Tables) :
    Option Tables :=
  match session.task with
  | .refreshExpected row =>
      some (refreshExpected calendar attendanceId session.claim row session.startedAt tables).2
  | .refreshTarget target => some (refreshTarget session.claim target session.startedAt tables).2
  | .discard => some (discard session.claim session.startedAt tables).2
  | .finish row =>
      some (finishVerified calendar attendanceId session.claim row session.startedAt tables).2
  | .fail error currentRow =>
      some (retryOrFail calendar attendanceId session.claim error currentRow session.startedAt
        tables).2
  | .read => none
  | .resolve _ => none
  | .reserve => none
  | .write _ => none
  | .reread _ => none

/-- Renew the claim in one transaction; the session goes on only if it was renewed. -/
def reserveForWrite (attendanceId : ℤ) (session : Session) (issued : ℕ) (now : ℤ)
    (tables : Tables) : Option Session × Tables :=
  match lockOwned session.claim tables.repair with
  | none => (none, tables)
  | some owned =>
      let live := tables.live attendanceId
      let renewed := renewClaim live session.claim now owned
      (if renewed.1 then some { session with task := .write ⟨tables.repair, live, issued⟩ }
        else none,
        { tables with repair := some renewed.2 })

/-- Take an action, if it can be taken. -/
def step (calendar : PlantCalendar) (attendanceId : ℤ) (state : State W) :
    Action W → Option (State W)
  | .enqueue candidate now =>
      let queued := enqueueCur (state.tables.live attendanceId) candidate now state.tables.repair
      some { state with tables := { state.tables with repair := some queued.2 } }
  | .reconcile proof candidate now =>
      if Covered proof candidate then
        (reconcileRow (state.tables.live attendanceId) proof candidate now
          state.tables.repair).toOption.map fun repair =>
            { state with tables := { state.tables with repair := repair } }
      else none
  | .store batch =>
      (batch.store calendar state.tables.mirror).toOption.map fun stored =>
        { state with tables := { state.tables with mirror := stored.1 } }
  | .claim worker now =>
      match state.sessions worker, state.tables.repair with
      | none, some repair =>
          (claimNext (state.tables.live attendanceId) now repair).map fun (claim, row) =>
            { tables := { state.tables with repair := some row }
              sessions := Function.update state.sessions worker
                (some ⟨claim, state.issued + 1, now, afterClaim claim⟩)
              issued := state.issued + 1 }
      | _, _ => none
  | .expire now =>
      some { state with
        tables := { state.tables with repair := state.tables.repair.map (expire now) } }
  | .read worker answer =>
      match state.sessions worker with
      | some ⟨claim, serial, startedAt, .read⟩ =>
          some (state.become worker
            (some ⟨claim, serial, startedAt, afterRead claim (readOne attendanceId answer)⟩))
      | some ⟨claim, serial, startedAt, .reread writeError⟩ =>
          some (state.become worker (some ⟨claim, serial, startedAt,
            afterReread claim writeError (readOne attendanceId answer)⟩))
      | _ => none
  | .resolve worker answer =>
      match state.sessions worker with
      | some ⟨claim, serial, startedAt, .resolve current⟩ =>
          some (state.become worker
            (some ⟨claim, serial, startedAt, afterResolve claim current answer⟩))
      | _ => none
  | .reserve worker now =>
      match state.sessions worker with
      | some ⟨claim, serial, startedAt, .reserve⟩ =>
          let reserved := reserveForWrite attendanceId ⟨claim, serial, startedAt, .reserve⟩
            state.issued now state.tables
          some { state.become worker reserved.1 with tables := reserved.2 }
      | _ => none
  | .write worker error =>
      match state.sessions worker with
      | some ⟨claim, serial, startedAt, .write _⟩ =>
          some (state.become worker (some ⟨claim, serial, startedAt, .reread error⟩))
      | _ => none
  | .settle worker =>
      match state.sessions worker with
      | some session =>
          (settled calendar attendanceId session state.tables).map fun tables =>
            { state.become worker none with tables := tables }
      | none => none
  | .crash worker => some (state.become worker none)

end PlantManager.Attendance.Repair

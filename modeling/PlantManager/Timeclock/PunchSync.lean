import Mathlib

/-! # Punches on their way to Odoo

A punch is logged here and written to the attendance rows in Odoo, at once or by a later retry.
The log and the rows are those of one person. A call to Odoo that fails has no effect there. The
fields of the rows are configured; which work center and department in Odoo a name stands for is a
parameter. Instants are microseconds, and are the rounded ones.
-/

namespace PlantManager.Timeclock.PunchSync

inductive PunchAction where
  | clockIn
  | clockOut
  | transferIn
  | transferOut
deriving DecidableEq

structure Punch where
  id : ℕ
  action : PunchAction
  wcName : Option String
  odooDepartmentId : Option ℕ
  closeAllOpenRows : Bool
  occurredAt : ℤ
deriving DecidableEq

/-- The punch begins a stay. -/
def Punch.isIn (punch : Punch) : Bool :=
  punch.action = .clockIn ∨ punch.action = .transferIn

/-- What an attendance row says. -/
structure Shift where
  checkIn : ℤ
  checkOut : Option ℤ
  workCenterId : Option ℕ
  departmentId : Option ℕ
deriving DecidableEq

structure Attendance where
  id : ℕ
  shift : Shift
deriving DecidableEq

/-- What the names of work centers stand for in Odoo. -/
structure Mapping where
  workCenterId : String → Option ℕ
  departmentId : String → Option ℕ

/-- The attendance rows of the person, and the next identifier. -/
structure Odoo where
  rows : List Attendance
  nextId : ℕ

/-! ## Calls to Odoo -/

def Attendance.Later (row held : Attendance) : Prop :=
  held.shift.checkIn < row.shift.checkIn ∨
    held.shift.checkIn = row.shift.checkIn ∧ held.id < row.id

instance (row held : Attendance) : Decidable (row.Later held) :=
  inferInstanceAs (Decidable (_ ∨ _))

/-- The most recent open row. -/
def getCurrentAttendance (odoo : Odoo) : Option Attendance :=
  (odoo.rows.filter fun row => row.shift.checkOut = none).foldl
    (fun best row => match best with
      | none => some row
      | some held => if row.Later held then some row else some held) none

def Odoo.write (odoo : Odoo) (id : ℕ) (change : Shift → Shift) : Odoo :=
  { odoo with
    rows := odoo.rows.map fun row =>
      if row.id = id then { row with shift := change row.shift } else row }

/-- Label a row; a name without a work center in Odoo changes nothing. -/
def Shift.setWc (mapping : Mapping) (wcName : String) (shift : Shift) : Shift :=
  match mapping.workCenterId wcName with
  | none => shift
  | some workCenterId =>
      { shift with
        workCenterId := some workCenterId
        departmentId := (mapping.departmentId wcName).orElse fun _ => shift.departmentId }

def setAttendanceWc (mapping : Mapping) (id : ℕ) (wcName : String) (odoo : Odoo) : Odoo :=
  odoo.write id (Shift.setWc mapping wcName)

def setAttendanceDepartmentId (id departmentId : ℕ) (odoo : Odoo) : Odoo :=
  odoo.write id fun shift => { shift with departmentId := some departmentId }

def attendanceCreatePayload (mapping : Mapping) (wcName : Option String) (checkIn : ℤ)
    (odooDepartmentId : Option ℕ) : Shift where
  checkIn := checkIn
  checkOut := none
  workCenterId := wcName.bind mapping.workCenterId
  departmentId := odooDepartmentId.orElse fun _ => wcName.bind mapping.departmentId

def clockIn (mapping : Mapping) (wcName : Option String) (checkIn : ℤ)
    (odooDepartmentId : Option ℕ) (odoo : Odoo) : ℕ × Odoo :=
  (odoo.nextId,
    { rows := odoo.rows ++
        [⟨odoo.nextId, attendanceCreatePayload mapping wcName checkIn odooDepartmentId⟩]
      nextId := odoo.nextId + 1 })

def Shift.close (checkOut : ℤ) (shift : Shift) : Shift := { shift with checkOut := some checkOut }

def clockOut (id : ℕ) (checkOut : ℤ) (odoo : Odoo) : Odoo := odoo.write id (Shift.close checkOut)

/-- Close every open row; the rows that end then are returned. -/
def closeAllOpenAttendanceRows (checkOut : ℤ) (odoo : Odoo) : List ℕ × Odoo :=
  let closed := odoo.rows.map fun row =>
    if row.shift.checkOut = none then { row with shift := row.shift.close checkOut } else row
  ((closed.filter fun row => row.shift.checkOut = some checkOut).map Attendance.id,
    { odoo with rows := closed })

/-! ## Syncing a punch -/

/-- Label a row that is open already with what the punch carries. -/
def adoptRow (mapping : Mapping) (punch : Punch) (id : ℕ) (odoo : Odoo) : Odoo :=
  let labelled := match punch.wcName with
    | some wcName => setAttendanceWc mapping id wcName odoo
    | none => odoo
  match punch.odooDepartmentId with
  | some departmentId => setAttendanceDepartmentId id departmentId labelled
  | none => labelled

/-- Write one punch to the row that is open now; the result names the row it is marked with. -/
def retryOne (mapping : Mapping) (punch : Punch) (odoo : Odoo) : Option ℕ × Odoo :=
  match punch.action with
  | .clockIn | .transferIn =>
      match getCurrentAttendance odoo with
      | some existing =>
          -- Adopt the open row instead of creating a second one.
          (some existing.id, adoptRow mapping punch existing.id odoo)
      | none =>
          let (id, created) :=
            clockIn mapping punch.wcName punch.occurredAt punch.odooDepartmentId odoo
          (some id, created)
  | .clockOut =>
      if punch.closeAllOpenRows then
        let (closed, changed) := closeAllOpenAttendanceRows punch.occurredAt odoo
        (closed.getLast?, changed)
      else match getCurrentAttendance odoo with
        | some current => (some current.id, clockOut current.id punch.occurredAt odoo)
        | none => (none, odoo)
  | .transferOut =>
      match getCurrentAttendance odoo with
      | some current => (some current.id, clockOut current.id punch.occurredAt odoo)
      | none => (none, odoo)

/-- A row of the punch log. -/
structure Entry where
  punch : Punch
  synced : Bool
  odooAttendanceId : Option ℕ

structure State where
  log : List Entry
  odoo : Odoo

def markSynced (id : ℕ) (odooAttendanceId : Option ℕ) (log : List Entry) : List Entry :=
  log.map fun entry =>
    if entry.punch.id = id then
      { entry with synced := true, odooAttendanceId := odooAttendanceId }
    else entry

def State.retryOne (mapping : Mapping) (state : State) (punch : Punch) : State :=
  let (odooAttendanceId, odoo) := PunchSync.retryOne mapping punch state.odoo
  ⟨markSynced punch.id odooAttendanceId state.log, odoo⟩

/-- Sync one logged punch at once; a call that fails leaves it for the retry. -/
def syncOneById (mapping : Mapping) (id : ℕ) (ok : Bool) (state : State) : State :=
  match state.log.find? fun entry => entry.punch.id = id with
  | none => state
  | some entry => if ok then state.retryOne mapping entry.punch else state

def batchSize : ℕ := 50

def Punch.Before (first second : Punch) : Prop :=
  first.occurredAt < second.occurredAt ∨
    first.occurredAt = second.occurredAt ∧ first.id ≤ second.id

instance (first second : Punch) : Decidable (first.Before second) :=
  inferInstanceAs (Decidable (_ ∨ _))

def unsynced (log : List Entry) : List Punch :=
  (log.filter fun entry => entry.synced = false).map Entry.punch

/-- Retry a batch of punches that are not synced, in their order, and every call succeeds. -/
def retryUnsyncedPunches (mapping : Mapping) (state : State) : State :=
  (((unsynced state.log).insertionSort Punch.Before).take batchSize).foldl
    (State.retryOne mapping) state

/-- Log a punch, not synced yet. -/
def State.insert (state : State) (punch : Punch) : State :=
  { state with log := state.log ++ [⟨punch, false, none⟩] }

/-- Log the punches in order, each with its immediate call. -/
def punchAll (mapping : Mapping) : List (Punch × Bool) → State → State
  | [], state => state
  | (punch, ok) :: rest, state =>
      punchAll mapping rest (syncOneById mapping punch.id ok (state.insert punch))

/-- Retries until the queue is drained. -/
def drain (mapping : Mapping) : ℕ → State → State
  | 0, state => state
  | retries + 1, state => drain mapping retries (retryUnsyncedPunches mapping state)

/-- Sync every punch once in the order of the log. -/
def syncInOrder (mapping : Mapping) (log : List Punch) (odoo : Odoo) : Odoo :=
  log.foldl (fun odoo punch => (retryOne mapping punch odoo).2) odoo

end PlantManager.Timeclock.PunchSync

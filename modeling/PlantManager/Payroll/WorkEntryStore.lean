import PlantManager.Attendance.TimelineRange
import PlantManager.Payroll.WorkEntryRules
import PlantManager.Transition.Job

/-! # Odoo and the tables of the payroll guard

The world of the guard is the work entries and attendances of Odoo, the two tables of the guard,
and what happened so far. A call to Odoo and a transaction on the tables are services; a run asks
for them one at a time, and each of them can fail or be the last thing the run does
(`Transition.Job.call`). Other users edit Odoo between the runs.
-/

namespace PlantManager.Payroll

open Checks Transition

/-- The search results of Odoo list rows in the order they stand here. -/
structure Odoo (H : Type) where
  entries : List (WorkRow H)
  attendances : List (AttendanceRow H)
  deriving DecidableEq

/-- What an attempt was saved to do. Its id is drawn once. -/
structure Intent (H : Type) where
  attemptId : ℕ
  decision : Decision H
  deriving DecidableEq

/-- A row of `payroll_work_entry_correction_attempts`. -/
structure CorrectionAttempt (H : Type) extends Intent H where
  lastReason : String
  lastDetail : String
  createdAt : ℤ
  updatedAt : ℤ
  deriving DecidableEq

/-- A row of `payroll_work_entry_corrections`. -/
structure Correction (H : Type) extends Intent H where
  verificationDetail : String
  correctedAt : ℤ
  deriving DecidableEq

inductive Event (H : Type) where
  /-- A run got the lock of the guard. -/
  | began
  | fetched (workRows : List (WorkRow H)) (attendanceRows : List (AttendanceRow H))
  | saved (intent : Intent H)
  /-- A run read the entry of an attempt. -/
  | read (intent : Intent H) (row : Option (WorkRow H))
  /-- The change of an attempt was sent; the row is the one in Odoo then. -/
  | sent (intent : Intent H) (row : Option (WorkRow H))
  | tookEffect (intent : Intent H)
  | finalizing (intent : Intent H)
  | finalized (intent : Intent H)
  /-- A call raised, or the run was cut off there. -/
  | failed
  | edited (before after : Odoo H)
  deriving DecidableEq

/-- The newest event of the history is its first. -/
structure World (H : Type) where
  odoo : Odoo H
  attempts : List (CorrectionAttempt H)
  corrections : List (Correction H)
  ids : ℕ
  script : List Job.Verdict
  history : List (Event H)

variable {H : Type}

def World.note (world : World H) (event : Event H) : World H :=
  { world with history := event :: world.history }

/-- The verdicts of the script come first; later calls answer. -/
def channel : Job.Channel (World H) where
  take world := (world.script.headD .answers, { world with script := world.script.tail })
  failed world := world.note .failed

def call {α : Type} (service : World H → Except String (α × World H)) : Job (World H) α :=
  Job.call channel service

def note (event : Event H) : Job (World H) Unit := Job.modify fun world => world.note event

/-! ## The facade of Odoo -/

def Odoo.find (odoo : Odoo H) (entryId : ℤ) : Option (WorkRow H) :=
  odoo.entries.find? fun row => row.id = entryId

/-- The row of an entry that may be unnamed. -/
def Odoo.entry (odoo : Odoo H) (entryId : Option ℤ) : Option (WorkRow H) := entryId.bind odoo.find

def fetchRecentPayrollCandidates (writtenSince : ℤ) : Job (World H) (List (WorkRow H)) :=
  call fun world =>
    .ok (world.odoo.entries.filter fun row => row.active && row.attendanceId.isSome &&
      row.typeCode = "WORK100" && writtenSince ≤ row.writeDate, world)

def fetchPayrollInputs (employeeIds : List ℤ) (startDay endDay : ℤ) :
    Job (World H) (List (WorkRow H) × List (AttendanceRow H)) := do
  let inputs ← call fun world =>
    .ok ((world.odoo.entries.filter fun row =>
        row.active && row.employeeId ∈ employeeIds && startDay ≤ row.date && row.date ≤ endDay,
      world.odoo.attendances.filter fun row =>
        row.employeeId ∈ employeeIds && startDay ≤ row.date && row.date ≤ endDay), world)
  note (.fetched inputs.1 inputs.2)
  return inputs

/-- Read the entry of an attempt. -/
def fetchPayrollWorkEntry (intent : Intent H) : Job (World H) (Option (WorkRow H)) := do
  let row ← call fun world =>
    match intent.decision.workEntryId with
    | none => .error "int() argument must be a number"
    | some entryId => .ok (world.odoo.find entryId, world)
  note (.read intent row)
  return row

def Odoo.setDuration (odoo : Odoo H) (entryId : ℤ) (duration : H) (now : ℤ) : Odoo H :=
  { odoo with
    entries := odoo.entries.map fun row =>
      if row.id = entryId then { row with duration, writeDate := now } else row }

def Odoo.delete (odoo : Odoo H) (entryId : ℤ) : Odoo H :=
  { odoo with entries := odoo.entries.filter fun row => row.id ≠ entryId }

/-- Record that the change of an attempt is sent, and ask for it. -/
def mutate (intent : Intent H) (change : World H → Except String (Odoo H)) :
    Job (World H) Unit := do
  Job.modify fun world =>
    world.note (.sent intent (world.odoo.entry intent.decision.workEntryId))
  call fun world =>
    (change world).map fun odoo => ((), { world with odoo }.note (.tookEffect intent))

variable [Hours H]

def setDurationChange (intent : Intent H) (now : ℤ) (world : World H) : Except String (Odoo H) :=
  match intent.decision.workEntryId, intent.decision.afterDuration with
  | some entryId, some duration =>
      if !Hours.isFinite duration || Hours.le duration 0 then
        .error "Odoo Work Entry duration must be positive"
      else .ok (world.odoo.setDuration entryId duration now)
  | _, _ => .error "float() argument must be a number"

def setPayrollWorkEntryDuration (intent : Intent H) (now : ℤ) : Job (World H) Unit :=
  mutate intent (setDurationChange intent now)

def deleteChange (intent : Intent H) (world : World H) : Except String (Odoo H) :=
  match intent.decision.workEntryId with
  | some entryId => .ok (world.odoo.delete entryId)
  | none => .error "int() argument must be a number"

def deletePayrollWorkEntry (intent : Intent H) : Job (World H) Unit :=
  mutate intent (deleteChange intent)

/-! ## The tables -/

def isBlank (text : String) : Prop := Attendance.Projection.strip text.toList = []

instance (text : String) : Decidable (isBlank text) := inferInstanceAs (Decidable (_ = _))

def validateAction : Option CorrectionAction → H → Except String Unit
  | some .deleteZeroRegular, afterDuration =>
      raiseIf (nonzero afterDuration) "delete correction after duration must be exactly 0.0"
  | some .durationUpdate, afterDuration =>
      raiseIf (Hours.le afterDuration 0) "duration update after duration must be greater than 0.0"
  | none, _ => .error "correction action is required"

def validateDecision (decision : Decision H) (requireAttendance : Bool) : Except String Unit := do
  raiseIf (decision.kind ≠ .correct) "decision must be a correction"
  raiseIf (decision.reasonCodes ≠ []) "correction decision must not contain review reasons"
  raiseIf (decision.employeeId ≤ 0) "employee id is required"
  raiseIf (isBlank decision.employeeName) "employee name is required"
  raiseIf (∀ entryId ∈ decision.workEntryId, entryId ≤ 0) "Work Entry id is required"
  raiseIf (requireAttendance ∧ ∀ attendanceId ∈ decision.attendanceId, attendanceId ≤ 0)
    "Attendance id is required"
  raiseIf (decision.action = none) "correction action is required"
  match decision.afterDuration with
  | none => .error "after duration is required"
  | some afterDuration => do
      raiseIf (¬ [decision.beforeDuration, afterDuration, decision.attendanceRegular,
          decision.attendanceOvertime, decision.workRegular, decision.workOvertime].all
            Hours.isFinite) "all correction totals must be finite"
      validateAction decision.action afterDuration

def attemptFromRow (row : CorrectionAttempt H) : Except String (CorrectionAttempt H) := do
  raiseIf (isBlank row.lastReason) "attempt reason must not be blank"
  raiseIf (isBlank row.lastDetail) "attempt detail must not be blank"
  validateDecision row.decision true
  return row

def newAttempt (attemptId : ℕ) (decision : Decision H) (now : ℤ) : CorrectionAttempt H :=
  { attemptId, decision
    lastReason := "pending_correction"
    lastDetail := "correction intent saved"
    createdAt := now
    updatedAt := now }

/-- The insert of an attempt: nothing is done for a known id, and the table has one row for each
work entry. -/
def insertAttempt (attempt : CorrectionAttempt H) (attempts : List (CorrectionAttempt H)) :
    Except String (List (CorrectionAttempt H)) :=
  if attempts.any fun row => row.attemptId = attempt.attemptId then .ok attempts
  else if attempts.any fun row => row.decision.workEntryId = attempt.decision.workEntryId then
    .error "duplicate key value violates unique constraint"
  else .ok (attempts ++ [attempt])

def findAttempt (attemptId : ℕ) (attempts : List (CorrectionAttempt H)) :
    Option (CorrectionAttempt H) :=
  attempts.find? fun row => row.attemptId = attemptId

/-- An id that was never drawn before. -/
def uuid4 : Job (World H) ℕ := fun world =>
  (.returned world.ids, { world with ids := world.ids + 1 })

def createTransaction [DecidableEq H] (attemptId : ℕ) (decision : Decision H) (now : ℤ)
    (world : World H) : Except String (CorrectionAttempt H × World H) := do
  validateDecision decision true
  let attempts ← insertAttempt (newAttempt attemptId decision now) world.attempts
  match findAttempt attemptId attempts with
  | none => .error "correction attempt was not durably persisted"
  | some row => do
      let attempt ← attemptFromRow row
      raiseIf (attempt.decision ≠ decision) "correction attempt snapshot mismatch"
      return (attempt, { world with attempts }.note (.saved attempt.toIntent))

def createAttempt [DecidableEq H] (attemptId : ℕ) (decision : Decision H) (now : ℤ) :
    Job (World H) (CorrectionAttempt H) := call (createTransaction attemptId decision now)

def loadTransaction (world : World H) : Except String (List (CorrectionAttempt H) × World H) := do
  let attempts ← (Ranking.sortBy (fun row => toLex (row.createdAt, row.attemptId))
    world.attempts).mapM attemptFromRow
  return (attempts, world)

def loadPendingAttempts : Job (World H) (List (CorrectionAttempt H)) := call loadTransaction

def markTransaction (attemptId : ℕ) (reason detail : String) (updatedAt : ℤ) (world : World H) :
    Except String (Unit × World H) := do
  raiseIf (isBlank reason) "attempt reason must not be blank"
  raiseIf (isBlank detail) "attempt detail must not be blank"
  return ((), { world with
    attempts := world.attempts.map fun row =>
      if row.attemptId = attemptId then
        { row with lastReason := reason, lastDetail := detail, updatedAt }
      else row })

def markAttemptIssue (attemptId : ℕ) (reason detail : String) (updatedAt : ℤ) :
    Job (World H) Unit := call (markTransaction attemptId reason detail updatedAt)

/-- Append the audit row of an attempt, unless it has one, and remove its row. -/
def finalizeTransaction (attemptId : ℕ) (verificationDetail : String) (correctedAt : ℤ)
    (world : World H) : Except String (Bool × World H) := do
  raiseIf (isBlank verificationDetail) "verification detail must not be blank"
  match findAttempt attemptId world.attempts with
  | none => return (false, world)
  | some row => do
      let attempt ← attemptFromRow row
      let correction : Correction H :=
        { toIntent := attempt.toIntent, verificationDetail, correctedAt }
      let corrections :=
        if world.corrections.any fun row => row.attemptId = attemptId then world.corrections
        else world.corrections ++ [correction]
      return (true, { world with
        corrections
        attempts := world.attempts.filter fun row => row.attemptId ≠ attemptId }.note
          (.finalized attempt.toIntent))

def finalizeAttempt (intent : Intent H) (verificationDetail : String) (correctedAt : ℤ) :
    Job (World H) Bool := do
  note (.finalizing intent)
  call (finalizeTransaction intent.attemptId verificationDetail correctedAt)

end PlantManager.Payroll

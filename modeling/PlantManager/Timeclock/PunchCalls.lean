import PlantManager.Timeclock.PunchOrder
import PlantManager.Transition.Runs

/-! # Calls and sweeps side by side

Each logged punch is synced by a call of its own, and sweeps sync all punches that are not synced
when they begin. A call and a sweep go through their punches one by one: they look which row is
open, make their calls to Odoo and mark the punch (`Timeclock.PunchSync.step`). Nothing
keeps two of them apart, and every look, call and mark is one step.
-/

namespace PlantManager.Timeclock.PunchSync

open Transition

/-- A call to Odoo, or a check of what Odoo has. -/
inductive OdooCall where
  | setWc (id : ℕ) (wcName : String)
  | setDepartment (id departmentId : ℕ)
  | create
  | close (id : ℕ)
  /-- Each of the rows ends at the punch. -/
  | verify (ids : List ℕ)
  /-- No row is open. -/
  | remaining
deriving DecidableEq

/-- What is left to do about a punch, and the row that it is marked with. -/
structure Plan where
  calls : List OdooCall
  attendanceId : Option ℕ
deriving DecidableEq

/-- What is to be done about a punch, by the row that is open now. -/
def plan (punch : Punch) (odoo : Odoo) : Plan :=
  match punch.isIn, getCurrentAttendance odoo with
  | true, some existing =>
      ⟨punch.wcName.toList.map (.setWc existing.id) ++
        punch.odooDepartmentId.toList.map (.setDepartment existing.id), some existing.id⟩
  | true, none => ⟨[.create], none⟩
  | false, current =>
      if punch.action = .clockOut ∧ punch.closeAllOpenRows then
        let ids := (odoo.rows.filter fun row => row.shift.checkOut = none).map Attendance.id
        ⟨ids.map .close ++ [.verify ids, .remaining], none⟩
      else
        match current with
        | some current => ⟨[.close current.id], some current.id⟩
        | none => ⟨[], none⟩

inductive SyncEvent where
  /-- A row was created for a punch. -/
  | created (punchId row : ℕ)
  /-- A row was closed by a punch. -/
  | closed (punchId row : ℕ)
deriving DecidableEq

/-- One call to Odoo, unless it raises: the rows, the row to mark the punch with, and the event. -/
def perform (mapping : Mapping) (punch : Punch) (odoo : Odoo) (attendanceId : Option ℕ) :
    OdooCall → Option (Odoo × Option ℕ × Option SyncEvent)
  | .setWc id wcName => some (setAttendanceWc mapping id wcName odoo, attendanceId, none)
  | .setDepartment id departmentId =>
      some (setAttendanceDepartmentId id departmentId odoo, attendanceId, none)
  | .create =>
      let (id, created) :=
        clockIn mapping punch.wcName punch.occurredAt punch.odooDepartmentId odoo
      some (created, some id, some (.created punch.id id))
  | .close id => some (clockOut id punch.occurredAt odoo, attendanceId, some (.closed punch.id id))
  | .verify ids =>
      let verified :=
        (odoo.rows.filter fun row => row.shift.checkOut = some punch.occurredAt).map Attendance.id
      if ∀ id ∈ ids, id ∈ verified then
        some (odoo, (verified.insertionSort (· ≤ ·)).getLast?, none)
      else none
  | .remaining =>
      if ∃ row ∈ odoo.rows, row.shift.checkOut = none then none else some (odoo, attendanceId, none)

/-- A call or a sweep: the punches that it has before it, and where it is with the first. -/
structure Run where
  queue : List Punch
  acting : Option Plan
deriving DecidableEq

/-- The newest event of the history is its first. -/
structure World where
  log : List Entry
  odoo : Odoo
  runs : ℕ → Option Run
  /-- The punches whose own call began. -/
  called : List ℕ
  history : List SyncEvent

def World.initial (odoo : Odoo) : World :=
  { log := [], odoo, runs := fun _ => none, called := [], history := [] }

def World.setRun (world : World) (run : ℕ) (state : Option Run) : World :=
  { world with runs := Function.update world.runs run state }

/-- The next step of a run. -/
def World.advance (mapping : Mapping) (world : World) (run : ℕ) : Run → World
  | ⟨[], _⟩ => world.setRun run none
  | ⟨punch :: rest, none⟩ => world.setRun run (some ⟨punch :: rest, some (plan punch world.odoo)⟩)
  | ⟨punch :: rest, some ⟨[], attendanceId⟩⟩ =>
      { world with log := markSynced punch.id attendanceId world.log }.setRun run
        (some ⟨rest, none⟩)
  | ⟨punch :: rest, some ⟨call :: calls, attendanceId⟩⟩ =>
      match perform mapping punch world.odoo attendanceId call with
      | none => world.setRun run (some ⟨rest, none⟩)
      | some (odoo, attendanceId, event) =>
          { world with odoo, history := event.toList ++ world.history }.setRun run
            (some ⟨punch :: rest, some ⟨calls, attendanceId⟩⟩)

/-- The punches of a sweep. -/
def batch (log : List Entry) : List Punch :=
  ((unsynced log).insertionSort Punch.Before).take batchSize

inductive SyncAction where
  /-- A punch is logged; the punches of the person take turns. -/
  | insert (punch : Punch)
  | call (run punchId : ℕ)
  | sweep (run : ℕ)
  | advance (run : ℕ)

def step (mapping : Mapping) (world : World) : SyncAction → Option World
  | .insert punch =>
      if punch.id ∉ world.log.map (·.punch.id) ∧
          Alternating (world.log.map Entry.punch ++ [punch]) then
        some { world with log := world.log ++ [⟨punch, false, none⟩] }
      else none
  | .call run punchId =>
      match world.log.find? fun entry => entry.punch.id = punchId with
      | none => none
      | some entry =>
          if world.runs run = none ∧ punchId ∉ world.called then
            some ({ world with called := punchId :: world.called }.setRun run
              (some ⟨[entry.punch], none⟩))
          else none
  | .sweep run =>
      if world.runs run = none then some (world.setRun run (some ⟨batch world.log, none⟩))
      else none
  | .advance run => (world.runs run).map (world.advance mapping run)

end PlantManager.Timeclock.PunchSync

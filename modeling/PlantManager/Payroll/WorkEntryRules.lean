import Mathlib

/-! # The payroll rules of one employee-day

`Payroll.classifyDay` compares the work entries that payroll has for a day with the
attendances of that day. Hours are the floats of the source: `Payroll.Hours` lists
the operations that it uses and the one law that this development needs.
-/

namespace PlantManager.Payroll

/-- The hours that payroll computes with. -/
class Hours (H : Type) extends Zero H, Add H, Sub H where
  abs : H → H
  lt : H → H → Bool
  le : H → H → Bool
  isFinite : H → Bool
  /-- `math.isclose` with both tolerances at `1e-12`. -/
  isClose : H → H → Bool
  /-- One minute. -/
  tolerance : H
  expectedExcess : H
  /-- A finite number is within one minute of itself. -/
  le_self : ∀ value, isFinite value = true → le (abs (value - value)) tolerance = true

/-- Exact hours. -/
scoped instance : Hours ℚ where
  abs value := |value|
  lt first second := decide (first < second)
  le first second := decide (first ≤ second)
  isFinite _ := true
  isClose first second :=
    decide (|first - second| ≤ max (max |first| |second| / 10 ^ 12) (1 / 10 ^ 12))
  tolerance := 1 / 60
  expectedExcess := 1 / 2
  le_self value _ := by
    rw [sub_self, abs_zero]
    exact decide_eq_true (by norm_num)

/-! ## Rows -/

/-- A work entry as the facade normalizes it. -/
structure WorkRow (H : Type) where
  id : ℤ
  employeeId : ℤ
  employeeName : String
  date : ℤ
  duration : H
  state : String
  conflict : Bool
  active : Bool
  numericDataValid : Bool
  typeCode : String
  attendanceId : Option ℤ
  writeDate : ℤ
  deriving DecidableEq

/-- An attendance as the facade normalizes it. -/
structure AttendanceRow (H : Type) where
  id : ℤ
  employeeId : ℤ
  date : ℤ
  expectedHours : H
  overtimeHours : H
  validatedOvertimeHours : H
  overtimeStatus : String
  numericDataValid : Bool
  deriving DecidableEq

inductive Kind where
  | noop
  | correct
  | review
  deriving DecidableEq, Repr

inductive CorrectionAction where
  | durationUpdate
  | deleteZeroRegular
  deriving DecidableEq, Repr

structure Decision (H : Type) where
  kind : Kind
  employeeId : ℤ
  employeeName : String
  workDate : ℤ
  reasonCodes : List String
  action : Option CorrectionAction
  workEntryId : Option ℤ
  attendanceId : Option ℤ
  beforeDuration : H
  afterDuration : Option H
  attendanceRegular : H
  attendanceOvertime : H
  workRegular : H
  workOvertime : H
  deriving DecidableEq

/-! ## Classification -/

variable {H : Type} [Hours H]

def numericHours (value : H) : H × Bool :=
  if Hours.isFinite value then (value, true) else (0, false)

def withinTolerance (first second : H) : Bool :=
  let difference := Hours.abs (first - second)
  Hours.lt difference Hours.tolerance || Hours.isClose difference Hours.tolerance

/-- `sum` of some hours. -/
def total (values : List H) : H := values.foldl (· + ·) 0

/-- Any value other than `0.0`, which is neither below nor above it. -/
def nonzero (value : H) : Bool := !(Hours.le value 0 && Hours.le 0 value)

/-- Why a mismatch on a day with overtime is not corrected. -/
def blockers (workEntries : List (WorkRow H)) (attendances : List (AttendanceRow H))
    (regularCount : ℕ) (attendanceId : Option ℤ) (rawOvertime attendanceOvertime workOvertime
      measuredExcess targetDuration : H) : List String :=
  (if regularCount ≠ 1 then ["ambiguous_regular_entries"] else []) ++
  (if attendanceId = none ∨ attendanceId ∉ attendances.map (fun row => some row.id) then
    ["regular_not_attendance_linked"] else []) ++
  (if Hours.le attendanceOvertime 0 then ["attendance_overtime_not_positive"] else []) ++
  (if attendances.any fun row =>
      Hours.lt 0 (numericHours row.overtimeHours).1 && row.overtimeStatus != "approved" then
    ["unapproved_overtime"] else []) ++
  (if (attendances.any fun row =>
      Hours.lt 0 (numericHours row.overtimeHours).1 &&
        !withinTolerance (numericHours row.overtimeHours).1
          (numericHours row.validatedOvertimeHours).1) ||
      !withinTolerance rawOvertime attendanceOvertime then
    ["attendance_overtime_mismatch"] else []) ++
  (if !withinTolerance workOvertime attendanceOvertime then
    ["payroll_overtime_mismatch"] else []) ++
  (if !withinTolerance measuredExcess Hours.expectedExcess then
    ["regular_excess_not_half_hour"] else []) ++
  (if workEntries.any fun row => row.state != "draft" then ["non_draft_work_entry"] else []) ++
  (if workEntries.any fun row => row.conflict then ["conflicting_work_entry"] else []) ++
  (if Hours.lt targetDuration 0 && !withinTolerance targetDuration 0 then
    ["negative_target"] else [])

def classifyDay (employeeId : ℤ) (employeeName : String) (workDate : ℤ)
    (workEntries : List (WorkRow H)) (attendances : List (AttendanceRow H)) : Decision H :=
  let numericDataValid :=
    (attendances.all fun row => row.numericDataValid && (numericHours row.expectedHours).2 &&
      (numericHours row.overtimeHours).2 && (numericHours row.validatedOvertimeHours).2) &&
    workEntries.all fun row => row.numericDataValid && (numericHours row.duration).2
  let attendanceRegular := total (attendances.map fun row => (numericHours row.expectedHours).1)
  let attendanceRawOvertime :=
    total (attendances.map fun row => (numericHours row.overtimeHours).1)
  let attendanceOvertime :=
    total (attendances.map fun row => (numericHours row.validatedOvertimeHours).1)
  let regularEntries := workEntries.filter fun row => row.typeCode = "WORK100"
  let overtimeEntries := workEntries.filter fun row => row.typeCode = "OVERTIME"
  let workRegular := total (regularEntries.map fun row => (numericHours row.duration).1)
  let workOvertime := total (overtimeEntries.map fun row => (numericHours row.duration).1)
  let regularEntry := match regularEntries with
    | [row] => some row
    | _ => none
  let beforeDuration := match regularEntry with
    | some row => (numericHours row.duration).1
    | none => workRegular
  let common : Decision H :=
    { kind := .noop
      employeeId, employeeName, workDate
      reasonCodes := []
      action := none
      workEntryId := regularEntry.map (·.id)
      attendanceId := regularEntry.bind (·.attendanceId)
      beforeDuration
      afterDuration := none
      attendanceRegular, attendanceOvertime, workRegular, workOvertime }
  -- Bad numbers are reviewed even where the totals would agree.
  if !numericDataValid then
    { common with kind := .review, reasonCodes := ["invalid_numeric_data"] }
  else if withinTolerance workRegular attendanceRegular &&
      withinTolerance workOvertime attendanceOvertime then common
  else if !([attendanceRawOvertime, attendanceOvertime, workOvertime].any nonzero) then common
  else
    let measuredExcess := workRegular - attendanceRegular
    let targetDuration := beforeDuration - measuredExcess
    let reasons := blockers workEntries attendances regularEntries.length common.attendanceId
      attendanceRawOvertime attendanceOvertime workOvertime measuredExcess targetDuration
    if reasons ≠ [] then { common with kind := .review, reasonCodes := reasons }
    else if withinTolerance targetDuration 0 then
      { common with
        kind := .correct, action := some .deleteZeroRegular, afterDuration := some 0 }
    else
      { common with
        kind := .correct, action := some .durationUpdate, afterDuration := some targetDuration }

end PlantManager.Payroll

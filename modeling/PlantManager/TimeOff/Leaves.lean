import Mathlib

/-! # Shapes and hours of time off

A leave of Odoo is read as one of four shapes, with hours for all but the full day
(`TimeOff.mirrorShapeAndHours`).
-/

namespace PlantManager.TimeOff

inductive Shape where
  | fullDay
  | lateArrival
  | earlyLeave
  | middayGap
  deriving DecidableEq, Repr

/-- The hours of the shift of the company. -/
structure ShiftBounds where
  shiftFrom : ℚ
  shiftTo : ℚ
  deriving DecidableEq

/-- A leave of Odoo. The window is that of its two times when they are on one day of the plant. -/
structure Leave where
  state : String
  employeeId : Option ℤ
  requestDateFrom : Option ℤ
  requestDateTo : Option ℤ
  requestUnitHours : Bool
  requestHourFrom : Option ℚ
  requestHourTo : Option ℚ
  numberOfDays : Option ℚ
  localDayWindow : Option (ℚ × ℚ)
  deriving DecidableEq

/-- The nearest integer, and of two the even one. -/
def roundHalfEven (value : ℚ) : ℤ :=
  let below := ⌊value⌋
  let rest := value - below
  if rest < 1 / 2 then below
  else if 1 / 2 < rest then below + 1
  else if below % 2 = 0 then below else below + 1

/-- Hours agree to two decimals, or both are missing. -/
def hoursEq : Option ℚ → Option ℚ → Bool
  | some first, some second => roundHalfEven (100 * first) = roundHalfEven (100 * second)
  | none, none => true
  | _, _ => false

/-- How much shorter than the shift a whole day off can be. -/
def fullDayTol : ℚ := 1 / 2

/-- How far from a bound of the shift a window that is anchored there can be. -/
def anchorTol : ℚ := 1 / 4

def classifyOffWindow (hourFrom hourTo : ℚ) (shift : ShiftBounds) : Shape × Option ℚ × Option ℚ :=
  if shift.shiftTo - shift.shiftFrom - fullDayTol ≤ hourTo - hourFrom then (.fullDay, none, none)
  else if hourFrom ≤ shift.shiftFrom + anchorTol then (.lateArrival, some hourFrom, some hourTo)
  else if shift.shiftTo - anchorTol ≤ hourTo then (.earlyLeave, some hourFrom, some hourTo)
  else (.middayGap, some hourFrom, some hourTo)

/-- The window of a leave in hours, when its two bounds make one. -/
def Leave.hourWindow (leave : Leave) : Option (ℚ × ℚ) :=
  match leave.requestHourFrom, leave.requestHourTo with
  | some hourFrom, some hourTo =>
      if leave.requestUnitHours ∧ hourFrom < hourTo then some (hourFrom, hourTo) else none
  | _, _ => none

def mirrorShapeAndHours (shift : ShiftBounds) (leave : Leave) : Shape × Option ℚ × Option ℚ :=
  match leave.hourWindow with
  | some (hourFrom, hourTo) => classifyOffWindow hourFrom hourTo shift
  | none =>
      if ∃ days ∈ leave.numberOfDays, 1 ≤ days then (.fullDay, none, none)
      else
        match leave.localDayWindow with
        | none => (.fullDay, none, none)
        | some (hourFrom, hourTo) => classifyOffWindow hourFrom hourTo shift

end PlantManager.TimeOff

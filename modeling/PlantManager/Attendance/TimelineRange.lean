import PlantManager.Attendance.Projection

/-! # The timeline of a range

`Attendance.Projection.timelineForRange` reads the mirror rows that meet a
range or the plant day it starts in, projects them and clips the spans to the range.
-/

namespace PlantManager.Attendance.Projection

open Checks Ranking Timeline

/-! ## Department names -/

/-- Text without white space at its ends. -/
def strip (value : List Char) : List Char :=
  ((value.dropWhile isSpace).reverse.dropWhile isSpace).reverse

/-- Text without a number in front, nor the white space around it. -/
def dropNumberedPrefix (value : List Char) : List Char :=
  let digits := value.dropWhile isSpace
  match digits with
  | [] => value
  | first :: _ =>
      if first.isDigit then (digits.dropWhile Char.isDigit).dropWhile isSpace else value

def cleanDepartmentName (departmentName : Option String) : Option String :=
  match departmentName with
  | none => none
  | some name =>
      let cleaned := strip (dropNumberedPrefix name.toList)
      if cleaned = [] then none else some (String.ofList cleaned)

/-- The department of the attendance, or else the one of the employee. -/
def effectiveDepartmentName (attendanceDepartmentName employeeDepartmentName : Option String) :
    Option String :=
  (cleanDepartmentName attendanceDepartmentName).or (cleanDepartmentName employeeDepartmentName)

/-- The name under which a department has its rule, if it is not blank. -/
def ruleName (departmentName : String) : String :=
  let raw := strip departmentName.toList
  let normalized := strip (dropNumberedPrefix raw)
  String.ofList (if normalized = [] then raw else normalized)

structure Profile where
  departmentName : Option String
  wageType : Option String

/-- What the plant knows besides the rows of the mirror. -/
structure Site where
  calendar : PlantCalendar
  lower : String → String
  people : ℤ → Option Profile
  departments : String → Option Bool
  appWorkCenterNameForOdooId : ℤ → Option String

def defaultDepartmentRequiresWorkCenter (site : Site) (departmentName : String) : Bool :=
  site.lower ((cleanDepartmentName (some departmentName)).getD "") ∉
    ["maintenance", "transportation", "supervisor"]

/-- The departments of rows without a work center. -/
def unlocatedDepartments (rows : List SourceRow) : List String :=
  (rows.filter fun source => source.workCenterId = none).filterMap fun source =>
    let departmentName := source.departmentName.getD ""
    if strip departmentName.toList = [] then none else some (ruleName departmentName)

/-- The rules of these departments are loaded together. -/
def departmentRequirementsForRows (site : Site) (rows : List SourceRow)
    (departmentName : Option String) : Bool :=
  match departmentName with
  | none => true
  | some departmentName =>
      let normalized := ruleName departmentName
      let saved :=
        if normalized ∈ unlocatedDepartments rows then site.departments normalized else none
      saved.getD (defaultDepartmentRequiresWorkCenter site normalized)

/-! ## Rows -/

/-- A row with the department and the wage type of its employee; rows of the mirror carry no
wage type. -/
def withEmployeeProfile (site : Site) (source : SourceRow) : SourceRow :=
  { source with
    departmentName := effectiveDepartmentName source.departmentName
      ((site.people source.employeeId).bind Profile.departmentName)
    wageType := ((site.people source.employeeId).bind Profile.wageType).filter (· ≠ "") }

/-- A row that was not deleted has no `deletedAt`. Where the mirror has no employee name the name
is empty; either is refused. -/
structure MirrorRow where
  source : SourceRow
  deletedAt : Option ℤ

def Overlaps (start stop : ℤ) (source : SourceRow) : Prop :=
  (∀ checkOut ∈ source.checkOut, source.checkIn < checkOut) ∧ source.checkIn < stop ∧
    ∀ checkOut ∈ source.checkOut, start < checkOut

instance (start stop : ℤ) (source : SourceRow) : Decidable (Overlaps start stop source) :=
  inferInstanceAs (Decidable (_ ∧ _ ∧ _))

def rowsOverlapping (mirror : List MirrorRow) (start stop : ℤ) : List SourceRow :=
  sortBy (fun source => toLex (source.checkIn, source.attendanceId))
    (((mirror.filter fun row => row.deletedAt = none).map MirrorRow.source).filter fun source =>
      Overlaps start stop source)

/-! ## The range -/

/-- The projection runs with a grace of five minutes and is stale after ninety seconds. -/
def rangeContext (site : Site) (asOf verifiedThrough : ℤ) (rows : List SourceRow) :
    ProjectContext where
  calendar := site.calendar
  asOf := asOf
  verifiedThrough := verifiedThrough
  mapWorkCenter := site.appWorkCenterNameForOdooId
  requiresWorkCenter := departmentRequirementsForRows site rows
  expectedDepartmentId _ := none
  grace := 300000000
  staleAfter := 90000000

def clip (start stop : ℤ) (span : LocationSpan) : LocationSpan where
  start := max start span.start
  stop := min stop span.stop
  label := { span.label with isOpen := span.label.isOpen ∧ min stop span.stop = span.stop }

def clipSpans (start stop : ℤ) (projected : List LocationSpan) : List LocationSpan :=
  (projected.filter fun span => max start span.start < min stop span.stop).map (clip start stop)

def timelineForRange (site : Site) (mirror : List MirrorRow) (asOf : ℤ)
    (lastIncrementalCompletedAt : Option ℤ) (start stop : ℤ) :
    Except Failure (List LocationSpan) := do
  raiseIf (stop ≤ start) (.valueError "end_utc must be after start_utc")
  let rows := rowsOverlapping mirror (site.calendar.dayStart (site.calendar.dayOf start)) stop
  if rows = [] then pure []
  else
    match lastIncrementalCompletedAt with
    | none => .error (.runtimeError "attendance mirror has no verified freshness")
    | some verifiedThrough => do
        let rows := rows.map (withEmployeeProfile site)
        let projected ← projectRows (rangeContext site asOf verifiedThrough rows) rows
        mergeSpans (clipSpans start stop projected)

end PlantManager.Attendance.Projection

import PlantManager.Checks.Raise
import PlantManager.Mapping.Dictionary
import PlantManager.Timeline.Stretch

/-! # Projecting mirrored attendance into location spans

`Attendance.Projection.projectRows` cuts the attendance of each employee at all
instants where its state can change, classifies the pieces and merges equal neighbours.
Instants are microseconds, days are numbered.
-/

namespace PlantManager.Attendance.Projection

open Checks Mapping Ranking Timeline

inductive Failure where
  | typeError (message : String)
  | valueError (message : String)
  | keyError (day : ℤ)
  | runtimeError (message : String)
deriving DecidableEq

inductive LocationStatus where
  | valid
  | pendingFirstLocation
  | exemptNoLocation
  | missingRequiredLocation
  | unmappedLocation
  | conflictingLocation
  | staleOpenLocation
deriving DecidableEq

/-- What a span says of its employee; spans that agree in it are merged. -/
structure Location where
  employeeOdooId : ℤ
  employeeName : String
  status : LocationStatus
  appWorkCenterName : Option String
  odooWorkCenterId : Option ℤ
  odooWorkCenterName : Option String
  attendanceIds : List ℤ
  departmentRepair : Option (ℤ × ℤ × ℤ)
  isOpen : Bool
deriving DecidableEq

abbrev LocationSpan := Stretch ℤ Location

/-- A row of the mirror; an open row has no check-out. -/
structure SourceRow where
  attendanceId : ℤ
  employeeId : ℤ
  employeeName : String
  checkIn : ℤ
  checkOut : Option ℤ
  workCenterId : Option ℤ
  workCenterName : Option String
  departmentId : Option ℤ
  departmentName : Option String
  wageType : Option String
  writeDate : ℤ
deriving DecidableEq

def SourceRow.effectiveEnd (source : SourceRow) (asOf : ℤ) : ℤ := source.checkOut.getD asOf

/-- The days of the plant: each has a start, and ends when the next one starts. -/
structure PlantCalendar where
  dayOf : ℤ → ℤ
  dayStart : ℤ → ℤ
  dayStart_strictMono : StrictMono dayStart
  dayOf_eq_iff : ∀ moment day, dayOf moment = day ↔ dayStart day ≤ moment ∧ moment < dayStart (day + 1)

structure ProjectContext where
  calendar : PlantCalendar
  asOf : ℤ
  verifiedThrough : ℤ
  mapWorkCenter : ℤ → Option String
  requiresWorkCenter : Option String → Bool
  expectedDepartmentId : String → Option ℤ
  grace : ℤ
  staleAfter : ℤ

/-! ## Rows -/

def positiveInt (value : ℤ) (fieldName : String) : Except Failure ℤ := do
  raiseIf (value ≤ 0) (.valueError s!"{fieldName} must be a positive integer")
  pure value

def optionalPositiveInt (value : Option ℤ) (fieldName : String) : Except Failure (Option ℤ) :=
  match value with
  | none => .ok none
  | some value => do
      let value ← positiveInt value fieldName
      pure (some value)

/-- White space of Unicode. -/
def isSpace (char : Char) : Bool :=
  char.isWhitespace ∨
    char.toNat ∈ [0x0b, 0x0c, 0x1c, 0x1d, 0x1e, 0x1f, 0x85, 0xa0, 0x1680, 0x2028, 0x2029, 0x202f,
      0x205f, 0x3000] ∨ 0x2000 ≤ char.toNat ∧ char.toNat ≤ 0x200a

def text (value : String) (fieldName : String) : Except Failure String := do
  raiseIf (value.toList.all isSpace) (.typeError s!"{fieldName} must be non-empty text")
  pure value

def sourceRow (raw : SourceRow) : Except Failure SourceRow := do
  raiseIf (∃ checkOut ∈ raw.checkOut, checkOut ≤ raw.checkIn)
    (.valueError "check_out_utc must be after check_in_utc")
  let attendanceId ← positiveInt raw.attendanceId "odoo_attendance_id"
  let employeeId ← positiveInt raw.employeeId "employee_odoo_id"
  let employeeName ← text raw.employeeName "employee_name"
  let workCenterId ← optionalPositiveInt raw.workCenterId "odoo_work_center_id"
  let departmentId ← optionalPositiveInt raw.departmentId "odoo_department_id"
  pure { raw with
    attendanceId := attendanceId
    employeeId := employeeId
    employeeName := employeeName
    workCenterId := workCenterId
    departmentId := departmentId }

def normalizeRow (normalized : List SourceRow) (raw : SourceRow) :
    Except Failure (List SourceRow) := do
  let source ← sourceRow raw
  raiseIf (∃ prior ∈ normalized, prior.attendanceId = source.attendanceId)
    (.valueError s!"duplicate odoo_attendance_id {source.attendanceId}")
  raiseIf (∃ prior ∈ normalized, prior.employeeId = source.employeeId ∧
      prior.employeeName ≠ source.employeeName)
    (.valueError s!"inconsistent employee identity for employee_odoo_id {source.employeeId}")
  pure (normalized ++ [source])

def normalizeRows (rows : List SourceRow) : Except Failure (List SourceRow) := do
  let normalized ← rows.foldlM normalizeRow []
  pure (sortBy (fun source =>
    toLex (source.employeeId, toLex (source.checkIn, source.attendanceId))) normalized)

/-! ## Pieces -/

/-- The name that the last written row gives a work center. -/
def rawWorkCenterName (active : List SourceRow) (workCenterId : ℤ) : Option String :=
  let named := active.filter fun source =>
    source.workCenterId = some workCenterId ∧ source.workCenterName ≠ none
  (named.foldl (fun latest source =>
    match latest with
    | none => some source
    | some other =>
        if toLex (other.writeDate, other.attendanceId) < toLex (source.writeDate, source.attendanceId)
        then some source else some other) none).bind SourceRow.workCenterName

/-- Salaried employees need no location unless one is recorded. -/
def requiresWorkCenter (context : ProjectContext) (source : SourceRow) : Bool :=
  if source.wageType = some "monthly" then false
  else context.requiresWorkCenter source.departmentName

def validatedExpectedDepartment : Option ℤ → Except Failure (Option ℤ)
  | none => .ok none
  | some department =>
      if department ≤ 0 then
        .error (.typeError "expected_department_id must return a positive integer or None")
      else .ok (some department)

def departmentRepair (active : List SourceRow) (workCenterId : ℤ)
    (targetDepartmentId : Option ℤ) : Except Failure (Option (ℤ × ℤ × ℤ)) :=
  match targetDepartmentId with
  | none => .ok none
  | some target =>
      let candidates := sortBy SourceRow.attendanceId (active.filter fun source =>
        source.workCenterId = some workCenterId ∧ source.departmentId ≠ some target)
      match candidates with
      | [] => .ok none
      | [source] => .ok (some (source.attendanceId, target, source.writeDate))
      | _ =>
          let ids := ", ".intercalate (candidates.map fun source => toString source.attendanceId)
          .error (.valueError s!"multiple department repairs required for {ids}")

def attendanceIdsOf (sources : List SourceRow) : List ℤ :=
  sortKeys (sources.map SourceRow.attendanceId)

/-- A span over a piece with its active rows, the first of which is named. -/
def span (context : ProjectContext) (first : SourceRow) (active : List SourceRow)
    (piece : ℤ × ℤ) (status : LocationStatus) (appWorkCenterName : Option String)
    (odooWorkCenterId : Option ℤ) (odooWorkCenterName : Option String)
    (repair : Option (ℤ × ℤ × ℤ)) : LocationSpan where
  start := piece.1
  stop := piece.2
  label :=
    { employeeOdooId := first.employeeId
      employeeName := first.employeeName
      status := status
      appWorkCenterName := appWorkCenterName
      odooWorkCenterId := odooWorkCenterId
      odooWorkCenterName := odooWorkCenterName
      attendanceIds := attendanceIdsOf active
      departmentRepair := repair
      isOpen := piece.2 = context.asOf ∧ ∃ source ∈ active, source.checkOut = none }

structure DayState where
  start : ℤ
  stop : ℤ
  graceBoundary : ℤ
  firstWorkCenterAt : Option ℤ

def plantDaysForInterval (calendar : PlantCalendar) (start stop : ℤ) : List ℤ :=
  let first := calendar.dayOf start
  let last := calendar.dayOf (stop - 1)
  (List.range (last + 1 - first).toNat).map fun offset : ℕ => first + offset

def dayState (context : ProjectContext) (covered : List SourceRow) (day : ℤ) :
    Except Failure DayState :=
  let dayStart := context.calendar.dayStart day
  let dayEnd := context.calendar.dayStart (day + 1)
  let active := covered.filter fun source =>
    source.checkIn < dayEnd ∧ dayStart < source.effectiveEnd context.asOf
  match (active.map fun source => max source.checkIn dayStart).min? with
  | none => .error (.valueError "min() iterable argument is empty")
  | some firstClockIn => .ok
      { start := dayStart
        stop := dayEnd
        graceBoundary := firstClockIn + context.grace
        firstWorkCenterAt := ((active.filter fun source => source.workCenterId ≠ none).map fun source =>
          max source.checkIn dayStart).min? }

/-- The days that the rows touch. -/
def daysOf (context : ProjectContext) (covered : List SourceRow) : List ℤ :=
  sortKeys (covered.flatMap fun source =>
    plantDaysForInterval context.calendar source.checkIn (source.effectiveEnd context.asOf)).dedup

def dayStates (context : ProjectContext) (covered : List SourceRow) :
    Except Failure (List (ℤ × DayState)) :=
  (daysOf context covered).mapM fun day => do
    let state ← dayState context covered day
    pure (day, state)

def SourceIsStale (context : ProjectContext) : Prop :=
  context.staleAfter < context.asOf - context.verifiedThrough

instance (context : ProjectContext) : Decidable (SourceIsStale context) :=
  inferInstanceAs (Decidable (_ < _))

/-- From when on an open row is stale, if the mirror is. -/
def staleBoundary (context : ProjectContext) (source : SourceRow) : ℤ :=
  min context.asOf (max source.checkIn context.verifiedThrough)

/-- The instants at which something can change. -/
def boundaries (context : ProjectContext) (covered : List SourceRow)
    (states : List (ℤ × DayState)) : List ℤ :=
  covered.flatMap (fun source => [source.checkIn, source.effectiveEnd context.asOf]) ++
    states.flatMap (fun entry =>
      let state := entry.2
      (if ∃ source ∈ covered, source.workCenterId = none ∧
          max source.checkIn state.start < state.graceBoundary ∧
          state.graceBoundary < min (source.effectiveEnd context.asOf) state.stop
        then [state.graceBoundary] else []) ++ [state.start, state.stop]) ++
    (if SourceIsStale context then
      (covered.filter fun source => source.checkOut = none ∧
        source.checkIn < staleBoundary context source ∧
          staleBoundary context source < context.asOf).map (staleBoundary context)
    else [])

/-- The rows that are active on a piece. -/
def activeOn (context : ProjectContext) (covered : List SourceRow) (piece : ℤ × ℤ) :
    List SourceRow :=
  covered.filter fun source =>
    source.checkIn < piece.2 ∧ piece.1 < source.effectiveEnd context.asOf

def distinctWorkCenters (active : List SourceRow) : List ℤ :=
  sortKeys (active.filterMap SourceRow.workCenterId).dedup

/-- The app name carried over from the span before. -/
def carriedAppWorkCenter (projected : List LocationSpan) (first : SourceRow)
    (active : List SourceRow) (left : ℤ) (workCenterId : Option ℤ) : Option String :=
  match projected.getLast? with
  | none => none
  | some previous =>
      if previous.label.employeeOdooId = first.employeeId ∧ previous.stop = left ∧
          previous.label.odooWorkCenterId = workCenterId ∧
          previous.label.attendanceIds = attendanceIdsOf active ∧
          (previous.label.status = .valid ∨ previous.label.status = .staleOpenLocation)
      then previous.label.appWorkCenterName else none

/-- Whether some active open row is stale at the start of a piece. -/
def StaleActive (context : ProjectContext) (active : List SourceRow) (left : ℤ) : Prop :=
  SourceIsStale context ∧ ∃ source ∈ active, source.checkOut = none ∧ staleBoundary context source ≤ left

instance (context : ProjectContext) (active : List SourceRow) (left : ℤ) :
    Decidable (StaleActive context active left) :=
  inferInstanceAs (Decidable (_ ∧ ∃ source ∈ active, _))

/-- The status without any work center. -/
def noLocationStatus (context : ProjectContext) (active : List SourceRow) (state : DayState)
    (left : ℤ) : LocationStatus :=
  if ¬∃ source ∈ active, requiresWorkCenter context source = true then .exemptNoLocation
  else if left < state.graceBoundary ∧ ∀ first ∈ state.firstWorkCenterAt, left < first then
    .pendingFirstLocation
  else .missingRequiredLocation

def projectPiece (context : ProjectContext) (covered : List SourceRow)
    (states : List (ℤ × DayState)) (projected : List LocationSpan) (piece : ℤ × ℤ) :
    Except Failure (List LocationSpan) :=
  match activeOn context covered piece with
  | [] => .ok projected
  | first :: others =>
      let active := first :: others
      let span := span context first active piece
      let distinct := distinctWorkCenters active
      if StaleActive context active piece.1 then
        let workCenterId := if distinct.length = 1 then distinct.head? else none
        .ok (projected ++ [span .staleOpenLocation
          (carriedAppWorkCenter projected first active piece.1 workCenterId) workCenterId
          (workCenterId.bind (rawWorkCenterName active)) none])
      else match distinct with
        | [] =>
            match states.lookup (context.calendar.dayOf piece.1) with
            | none => .error (.keyError (context.calendar.dayOf piece.1))
            | some state => .ok (projected ++
                [span (noLocationStatus context active state piece.1) none none none none])
        | [workCenterId] =>
            match context.mapWorkCenter workCenterId with
            | none => .ok (projected ++ [span .unmappedLocation none (some workCenterId)
                (rawWorkCenterName active workCenterId) none])
            | some appWorkCenterName => do
                let target ← validatedExpectedDepartment
                  (context.expectedDepartmentId appWorkCenterName)
                let repair ← departmentRepair active workCenterId target
                pure (projected ++ [span .valid (some appWorkCenterName) (some workCenterId)
                  (rawWorkCenterName active workCenterId) repair])
        | _ => .ok (projected ++ [span .conflictingLocation none none none none])

def mergeSpans (spans : List LocationSpan) : Except Failure (List LocationSpan) := do
  raiseIf (∃ span ∈ spans, span.stop ≤ span.start)
    (.valueError "location spans must have positive duration")
  pure (mergeAdjacent spans)

/-- The rows that last beyond their check-in. -/
def coveredRows (context : ProjectContext) (employeeRows : List SourceRow) : List SourceRow :=
  employeeRows.filter fun source => source.checkIn < source.effectiveEnd context.asOf

def projectEmployee (context : ProjectContext) (employeeRows : List SourceRow) :
    Except Failure (List LocationSpan) := do
  let covered := coveredRows context employeeRows
  if covered = [] then pure []
  else
    let states ← dayStates context covered
    let projected ← (pieces (sortedBoundaries (boundaries context covered states))).foldlM
      (projectPiece context covered states) []
    mergeSpans projected

/-- Project mirror rows into half-open spans, employee by employee. -/
def projectRows (context : ProjectContext) (rows : List SourceRow) :
    Except Failure (List LocationSpan) := do
  raiseIf (context.grace < 0) (.valueError "grace cannot be negative")
  raiseIf (context.staleAfter < 0) (.valueError "stale_after cannot be negative")
  let normalized ← normalizeRows rows
  let byEmployee := Dictionary.groupBy SourceRow.employeeId normalized
  let spans ← (sortKeys byEmployee.keys).mapM fun employeeId =>
    projectEmployee context ((byEmployee.get employeeId).getD [])
  pure spans.flatten

end PlantManager.Attendance.Projection

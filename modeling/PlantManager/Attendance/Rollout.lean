import PlantManager.Attendance.RecalcQueue
import PlantManager.Attendance.TimelineRange
import PlantManager.Mapping.SortedMap

/-! # The rollout of attendance locations

Production is attributed by the attendance locations from a cutover on. The cutover is scheduled
with a ready report (`Attendance.Rollout.scheduleLiveCutover`), other modes are saved
(`Attendance.Rollout.saveNonLiveRollout`), and a due cutover or rollback is decided
(`Attendance.Rollout.activateDueCutover`). One lock serializes the three; an error
rolls the transaction back. Errors are the texts of value errors, instants are microseconds,
days are numbered.
-/

namespace PlantManager.Attendance.Rollout

open Checks Mapping
open Projection (PlantCalendar)

inductive Mode where
  | off
  | shadow
  | live
deriving DecidableEq

inductive MatchState where
  | legacy
  | pending
  | strict
deriving DecidableEq

structure LiveGate where
  checkedAt : ℤ
  reportDigest : String
  activatedAt : Option ℤ
deriving DecidableEq

structure RolloutConfig where
  mode : Mode
  cutoverAt : Option ℤ
  liveGate : Option LiveGate
deriving DecidableEq

/-- The setting as it is stored. -/
structure RawConfig where
  mode : String
  cutoverAt : Option ℤ
  liveGate : Option LiveGate
deriving DecidableEq

def liveGateMaxAge : ℤ := 5 * 60 * 1000000

def reportMaxAge : ℤ := 5 * 60 * 1000000

def RolloutConfig.off : RolloutConfig := ⟨.off, none, none⟩

/-- Plain shadow mode, without a boundary. -/
def RolloutConfig.shadow : RolloutConfig := ⟨.shadow, none, none⟩

/-- The boundary activation of the gate is recorded. -/
def RolloutConfig.Activated (config : RolloutConfig) : Prop :=
  ∃ gate ∈ config.liveGate, gate.activatedAt ≠ none

instance (config : RolloutConfig) : Decidable config.Activated :=
  inferInstanceAs (Decidable (∃ gate ∈ config.liveGate, _))

/-! ## The stored setting -/

def Mode.text : Mode → String
  | .off => "off"
  | .shadow => "shadow"
  | .live => "live"

def parseMode (mode : String) : Except String Mode :=
  if mode = "off" then .ok .off
  else if mode = "shadow" then .ok .shadow
  else if mode = "live" then .ok .live
  else .error "invalid rollout mode"

/-- Reject combinations that cannot own production safely. -/
def validateConfigShape (config : RolloutConfig) : Except String Unit :=
  match config.mode, config.cutoverAt, config.liveGate with
  | .off, none, none => .ok ()
  | .shadow, none, none => .ok ()
  | .shadow, some cutover, some gate =>
      match gate.activatedAt with
      | none => .error "invalid rollout shape"
      | some activatedAt => raiseIf (cutover ≤ activatedAt) "invalid rollout shape"
  | .live, some cutover, some gate =>
      match gate.activatedAt with
      | none => .ok ()
      | some activatedAt => raiseIf (activatedAt < cutover) "invalid rollout shape"
  | _, _, _ => .error "invalid rollout shape"

def parseConfig (raw : RawConfig) : Except String RolloutConfig := do
  let mode ← parseMode raw.mode
  raiseIf (∃ gate ∈ raw.liveGate, gate.reportDigest = "") "invalid live gate digest"
  validateConfigShape ⟨mode, raw.cutoverAt, raw.liveGate⟩
  pure ⟨mode, raw.cutoverAt, raw.liveGate⟩

/-- The value that is stored for a config. -/
def RolloutConfig.raw (config : RolloutConfig) : RawConfig :=
  ⟨config.mode.text, config.cutoverAt, config.liveGate⟩

/-- The stored config, or `off` where there is none that can be parsed. -/
def getRolloutConfig : Option RawConfig → RolloutConfig
  | none => .off
  | some raw =>
      match parseConfig raw with
      | .ok config => config
      | .error _ => .off

def lockRolloutConfig : Option RawConfig → Except String RolloutConfig
  | none => .error "rollout_state_unavailable"
  | some raw =>
      match parseConfig raw with
      | .ok config => .ok config
      | .error _ => .error "rollout_state_unavailable"

/-- The locked config; a setting that is not stored is no error. -/
def lockOptionalRolloutConfig : Option RawConfig → Except String (Option RolloutConfig)
  | none => .ok none
  | some raw => do
      let config ← lockRolloutConfig (some raw)
      pure (some config)

/-! ## Who owns production -/

def LiveIsActive (config : RolloutConfig) (now : ℤ) : Prop :=
  ∃ gate ∈ config.liveGate, (∃ activatedAt ∈ gate.activatedAt, activatedAt ≤ now) ∧
    (config.mode = .live ∨ config.mode = .shadow ∧ config.cutoverAt ≠ none)

instance (config : RolloutConfig) (now : ℤ) : Decidable (LiveIsActive config now) :=
  haveI (gate : LiveGate) : Decidable (∃ activatedAt ∈ gate.activatedAt, activatedAt ≤ now) :=
    inferInstance
  inferInstanceAs (Decidable (∃ gate ∈ config.liveGate, _ ∧ _))

def matchStateFromConfig (calendar : PlantCalendar) (day : ℤ) (config : RolloutConfig) (now : ℤ) :
    MatchState :=
  match config.cutoverAt with
  | none => .legacy
  | some cutover =>
      match config.mode with
      | .off => .legacy
      | .shadow =>
          match config.liveGate.bind LiveGate.activatedAt with
          | none => .legacy
          | some activatedAt =>
              if LiveIsActive config now ∧ calendar.dayOf activatedAt ≤ day ∧
                  day < calendar.dayOf cutover then .strict
              else if cutover ≤ now ∧ calendar.dayOf cutover ≤ day then .pending
              else .legacy
      | .live =>
          if day < calendar.dayOf cutover ∨ now < cutover then .legacy
          else if LiveIsActive config now then .strict
          else .pending

/-! ## The tables -/

structure BlockedCutover where
  scheduledAt : ℤ
  checkedAt : ℤ
  reportDigest : String
  blockers : Finset String
deriving DecidableEq

inductive CutoverStatus where
  | scheduled (cutoverAt checkedAt : ℤ) (reportDigest : String)
  | rollbackBlocked (cutoverAt : ℤ) (blockers : Finset String)
  | rolledBack (cutoverAt : ℤ)
  | active (cutoverAt : ℤ)
  | recalculationPending (cutoverAt : ℤ) (blockers : Finset String)
  | blocked (cutoverAt : ℤ) (blockers : Finset String)
deriving DecidableEq

/-- The settings and the tables of the rollout. -/
structure Tables where
  config : Option RawConfig
  shadowEpoch : Option ℤ
  /-- Whether attendance in a department requires a work center. -/
  departments : SortedMap String Bool
  strictDays : Finset ℤ
  queue : SortedMap ℤ Recalc.QueueRow
  blocked : Option BlockedCutover
  status : Option CutoverStatus
deriving DecidableEq

def matchStateForDay (calendar : PlantCalendar) (tables : Tables) (day now : ℤ) : MatchState :=
  if day ∈ tables.strictDays then .strict
  else
    match tables.config with
    | none => matchStateFromConfig calendar day .off now
    | some raw =>
        match parseConfig raw with
        | .ok config => matchStateFromConfig calendar day config now
        | .error _ => .pending

/-! ## What a step reads -/

/-- The shift start of each day, and whether the day is worked where this can be told. -/
structure Schedule where
  shiftStart : ℤ → ℤ
  isWorkday : ℤ → Option Bool

/-- A readiness report: what was measured, and the blockers found in it. -/
structure Report (M : Type) where
  measures : M
  blockers : Finset String
  checkedAt : ℤ

def Report.Ready {M : Type} (report : Report M) : Prop := report.blockers = ∅

instance {M : Type} (report : Report M) : Decidable report.Ready :=
  inferInstanceAs (Decidable (_ = _))

def Report.block {M : Type} (report : Report M) (blocker : String) : Report M :=
  { report with blockers := insert blocker report.blockers }

/-- The calendar and the clock time of the plant, and the digest of a report for a cutover. -/
structure Plant (M : Type) extends PlantCalendar where
  timeOf : ℤ → ℤ
  reportDigest : Report M → ℤ → String
  reportDigest_ne : ∀ report cutover, reportDigest report cutover ≠ ""

/-- What one step reads besides the tables: the clock as the step starts and as it saves, the
schedule in the locked rows and in the shared configuration, and the report. -/
structure Reading (M : Type) where
  now : ℤ
  clock : ℤ
  locked : Schedule
  shared : Schedule
  measures : M
  blockers : Finset String

def buildReport {M : Type} (reading : Reading M) : Report M :=
  ⟨reading.measures, reading.blockers, reading.now⟩

variable {M : Type}

/-! ## Validation -/

def validateCutover (plant : Plant M) (schedule : Schedule) : Option ℤ → Except String Unit
  | none => .error "cutover_timezone_required"
  | some cutover =>
      raiseIf (plant.timeOf cutover ≠ schedule.shiftStart (plant.dayOf cutover))
        "cutover_boundary_required"

def validateConfiguredWorkday (plant : Plant M) (schedule : Schedule) (cutover : ℤ) :
    Except String Unit :=
  match schedule.isWorkday (plant.dayOf cutover) with
  | none => .error "cutover_workday_unavailable"
  | some worked => raiseIf (worked = false) "cutover_workday_required"

/-- The boundary is a shift start of a workday in the locked rows. -/
def validateConfiguredBoundary (plant : Plant M) (schedule : Schedule) (cutover : ℤ) :
    Except String Unit :=
  match schedule.isWorkday (plant.dayOf cutover) with
  | none => .error "cutover_workday_unavailable"
  | some worked => do
      raiseIf (plant.timeOf cutover ≠ schedule.shiftStart (plant.dayOf cutover))
        "cutover_boundary_required"
      raiseIf (worked = false) "cutover_workday_required"

def validateLiveGate (clock : ℤ) : Option LiveGate → Except String Unit
  | none => .error "live_readiness_required"
  | some gate => do
      raiseIf (gate.reportDigest = "") "live_readiness_required"
      raiseIf (clock - gate.checkedAt < 0 ∨ liveGateMaxAge < clock - gate.checkedAt)
        "live_readiness_required"

def validateLive (plant : Plant M) (schedule : Schedule) (clock : ℤ) (config : RolloutConfig) :
    Except String Unit :=
  match config.cutoverAt with
  | none => .error "cutover_timezone_required"
  | some cutover => do
      validateCutover plant schedule (some cutover)
      validateConfiguredWorkday plant schedule cutover
      validateLiveGate clock config.liveGate
      raiseIf (¬config.Activated ∧ cutover ≤ clock) "cutover_future_boundary_required"

/-- The boundary of a scheduled rollback is a shift start of a future workday. -/
def validateRollback (plant : Plant M) (schedule : Schedule) (clock : ℤ)
    (config : RolloutConfig) : Except String Unit :=
  match config.cutoverAt with
  | none => .error "cutover_timezone_required"
  | some cutover => do
      validateCutover plant schedule (some cutover)
      validateConfiguredWorkday plant schedule cutover
      raiseIf (cutover ≤ clock) "rollback_future_boundary_required"

/-! ## Saving -/

def setRolloutConfig (plant : Plant M) (schedule : Schedule) (clock : ℤ) (config : RolloutConfig)
    (tables : Tables) : Except String Tables := do
  raiseIf (config.mode = .off ∧ LiveIsActive (getRolloutConfig tables.config) clock)
    "rollback_boundary_required"
  onlyIf (config.cutoverAt ≠ none) (validateCutover plant schedule config.cutoverAt)
  onlyIf (config.mode = .live) (validateLive plant schedule clock config)
  onlyIf (config.mode = .shadow ∧ config.Activated) (validateRollback plant schedule clock config)
  validateConfigShape config
  pure { tables with config := some config.raw }

/-- Restore an activated gate; the boundary it was activated at is not validated again. -/
def restoreActiveAfterRejectedRollback (clock : ℤ) (config : RolloutConfig) (tables : Tables) :
    Except String Tables := do
  raiseIf (config.mode ≠ .live ∨ config.cutoverAt = none) "live_readiness_required"
  validateLiveGate clock config.liveGate
  raiseIf (¬config.Activated) "live_readiness_required"
  raiseIf (∃ cutover ∈ config.cutoverAt, ∃ gate ∈ config.liveGate,
    ∃ activatedAt ∈ gate.activatedAt, activatedAt < cutover) "live_readiness_required"
  pure { tables with config := some config.raw }

/-- The rules by department name; names are stripped and blank ones are left out. -/
def normalizedDepartments (requirements : List (String × Bool)) : SortedMap String Bool :=
  requirements.foldl (fun departments entry =>
    let name := String.ofList (Projection.strip entry.1.toList)
    if name = "" then departments else departments.set name entry.2) ∅

/-- Save the rule of a department that is known. -/
def setDepartmentRequirement (departments : SortedMap String Bool) (entry : String × Bool) :
    SortedMap String Bool :=
  if (departments.get entry.1).isSome then departments.set entry.1 entry.2 else departments

/-! ## Scheduling a cutover -/

def scheduleLiveCutover (plant : Plant M) (reading : Reading M) (cutover : ℤ)
    (requirements : Option (List (String × Bool))) (tables : Tables) : Except String Tables := do
  raiseIf (cutover ≤ reading.now) "cutover_future_boundary_required"
  validateConfiguredBoundary plant reading.locked cutover
  let current ← lockRolloutConfig tables.config
  raiseIf (current.mode = .live) "live_cutover_already_scheduled"
  raiseIf (current.mode ≠ .shadow) "live_cutover_requires_shadow"
  raiseIf (∃ given ∈ requirements, normalizedDepartments given ≠ tables.departments)
    "department_policy_requires_shadow_refresh"
  let report := buildReport reading
  raiseIf (¬report.Ready) "live_readiness_blocked"
  raiseIf (reading.clock - reading.now < 0 ∨ reportMaxAge < reading.clock - reading.now)
    "live_readiness_stale"
  let digest := plant.reportDigest report cutover
  let saved ← setRolloutConfig plant reading.shared reading.clock
    ⟨.live, some cutover, some ⟨reading.now, digest, none⟩⟩ tables
  pure { saved with status := some (.scheduled cutover reading.now digest) }

/-! ## Saving another mode -/

/-- The config to save. A pending cutover is not replaced once it is due, and an activated gate
is carried into a scheduled rollback. -/
def resolveNonLive (now : ℤ) (current config : RolloutConfig) : Except String RolloutConfig :=
  match current.mode, current.cutoverAt, current.liveGate with
  | .live, some cutover, some gate =>
      match gate.activatedAt with
      | none => do
          raiseIf (cutover ≤ now) "cutover_decision_pending"
          pure config
      | some activatedAt => do
          raiseIf (now < activatedAt) "cutover_decision_pending"
          raiseIf (config.mode = .off ∨ config.cutoverAt = none) "rollback_boundary_required"
          pure ⟨.shadow, config.cutoverAt, some gate⟩
  | .live, _, _ => .error "rollout_state_unavailable"
  | .shadow, cutoverAt, some gate =>
      match gate.activatedAt, cutoverAt with
      | none, _ => .ok config
      | some _, none => .error "rollout_state_unavailable"
      | some _, some cutover => do
          raiseIf (cutover ≤ now) "cutover_decision_pending"
          raiseIf (config.mode = .off ∨ config.cutoverAt = none) "rollback_boundary_required"
          pure ⟨.shadow, config.cutoverAt, some gate⟩
  | _, _, _ => .ok config

def saveNonLiveRollout (plant : Plant M) (reading : Reading M) (config : RolloutConfig)
    (requirements : List (String × Bool)) (tables : Tables) : Except String Tables := do
  raiseIf (config.mode = .live) "invalid_rollout_mode"
  let stored ← lockOptionalRolloutConfig tables.config
  let current := stored.getD .off
  let resolved ← resolveNonLive reading.now current config
  let saved ← setRolloutConfig plant reading.shared reading.clock resolved tables
  pure { saved with
    shadowEpoch :=
      if resolved.mode = .off then none
      else if resolved.mode = .shadow ∧ resolved.liveGate = none ∧
          (current.mode = .off ∨ saved.shadowEpoch = none) then some reading.now
      else saved.shadowEpoch
    departments :=
      (normalizedDepartments requirements).entries.foldl setDepartmentRequirement
        saved.departments }

/-! ## Deciding what is due -/

inductive ActivationStatus where
  | notScheduled
  | notDue
  | blocked
  | rolledBack
  | active
  | recalculationPending
  | activated
deriving DecidableEq

structure CutoverActivationResult where
  status : ActivationStatus
  cutoverAt : Option ℤ
  blockers : Finset String
deriving DecidableEq

/-- Record the cutover day as strict, and ask for its recalculation. -/
def enqueueCutover (cutoverDay now : ℤ) (tables : Tables) : Tables :=
  { tables with
    strictDays := insert cutoverDay tables.strictDays
    queue := tables.queue.set cutoverDay
      { reason := "attendance_live_cutover"
        requestedAt :=
          match tables.queue.get cutoverDay with
          | none => now
          | some row => min row.requestedAt now
        startedAt := none
        completedAt := none
        cacheStartedAt := none
        cacheReadyAt := none
        attemptCount := 0
        lastError := none } }

/-- A row that the steps of a recalculation can leave. -/
def RecalculationRowValid (row : Recalc.QueueRow) : Prop :=
  match row.completedAt with
  | none => row.cacheStartedAt = none ∧ row.cacheReadyAt = none
  | some completedAt =>
      row.startedAt = none ∧ row.lastError = none ∧
        ∀ cacheReadyAt ∈ row.cacheReadyAt, row.cacheStartedAt = none ∧ completedAt ≤ cacheReadyAt

instance (row : Recalc.QueueRow) : Decidable (RecalculationRowValid row) := by
  unfold RecalculationRowValid
  cases row.completedAt with
  | none => exact inferInstanceAs (Decidable (_ ∧ _))
  | some completedAt => exact inferInstanceAs (Decidable (_ ∧ _ ∧ _))

inductive QueueState where
  | pending
  | ready
  | invalid
deriving DecidableEq

def cutoverQueueState (queue : SortedMap ℤ Recalc.QueueRow) (cutoverDay : ℤ) : QueueState :=
  match queue.get cutoverDay with
  | none => .pending
  | some row =>
      if ¬RecalculationRowValid row then .invalid
      else if row.completedAt ≠ none ∧ row.cacheReadyAt ≠ none then .ready
      else .pending

def storeBlocked (plant : Plant M) (cutover : ℤ) (report : Report M) (tables : Tables) : Tables :=
  { tables with
    blocked := some
      { scheduledAt := cutover
        checkedAt := report.checkedAt
        reportDigest := plant.reportDigest report cutover
        blockers := report.blockers } }

/-- Keep the activated gate live: its activation is the boundary of what it owns. -/
def rejectRollback (plant : Plant M) (reading : Reading M) (cutover activatedAt : ℤ)
    (blocker : String) (tables : Tables) : Except String (CutoverActivationResult × Tables) := do
  let report := (buildReport reading).block blocker
  let restored ← restoreActiveAfterRejectedRollback reading.clock
    ⟨.live, some activatedAt,
      some ⟨report.checkedAt, plant.reportDigest report activatedAt, some activatedAt⟩⟩ tables
  pure (⟨.blocked, some cutover, report.blockers⟩,
    { storeBlocked plant cutover report restored with
      status := some (.rollbackBlocked cutover report.blockers) })

def finishRollback (plant : Plant M) (reading : Reading M) (cutover : ℤ) (tables : Tables) :
    Except String (CutoverActivationResult × Tables) := do
  let saved ← setRolloutConfig plant reading.shared reading.clock .shadow tables
  pure (⟨.rolledBack, some cutover, ∅⟩,
    { saved with
      shadowEpoch := some reading.now
      blocked := none
      status := some (.rolledBack cutover) })

/-- Report how far the recalculation of the cutover day is. -/
def reportActive (cutover : ℤ) (state : QueueState) (tables : Tables) :
    CutoverActivationResult × Tables :=
  match state with
  | .ready => (⟨.active, some cutover, ∅⟩, { tables with status := some (.active cutover) })
  | .pending =>
      (⟨.recalculationPending, some cutover, ∅⟩,
        { tables with status := some (.recalculationPending cutover ∅) })
  | .invalid =>
      let blockers : Finset String := {"attendance_recalculation_invalid"}
      (⟨.recalculationPending, some cutover, blockers⟩,
        { tables with status := some (.recalculationPending cutover blockers) })

/-- The report at the boundary; a boundary that the locked rows no longer have blocks it. -/
def boundaryReport (plant : Plant M) (reading : Reading M) (cutover : ℤ) : Report M :=
  match validateConfiguredBoundary plant reading.locked cutover with
  | .ok _ => buildReport reading
  | .error blocker => (buildReport reading).block blocker

def blockCutover (plant : Plant M) (reading : Reading M) (cutover : ℤ) (report : Report M)
    (tables : Tables) : Except String (CutoverActivationResult × Tables) := do
  let saved ← setRolloutConfig plant reading.shared reading.clock .shadow tables
  pure (⟨.blocked, some cutover, report.blockers⟩,
    { storeBlocked plant cutover report { saved with shadowEpoch := some reading.now } with
      status := some (.blocked cutover report.blockers) })

def activateCutover (plant : Plant M) (reading : Reading M) (cutover : ℤ) (report : Report M)
    (tables : Tables) : Except String (CutoverActivationResult × Tables) := do
  let saved ← setRolloutConfig plant reading.shared reading.clock
    ⟨.live, some cutover,
      some ⟨report.checkedAt, plant.reportDigest report cutover, some reading.now⟩⟩
    (enqueueCutover (plant.dayOf cutover) reading.now tables)
  pure (⟨.activated, some cutover, ∅⟩,
    { saved with
      blocked := none
      status := some (.recalculationPending cutover ∅) })

def decideRollback (plant : Plant M) (reading : Reading M) (cutover activatedAt : ℤ)
    (tables : Tables) : Except String (CutoverActivationResult × Tables) :=
  if reading.now < cutover then .ok (⟨.notDue, some cutover, ∅⟩, tables)
  else
    match validateConfiguredBoundary plant reading.locked cutover with
    | .error blocker => rejectRollback plant reading cutover activatedAt blocker tables
    | .ok _ => finishRollback plant reading cutover tables

def decideCutover (plant : Plant M) (reading : Reading M) (cutover : ℤ)
    (activatedAt : Option ℤ) (tables : Tables) :
    Except String (CutoverActivationResult × Tables) :=
  if reading.now < cutover then .ok (⟨.notDue, some cutover, ∅⟩, tables)
  else
    match activatedAt with
    | some _ =>
        .ok (reportActive cutover (cutoverQueueState tables.queue (plant.dayOf cutover)) tables)
    | none =>
        let report := boundaryReport plant reading cutover
        if report.Ready then activateCutover plant reading cutover report tables
        else blockCutover plant reading cutover report tables

/-- Make one boundary decision from the local state. -/
def activateDueCutover (plant : Plant M) (reading : Reading M) (tables : Tables) :
    Except String (CutoverActivationResult × Tables) :=
  match lockRolloutConfig tables.config with
  | .error _ => .ok (⟨.notScheduled, none, ∅⟩, tables)
  | .ok config =>
      match config.mode, config.cutoverAt, config.liveGate with
      | .shadow, some cutover, some gate =>
          match gate.activatedAt with
          | some activatedAt => decideRollback plant reading cutover activatedAt tables
          | none => .ok (⟨.notScheduled, none, ∅⟩, tables)
      | .live, some cutover, some gate =>
          decideCutover plant reading cutover gate.activatedAt tables
      | _, _, _ => .ok (⟨.notScheduled, none, ∅⟩, tables)

end PlantManager.Attendance.Rollout

import PlantManager.Transition.Runs

/-! # The lunch sign-out of one employee on one day

A sweep reads the run row of the day with its other inputs and later applies its decision;
the employee's own sign-out ends the run while it waits for the sign-in. Every database
transaction is one step, and so is every reading; nothing is assumed of the clocks. Instants
are microseconds.
-/

namespace PlantManager.Timeclock.AutoLunch

open PlantManager.Transition

inductive RunState where
  | pending
  | autoOut
  | done
  | skipped
  | endedByEmployee
deriving DecidableEq

def RunState.Terminal (state : RunState) : Prop :=
  state = .done ∨ state = .skipped ∨ state = .endedByEmployee

instance (state : RunState) : Decidable state.Terminal := inferInstanceAs (Decidable (_ ∨ _ ∨ _))

inductive Kind where
  | scheduled
  | flex
deriving DecidableEq

inductive PunchAction where
  | clockOut
  | clockIn
deriving DecidableEq

structure Window where
  outAt : ℤ
  inAt : ℤ
deriving DecidableEq

structure Transition where
  newState : RunState
  action : Option PunchAction
  instant : Option ℤ
deriving DecidableEq

/-- The row of the employee and the day in `auto_lunch_runs`. -/
structure Run where
  kind : Kind
  state : RunState
  targetOutAt : Option ℤ
  targetInAt : Option ℤ
  wcName : Option String
  odooDepartmentId : Option ℤ
  odooDepartmentName : Option String
  outPunchId : Option ℕ
  inPunchId : Option ℕ
deriving DecidableEq

/-- A punch with `source = 'auto_lunch'`. -/
structure Punch where
  id : ℕ
  action : PunchAction
  wcName : Option String
  odooDepartmentId : Option ℤ
  occurredAt : ℤ
deriving DecidableEq

structure Settings where
  observeOnly : Bool
  flexAfter : ℤ
  flexDuration : ℤ

/-- What a sweep has read of the employee, besides the run row. -/
structure Inputs where
  now : ℤ
  settings : Settings
  fixedWindow : Option Window
  isFlexible : Bool
  firstClockIn : Option ℤ
  isClockedIn : Bool
  currentWc : Option String
  currentDepartmentId : Option ℤ
  currentDepartmentName : Option String
  latestInWc : Option String

/-! ## Decisions -/

def flexWindow (firstClockIn : ℤ) (settings : Settings) : Window where
  outAt := firstClockIn + settings.flexAfter
  inAt := firstClockIn + settings.flexAfter + settings.flexDuration

def decide (runState : RunState) (isClockedIn : Bool) (window : Window) (now : ℤ) : Transition :=
  match runState with
  | .pending =>
      if window.outAt ≤ now then
        if isClockedIn then ⟨.autoOut, some .clockOut, some window.outAt⟩ else ⟨.skipped, none, none⟩
      else ⟨.pending, none, none⟩
  | .autoOut =>
      if window.inAt ≤ now then
        if isClockedIn then ⟨.done, none, none⟩ else ⟨.done, some .clockIn, some window.inAt⟩
      else ⟨.autoOut, none, none⟩
  | other => ⟨other, none, none⟩

def storedWindow (run : Option Run) : Option Window := do
  let run ← run
  let outAt ← run.targetOutAt
  let inAt ← run.targetInAt
  if inAt ≤ outAt then none else some ⟨outAt, inAt⟩

def kindFor (inputs : Inputs) (run : Option Run) : Kind :=
  (run.map Run.kind).getD (if inputs.isFlexible then .flex else .scheduled)

def windowFor (inputs : Inputs) (run : Option Run) : Option Window :=
  match storedWindow run with
  | some window => some window
  | none =>
      match kindFor inputs run with
      | .scheduled => inputs.fixedWindow
      | .flex => inputs.firstClockIn.map fun firstIn => flexWindow firstIn inputs.settings

/-- A day without a row is pending. -/
def stateOf (run : Option Run) : RunState := (run.map Run.state).getD .pending

/-- What a sweep does about the employee, if anything. -/
def advancePerson (inputs : Inputs) (run : Option Run) : Option (Window × Transition) :=
  match windowFor inputs run with
  | none => none
  | some window =>
      if (stateOf run).Terminal then none
      else
        let isIn :=
          if inputs.settings.observeOnly ∧ stateOf run = .autoOut then false else inputs.isClockedIn
        let transition := decide (stateOf run) isIn window inputs.now
        if transition.newState = stateOf run ∧ transition.action = none then none
        else some (window, transition)

/-! ## Transactions -/

/-- Insert or update the row; a column without a new value keeps its own. -/
def upsertRun (row : Option Run) (written : Run) : Run :=
  match row with
  | none => written
  | some old =>
      { written with
        targetOutAt := written.targetOutAt.or old.targetOutAt
        targetInAt := written.targetInAt.or old.targetInAt
        wcName := written.wcName.or old.wcName
        odooDepartmentId := written.odooDepartmentId.or old.odooDepartmentId
        odooDepartmentName := written.odooDepartmentName.or old.odooDepartmentName
        outPunchId := written.outPunchId.or old.outPunchId
        inPunchId := written.inPunchId.or old.inPunchId }

def blankRun (kind : Kind) (state : RunState) : Run where
  kind := kind
  state := state
  targetOutAt := none
  targetInAt := none
  wcName := none
  odooDepartmentId := none
  odooDepartmentName := none
  outPunchId := none
  inPunchId := none

/-- The work center to come back to; an empty name is none. -/
def capturedWc (inputs : Inputs) : Option String :=
  (inputs.currentWc.filter (· ≠ "")).or inputs.latestInWc

/-- What applying a transition writes to the row, and the punch with it. -/
def applied (inputs : Inputs) (snapshot : Option Run) (window : Window) (transition : Transition)
    (punchId : ℕ) : Run × Option Punch :=
  let kind := kindFor inputs snapshot
  match transition.action with
  | some .clockOut =>
      let written : Run :=
        { blankRun kind .autoOut with
          targetOutAt := some window.outAt
          targetInAt := some window.inAt
          wcName := capturedWc inputs
          odooDepartmentId := inputs.currentDepartmentId
          odooDepartmentName := inputs.currentDepartmentName }
      if inputs.settings.observeOnly then (written, none)
      else ({ written with outPunchId := some punchId },
        some ⟨punchId, .clockOut, none, none, transition.instant.getD inputs.now⟩)
  | some .clockIn =>
      if inputs.settings.observeOnly then (blankRun kind .done, none)
      else ({ blankRun kind .done with inPunchId := some punchId },
        some ⟨punchId, .clockIn, snapshot.bind Run.wcName, snapshot.bind Run.odooDepartmentId,
          transition.instant.getD inputs.now⟩)
  | none =>
      ({ blankRun kind transition.newState with
        targetOutAt := some window.outAt
        targetInAt := some window.inAt }, none)

/-- Whether the employee is in the gap between the sign-out and the sign-in. -/
def ActiveLunchRun (row : Option Run) (now : ℤ) : Prop :=
  stateOf row = .autoOut ∧ ∃ outAt ∈ row.bind Run.targetOutAt, ∃ inAt ∈ row.bind Run.targetInAt,
    outAt ≤ now ∧ now < inAt

instance (row : Option Run) (now : ℤ) : Decidable (ActiveLunchRun row now) :=
  inferInstanceAs (Decidable (_ ∧ ∃ outAt ∈ _, ∃ inAt ∈ _, _))

/-- The employee's sign-out ends a run that waits for the sign-in. -/
def endRun (row : Option Run) : Option Run :=
  row.map fun run => if run.state = .autoOut then { run with state := .endedByEmployee } else run

/-! ## Runs -/

/-- A sweep that has read its inputs. -/
structure Sweep where
  inputs : Inputs
  snapshot : Option Run

/-- Where a call of `note_employee_clock_out` is. -/
inductive NoteCall where
  | idle
  | began (now : ℤ)
  | active

inductive Event (C : Type*) where
  | wrote (action : PunchAction)
  /-- A sign-out that returned true. -/
  | noted (call : C)
deriving DecidableEq

/-- The row, the punches and what happened, latest first; one sweep runs at a time. -/
structure State (C : Type*) where
  row : Option Run
  punches : List Punch
  nextPunchId : ℕ
  sweep : Option Sweep
  calls : C → NoteCall
  history : List (Event C)

def State.initial (C : Type*) : State C where
  row := none
  punches := []
  nextPunchId := 1
  sweep := none
  calls _ := .idle
  history := []

inductive Action (C : Type*) where
  | sweepRead (inputs : Inputs)
  | sweepApply
  /-- The sweep crashes, or has nothing to do with the employee. -/
  | sweepLeave
  | noteBegin (call : C) (now : ℤ)
  | noteRead (call : C)
  | noteUpdate (call : C)
  | noteLeave (call : C)

section Step

variable {C : Type*} [DecidableEq C]

def State.become (state : State C) (call : C) (phase : NoteCall) : State C :=
  { state with calls := Function.update state.calls call phase }

/-- Store a row and its punch, and remember the punch. -/
def State.store (state : State C) (written : Run × Option Punch) : State C :=
  { state with
    row := some (upsertRun state.row written.1)
    punches := written.2.toList ++ state.punches
    nextPunchId := state.nextPunchId + 1
    history := (written.2.toList.map fun punch => .wrote punch.action) ++ state.history }

def step (state : State C) : Action C → Option (State C)
  | .sweepRead inputs =>
      if state.sweep.isNone ∧ inputs.settings.observeOnly = false then
        some { state with sweep := some ⟨inputs, state.row⟩ }
      else none
  | .sweepApply =>
      state.sweep.map fun sweep =>
        match advancePerson sweep.inputs sweep.snapshot with
        | none => { state with sweep := none }
        | some (window, transition) =>
            { state.store (applied sweep.inputs sweep.snapshot window transition state.nextPunchId)
              with sweep := none }
  | .sweepLeave => some { state with sweep := none }
  | .noteBegin call now =>
      match state.calls call with
      | .idle => some (state.become call (.began now))
      | _ => none
  | .noteRead call =>
      match state.calls call with
      | .began now =>
          if ActiveLunchRun state.row now then some (state.become call .active)
          else some (state.become call .idle)
      | _ => none
  | .noteUpdate call =>
      match state.calls call with
      | .active => some
          { state.become call .idle with
            row := endRun state.row
            history := .noted call :: state.history }
      | _ => none
  | .noteLeave call => some (state.become call .idle)

end Step

end PlantManager.Timeclock.AutoLunch

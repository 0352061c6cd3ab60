import PlantManager.Feedback.Record
import PlantManager.Roster.People

/-! # What a review task says

A reviewer moves the task of a feedback record in Odoo and leaves events in its description. The
task and its events project to one lifecycle, which the shared reference row and then the local
record follow (`Feedback.ReviewReconciler.projection`). Instants are microseconds; a
description stands for the events that it parses to.
-/

namespace PlantManager.Feedback.ReviewReconciler

open Roster (stripped)

inductive ReviewAction where
  | accept
  | decline
  | assign
  | complete
  | moveL10
  deriving DecidableEq, Repr

structure ReviewEvent where
  eventId : String
  action : ReviewAction
  actorOdooUserId : ℤ
  actorEmployeeId : ℤ
  occurredAt : ℤ
  detail : Option String
  targetOdooUserId : Option ℤ
  deriving DecidableEq, Repr

def ReviewEvent.note (event : ReviewEvent) : String := stripped (event.detail.getD "")

def ReviewEvent.Valid (event : ReviewEvent) : Prop :=
  stripped event.eventId ≠ "" ∧ 0 < event.actorOdooUserId ∧ 0 < event.actorEmployeeId ∧
    (event.action ∈ [.decline, .complete] → event.note ≠ "") ∧
    if event.action = .assign then ∃ target ∈ event.targetOdooUserId, 0 < target
    else event.targetOdooUserId = none

instance (event : ReviewEvent) : Decidable event.Valid :=
  inferInstanceAs (Decidable (_ ∧ _ ∧ _ ∧ _ ∧ if event.action = .assign then _ else _))

/-- The one latest event of some actions; an event list that is not in order has none. -/
def latest (events : List ReviewEvent) (actions : List ReviewAction) : Option ReviewEvent :=
  if (events.map ReviewEvent.eventId).Nodup ∧ ∀ event ∈ events, event.Valid then
    let valid := events.filter fun event => event.action ∈ actions
    match valid.filter fun event => ∀ other ∈ valid, other.occurredAt ≤ event.occurredAt with
    | [event] => some event
    | _ => none
  else none

structure Task where
  id : ℤ
  projectId : ℤ
  projectName : String
  stageId : ℤ
  stageName : String
  userIds : List ℤ
  state : String
  active : Bool
  writeDate : ℤ
  /-- The description names the source of the task and the feedback record. -/
  hasSourceMetadata : Bool
  events : List ReviewEvent
  deriving DecidableEq, Repr

def reviewTaskProject : String := "GPI OS Manager - TASKS"

def reviewTaskStages : List String := ["General", "L10"]

/-- A closed task projects to its one closing event, which has a note and is not after the write. -/
def closing (task : Task) (action : ReviewAction) (status : Status) :
    Option (Status × Option ReviewEvent) :=
  match latest task.events [action] with
  | none => none
  | some selected =>
      if selected.note = "" ∨ task.writeDate < selected.occurredAt then none
      else some (status, some selected)

def projectionEvent (task : Task) : Option (Status × Option ReviewEvent) :=
  if task.active = false ∨ task.projectName ≠ reviewTaskProject ∨
      task.stageName ∉ reviewTaskStages ∨ task.projectId ≤ 0 ∨ task.stageId ≤ 0 ∨
      task.userIds.length ≠ 1 ∨ ∃ user ∈ task.userIds, user ≤ 0 then none
  else
    match task.state with
    | "01_in_progress" => if task.events = [] then some (.requested, none) else none
    | "03_approved" =>
        match latest task.events [.accept, .assign, .moveL10] with
        | none => none
        | some selected =>
            let latestAssignment := latest task.events [.assign]
            if (∃ event ∈ task.events, event.action = .assign) ∧ latestAssignment = none then none
            else if ∃ event ∈ latestAssignment, event.targetOdooUserId ≠ task.userIds.head? then
              none
            else if task.writeDate < selected.occurredAt then none
            else some (.inProgress, some selected)
    | "1_canceled" => closing task .decline .declined
    | "1_done" => closing task .complete .completed
    | _ => none

/-! ## The fields of the reference -/

/-- A value that Odoo answers for a field. -/
inductive Value where
  | false
  | null
  | text (value : String)
  | linked (id : ℤ) (name : String)
  /-- Any other list or mapping, which has no hash. -/
  | collection
  | other (value : ℤ)
  deriving DecidableEq, Repr

def statusValue : Status → String
  | .requested => "Requested"
  | .inProgress => "In-Progress"
  | .completed => "Completed"
  | .declined => "Declined"

/-- What a closed review adds to the reference. -/
structure Result where
  dateStop : String
  completedBy : ℤ
  notes : String
  deriving DecidableEq, Repr

/-- The fields that a lifecycle sets; the others stay. -/
structure Fields where
  status : String
  result : Option Result
  deriving DecidableEq, Repr

def maxSigned64 : ℤ := 9223372036854775807

/-- Text in markup, where quotes stay. -/
def escape (value : String) : String :=
  String.ofList (value.toList.flatMap fun char =>
    match char with
    | '&' => "&amp;".toList
    | '<' => "&lt;".toList
    | '>' => "&gt;".toList
    | char => [char])

/-- What is fixed about the pair of a task and a reference. -/
structure Site where
  taskId : ℤ
  improvementId : ℤ
  sourceId : String
  expectedType : String
  projectId : ℤ
  stageId : String → Option ℤ
  /-- The references that carry the source identity. -/
  exactIds : List ℤ
  /-- The stop date or time of the contract's type. -/
  stopText : ℤ → String
  employeeName : ℤ → String

/-- The fields of a lifecycle, unless the number of the employee is too large. -/
def reviewLifecycleFields (site : Site) (status : Status) (event : Option ReviewEvent) :
    Option Fields :=
  if status.Terminal then
    match event with
    | none => none
    | some event =>
        if event.actorEmployeeId ≤ 0 ∨ maxSigned64 < event.actorEmployeeId ∨ event.note = "" then
          none
        else some
          { status := statusValue status
            result := some
              { dateStop := site.stopText event.occurredAt
                completedBy := event.actorEmployeeId
                notes := "<p>" ++ escape event.note ++ "</p>" } }
  else some { status := statusValue status, result := none }

structure Projection where
  status : Status
  fields : Fields
  event : Option ReviewEvent
  deriving DecidableEq

/-- A task is projected, needs attention, or its projection raises. -/
inductive Projected where
  | raised
  | attention
  | lifecycle (projection : Projection)

def reviewLifecycleProjection (site : Site) (task : Task) : Projected :=
  match projectionEvent task with
  | none => .attention
  | some (status, event) =>
      match reviewLifecycleFields site status event with
      | none => .raised
      | some fields => .lifecycle ⟨status, fields, event⟩

/-- What the local record adopts. -/
def Projection.review (projection : Projection) : Review where
  status := projection.status
  finishedAt := if projection.status.Terminal then projection.event.map (·.occurredAt) else none
  finishedBy :=
    if projection.status.Terminal then
      projection.event.map fun event => "odoo_employee:" ++ toString event.actorEmployeeId
    else none
  resolutionNote :=
    if projection.status.Terminal then projection.event.map ReviewEvent.note else none

/-- A closed record is closed the way the task says. -/
def LocalTerminalMatches (record : Record) (projection : Projection) : Prop :=
  record.status.Terminal → projection.event.isSome ∧ record.status = projection.status ∧
    record.finishedAt = projection.event.map (·.occurredAt) ∧
    record.finishedBy =
      projection.event.map (fun event => "odoo_employee:" ++ toString event.actorEmployeeId) ∧
    record.resolutionNote = projection.event.map ReviewEvent.note

instance (record : Record) (projection : Projection) :
    Decidable (LocalTerminalMatches record projection) :=
  inferInstanceAs (Decidable (_ → _ ∧ _ ∧ _ ∧ _ ∧ _))

/-! ## The projection -/

theorem closing_eq {task : Task} {action : ReviewAction} {status shown : Status}
    {event : Option ReviewEvent} (closed : closing task action status = some (shown, event)) :
    shown = status ∧ ∃ selected, event = some selected ∧ selected.note ≠ "" := by
  unfold closing at closed
  split at closed
  · cases closed
  · rename_i selected _
    split at closed
    · cases closed
    · rename_i holds
      cases closed
      exact ⟨rfl, selected, rfl, fun empty => holds (.inl empty)⟩

/-- A closed task has a closing event with a note. -/
theorem projectionEvent_note {task : Task} {status : Status} {event : Option ReviewEvent}
    (shown : projectionEvent task = some (status, event)) (terminal : status.Terminal) :
    ∃ selected, event = some selected ∧ selected.note ≠ "" := by
  unfold projectionEvent at shown
  split at shown
  · cases shown
  · split at shown
    · split at shown <;> cases shown
      exact absurd terminal (by decide)
    · split at shown
      · cases shown
      · dsimp only at shown
        split_ifs at shown
        cases shown
        exact absurd terminal (by decide)
    · exact (closing_eq shown).2
    · exact (closing_eq shown).2
    · cases shown

theorem reviewLifecycleProjection_eq {site : Site} {task : Task} {projection : Projection}
    (shown : reviewLifecycleProjection site task = .lifecycle projection) :
    projectionEvent task = some (projection.status, projection.event) ∧
      reviewLifecycleFields site projection.status projection.event = some projection.fields := by
  unfold reviewLifecycleProjection at shown
  split at shown
  · cases shown
  · rename_i status event projected
    split at shown
    · cases shown
    · rename_i fields made
      cases shown
      exact ⟨projected, made⟩

end PlantManager.Feedback.ReviewReconciler

import PlantManager.TimeOff.LocalRecord

/-! # Notifications of decisions

A poll that finds a leave in another state than its mirror raises a notification when the state is
a decision (`TimeOff.Notices.upsertOne`). At sign-in the kiosk shows an employee what
they did not acknowledge, and the form acknowledges what it showed. One leave is observed; its
request stays in the table, and only polls change it.
-/

namespace PlantManager.TimeOff.Notices

open LocalRecord Transition

inductive NoticeKind where
  | timeOff (kind : Kind)
  | saturdayWorkCancelled
  | anniversaryPtoReminder
  deriving DecidableEq, Repr

/-- A row of `employee_notifications`. -/
structure Notification where
  id : ℕ
  personOdooId : ℤ
  kind : NoticeKind
  timeOffRequestId : Option ℕ
  odooLeaveId : Option ℤ
  title : String
  body : String
  leaveDateFrom : Option ℤ
  leaveDateTo : Option ℤ
  presentedAt : Option ℤ
  acknowledgedAt : Option ℤ
  deriving DecidableEq

/-- The observed leave, the request that mirrors it, and how a day is written. -/
structure Site where
  shift : ShiftBounds
  requestId : ℕ
  leaveId : ℤ
  md : ℤ → String

/-- The mirror of the leave, and the notifications in the order in which they were created. -/
structure World where
  row : Option Row
  notices : List Notification
  nextId : ℕ
  deriving DecidableEq

inductive Action where
  /-- A poll observes the leave. -/
  | observe (leave : Leave) (enabled : Bool) (today : ℤ)
  | signIn (person now : ℤ)
  | acknowledge (person : ℤ) (ids : List ℕ) (now : ℤ)
  /-- A notification about something else is created. -/
  | other (notice : Notification)

variable (site : Site)

/-! ## Raising a notification -/

def dateSpanLabel (dateFrom dateTo : ℤ) : String :=
  if dateTo ≠ dateFrom then site.md dateFrom ++ " – " ++ site.md dateTo else site.md dateFrom

def render (kind : Kind) (row : Row) : String × String :=
  let span := dateSpanLabel site row.dateFrom row.dateTo
  match kind with
  | .approved => ("Time off approved", s!"Your time off for {span} was approved. ✅")
  | .denied =>
      ("Time off denied",
        s!"Your time off request for {span} was denied. ❌ See a supervisor if you have questions.")
  | .cancelled =>
      ("Time off cancelled",
        s!"Your approved time off for {span} was cancelled. ⚠️ " ++
          "See a supervisor if you have questions.")

def Notification.OfRequest (notice : Notification) : Prop :=
  notice.timeOffRequestId = some site.requestId

instance : DecidablePred fun notice : Notification => notice.OfRequest site :=
  fun notice => inferInstanceAs (Decidable (notice.timeOffRequestId = some site.requestId))

def notification (id : ℕ) (kind : Kind) (row : Row) : Notification where
  id := id
  personOdooId := row.personOdooId
  kind := .timeOff kind
  timeOffRequestId := some site.requestId
  odooLeaveId := row.odooLeaveId
  title := (render site kind row).1
  body := (render site kind row).2
  leaveDateFrom := some row.dateFrom
  leaveDateTo := some row.dateTo
  presentedAt := none
  acknowledgedAt := none

/-- A request keeps its one notification of a kind; the ID is used up in any case. -/
def createTimeOffNotification (world : World) (kind : Kind) (row : Row) : World :=
  { world with
    notices :=
      if ∃ notice ∈ world.notices, notice.OfRequest site ∧ notice.kind = .timeOff kind then
        world.notices
      else world.notices ++ [notification site world.nextId kind row]
    nextId := world.nextId + 1 }

def maybeNotifyResolution (enabled : Bool) (today : ℤ) (world : World) (old : RequestState)
    (new : Row) : World :=
  if enabled then
    match resolutionKind new.state with
    | none => world
    | some kind =>
        if old = .draftCancel ∨ new.dateTo < today then world
        else createTimeOffNotification site world kind new
  else world

/-! ## The poll -/

/-- The mirror of one leave. A leave that the table does not take raises, and nothing is stored. -/
def upsertOne (world : World) (leave : Leave) (enabled : Bool) (today : ℤ) : World :=
  match mirror site.shift leave with
  | none => world
  | some (state, captured) =>
      match world.row with
      | some existing =>
          if existing.localRecord || unchanged existing state captured then world
          else
            let new : Row := { existing with toCaptured := captured, state := state }
            let written := { world with row := some new }
            if existing.state = state then written
            else maybeNotifyResolution site enabled today written existing.state new
      | none =>
          let new : Row :=
            { toCaptured := captured, state := state, localRecord := false
              odooLeaveId := some site.leaveId }
          let written := { world with row := some new }
          if state = .validate then maybeNotifyResolution site enabled today written .draft new
          else written

/-- The decision that a poll finds the leave changed into. A leave that is new is compared with a
draft if it is approved. -/
def World.decided (world : World) (leave : Leave) : Option (Kind × Captured) :=
  match mirror site.shift leave with
  | none => none
  | some (state, captured) =>
      match world.row with
      | some existing =>
          if existing.state = state then none
          else (resolutionKind state).map fun kind => (kind, captured)
      | none => if state = .validate then some (.approved, captured) else none

/-! ## The kiosk -/

def listUnacknowledged (person : ℤ) (notices : List Notification) : List Notification :=
  notices.filter fun notice => notice.personOdooId = person ∧ notice.acknowledgedAt = none

/-- What the listing stamps. -/
def present (person now : ℤ) (notice : Notification) : Notification :=
  if notice.personOdooId = person ∧ notice.acknowledgedAt = none then
    { notice with presentedAt := some (notice.presentedAt.getD now) }
  else notice

def acknowledgePresented (person : ℤ) (ids : List ℕ) (now : ℤ) (notice : Notification) :
    Notification :=
  if notice.id ∈ ids ∧ notice.personOdooId = person ∧ notice.presentedAt ≠ none ∧
      notice.acknowledgedAt = none then
    { notice with acknowledgedAt := some now }
  else notice

def step (world : World) : Action → Option World
  | .observe leave enabled today => some (upsertOne site world leave enabled today)
  | .signIn person now =>
      some { world with notices := world.notices.map (present person now) }
  | .acknowledge person ids now =>
      some { world with notices := world.notices.map (acknowledgePresented person ids now) }
  | .other notice =>
      if notice.OfRequest site then none
      else
        some { world with
          notices := world.notices ++
            [{ notice with id := world.nextId, presentedAt := none, acknowledgedAt := none }]
          nextId := world.nextId + 1 }

end PlantManager.TimeOff.Notices

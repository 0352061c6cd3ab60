import PlantManager.Saturday.Recruiting
import PlantManager.Staffing.Schedule
import PlantManager.Transition.Runs

/-! # A Saturday recruiting round

The operations on one day's round, its openings and its responses. Each is one transaction under
the lock of the day, so an operation that raises changes nothing. Skills and required skills are
fixed during a round; whether a person can volunteer, and the company holiday of the day, are
looked up anew by each operation.
-/

namespace PlantManager.Saturday

open Checks Mapping Staffing

/-- The work centers, and what people can do. -/
structure Plant where
  wcName : ℤ → String
  requiredSkills : ℤ → List String
  level : ℤ → String → ℤ
  roster : Roster

inductive RoundStatus where
  | recruiting | closed | published | cancelled
deriving DecidableEq, Repr

inductive ResponseStatus where
  | later | declined | committed | cancelled
deriving DecidableEq, Repr

inductive DayKind where
  | saturday | holiday
deriving DecidableEq, Repr

/-- A row of `saturday_recruitments`. -/
structure Recruitment where
  status : RoundStatus
  shiftStart : ℕ
  shiftEnd : ℕ
  responseDeadline : ℤ
  dayKind : DayKind
  eventName : Option String
  holidayOdooId : Option ℤ
  activatedBy : Option String
  activatedAt : ℤ
  closedAt : Option ℤ
  publishedAt : Option ℤ
  cancelledBy : Option String
  cancelledAt : Option ℤ
deriving DecidableEq

/-- A row of `saturday_work_responses`. -/
structure Response where
  status : ResponseStatus
  availabilityStart : Option ℕ
  availabilityEnd : Option ℕ
  eligibleWcIds : Finset ℤ
  respondedAt : ℤ
  committedAt : Option ℤ
  cancelledAt : Option ℤ
  cancelledBy : Option String
  cancellationReason : Option String
deriving DecidableEq

/-- The rows of a day. -/
structure Tables (H : Type) where
  recruitment : Option Recruitment
  openings : SortedMap ℤ ℕ
  responses : SortedMap ℤ Response
  schedule : Option (Stored H)

variable {H : Type}

/-! ## Reading -/

/-- The openings whose work centers require a skill. -/
def bundleOpenings (plant : Plant) (tables : Tables H) : List Opening :=
  (tables.openings.entries.filter fun entry => plant.requiredSkills entry.1 ≠ []).map fun entry =>
    ⟨entry.1, plant.wcName entry.1, entry.2, plant.requiredSkills entry.1⟩

def committedResponses (tables : Tables H) : List (ℤ × Response) :=
  tables.responses.entries.filter fun entry => entry.2.status = .committed

def commitmentOf (entry : ℤ × Response) : Commitment := ⟨entry.1, entry.2.eligibleWcIds⟩

def lockRecruitment (tables : Tables H) : Except Failure Recruitment :=
  match tables.recruitment with
  | none => .error (.lifecycleConflict "No Saturday recruiting round exists for this date")
  | some recruitment => .ok recruitment

def requireOpen (recruitment : Recruitment) (now : ℤ) : Except Failure Unit :=
  raiseIf (recruitment.status ≠ .recruiting ∨ recruitment.responseDeadline ≤ now)
    (.recruitingClosed "Saturday work sign-up is closed. Contact a manager to make a change.")

def eligibleWcIdsForPerson (plant : Plant) (canVolunteer : Bool) (person : ℤ)
    (openings : List Opening) : Finset ℤ :=
  if canVolunteer then eligibleWorkCenters (plant.level person) openings else ∅

def coverageWithCandidate (plant : Plant) (tables : Tables H) (person : ℤ)
    (eligibleWcIds : Finset ℤ) : Option Coverage :=
  matchCommitments (bundleOpenings plant tables)
    (((committedResponses tables).filter fun entry => entry.1 ≠ person).map commitmentOf ++
      [⟨person, eligibleWcIds⟩])

/-! ## Responses -/

def insertResponse (tables : Tables H) (person : ℤ) (status : ResponseStatus) (now : ℤ)
    (availability : Option (ℕ × ℕ)) (eligibleWcIds : Finset ℤ) : Tables H :=
  let written : Response :=
    { status := status
      availabilityStart := availability.map Prod.fst
      availabilityEnd := availability.map Prod.snd
      eligibleWcIds := eligibleWcIds
      respondedAt := now
      committedAt := if status = .committed then some now else none
      cancelledAt := none
      cancelledBy := none
      cancellationReason := none }
  { tables with
    responses := tables.responses.set person
      (match tables.responses.get person with
      | none => written
      | some existing =>
          { written with
            cancelledAt := existing.cancelledAt
            cancelledBy := existing.cancelledBy
            cancellationReason := existing.cancellationReason }) }

def finalized : Failure := .lifecycleConflict "Your Saturday response has already been finalized"

def justFilled : Failure :=
  .noCompatibleOpening "That opening was just filled. You have not been scheduled."

/-- Record a non-reserving Later response. -/
def recordLater (plant : Plant) (person : ℤ) (canVolunteer : Bool) (now : ℤ)
    (tables : Tables H) : Except Failure (Tables H × ResponseStatus) := do
  let recruitment ← lockRecruitment tables
  requireOpen recruitment now
  match tables.responses.get person with
  | some existing =>
      if existing.status = .later then pure (tables, .later) else throw finalized
  | none =>
      let eligibleWcIds :=
        eligibleWcIdsForPerson plant canVolunteer person (bundleOpenings plant tables)
      raiseIf (eligibleWcIds = ∅ ∨
        (coverageWithCandidate plant tables person eligibleWcIds).isNone) justFilled
      pure (insertResponse tables person .later now none ∅, .later)

/-- Record a No response. -/
def decline (person : ℤ) (now : ℤ) (tables : Tables H) :
    Except Failure (Tables H × ResponseStatus) := do
  let recruitment ← lockRecruitment tables
  requireOpen recruitment now
  match tables.responses.get person with
  | some existing =>
      if existing.status = .declined then pure (tables, .declined)
      else if existing.status ≠ .later then throw finalized
      else pure (insertResponse tables person .declined now none ∅, .declined)
  | none => pure (insertResponse tables person .declined now none ∅, .declined)

/-- Whether a commitment may follow what the person answered before, and whether it repeats it. -/
def commitAfter (existing : Option Response) (start finish : ℕ) : Except Failure Bool :=
  match existing with
  | none => .ok false
  | some response =>
      if response.status = .committed ∧ response.availabilityStart = some start ∧
          response.availabilityEnd = some finish then .ok true
      else if response.status ≠ .later ∧ response.status ≠ .cancelled then .error finalized
      else .ok false

/-- Claim one compatible opening. -/
def commit (plant : Plant) (person : ℤ) (canVolunteer : Bool) (start finish : ℕ) (now : ℤ)
    (tables : Tables H) : Except Failure (Tables H × ResponseStatus) := do
  let recruitment ← lockRecruitment tables
  requireOpen recruitment now
  validateAvailability start finish recruitment.shiftStart recruitment.shiftEnd
  let repeated ← commitAfter (tables.responses.get person) start finish
  if repeated then pure (tables, .committed)
  else
    let eligibleWcIds :=
      eligibleWcIdsForPerson plant canVolunteer person (bundleOpenings plant tables)
    raiseIf (eligibleWcIds = ∅ ∨
      (coverageWithCandidate plant tables person eligibleWcIds).isNone) justFilled
    pure (insertResponse tables person .committed now (some (start, finish)) eligibleWcIds,
      .committed)

def cancel (person : ℤ) (now : ℤ) (actor reason : Option String) (tables : Tables H) :
    Except Failure (Tables H × ResponseStatus) :=
  match tables.responses.get person with
  | none => .error (.lifecycleConflict "No Saturday commitment exists to cancel")
  | some existing =>
      if existing.status = .cancelled then .ok (tables, .cancelled)
      else if existing.status ≠ .committed then
        .error (.lifecycleConflict "No Saturday commitment exists to cancel")
      else
        .ok ({ tables with
          responses := tables.responses.set person { existing with
            status := .cancelled
            cancelledAt := some now
            cancelledBy := actor
            cancellationReason := reason } }, .cancelled)

def cancelByEmployee (person : ℤ) (now : ℤ) (tables : Tables H) :
    Except Failure (Tables H × ResponseStatus) := do
  let recruitment ← lockRecruitment tables
  requireOpen recruitment now
  cancel person now none none tables

/-- A manager may cancel a commitment after the cutoff, with a reason; it comes without blanks
around it. -/
def cancelByManager (person : ℤ) (actor : Option String) (reason : String) (now : ℤ)
    (tables : Tables H) : Except Failure (Tables H × ResponseStatus) := do
  raiseIf (reason = "") (.lifecycleConflict "A cancellation reason is required")
  let _ ← lockRecruitment tables
  cancel person now actor (some reason) tables

/-! ## Rounds -/

/-- Cancel the whole day; the committed people are to be notified. -/
def cancelRecruitment (actor : Option String) (now : ℤ) (tables : Tables H) :
    Except Failure (Tables H × List ℤ) := do
  let recruitment ← lockRecruitment tables
  let committed := (committedResponses tables).map Prod.fst
  if recruitment.status = .cancelled then pure (tables, committed)
  else pure ({ tables with
    recruitment := some { recruitment with
      status := .cancelled
      cancelledBy := actor
      cancelledAt := some now }
    schedule := tables.schedule.map fun stored =>
      { stored with
        row := { stored.row with
          published := false
          assignmentSources := ∅
          saturdayAvailabilityOverrides := ∅ }
        assignments := ∅ } }, committed)

def validateShift (shiftStart shiftEnd : ℕ) : Except Failure Unit :=
  raiseIf (¬OnHalfHour shiftStart ∨ ¬OnHalfHour shiftEnd ∨ shiftEnd ≤ shiftStart)
    (.lifecycleConflict "Saturday shift hours must use 30-minute increments")

def normalizeCounts (requestedCounts : SortedMap ℤ ℤ) : Except Failure (SortedMap ℤ ℕ) := do
  raiseIf (requestedCounts.entries = [])
    (.lifecycleConflict "Choose at least one requested Saturday opening")
  raiseIf (¬∀ entry ∈ requestedCounts.entries, 0 < entry.2)
    (.lifecycleConflict "Requested Saturday opening counts must be positive integers")
  pure (requestedCounts.mapValues fun _ count => count.toNat)

def validatePositions (plant : Plant) (requestedCounts : SortedMap ℤ ℕ) : Except Failure Unit :=
  raiseIf (¬∀ entry ∈ requestedCounts.entries, plant.requiredSkills entry.1 ≠ [])
    (.lifecycleConflict "Every requested Saturday work center needs at least one required skill")

/-- The schedule that a round starts with: a posted holiday becomes a draft without assignments,
and a Saturday keeps nothing but its defaults. -/
def clearSchedule (plant : Plant) (dayKind : DayKind) :
    Option (Stored H) → Except Failure (Option (Stored H))
  | none => .ok none
  | some stored =>
      match dayKind with
      | .holiday =>
          let draft := draftFromPosted plant.roster
            (hydrate plant.roster stored.row stored.assignments stored.wcNotes)
          .ok (some { stored with
            row := { stored.row with
              published := draft.published
              publishedSnapshot := draft.publishedSnapshot
              publishedDelivery := draft.publishedDelivery
              assignmentSources := ∅
              saturdayAvailabilityOverrides := ∅ }
            assignments := ∅ })
      | .saturday =>
          if stored.row.published then
            .error (.lifecycleConflict "A published Saturday schedule cannot enter recruiting")
          else if ¬∀ entry ∈ stored.assignments.entries, ∀ person ∈ entry.2,
              ((stored.row.assignmentSources.get entry.1).bind fun sources =>
                sources.get person) = some .default then
            .error (.lifecycleConflict
              "Clear existing Saturday assignments before activating recruiting.")
          else if ∀ entry ∈ stored.assignments.entries, entry.2 = [] then .ok (some stored)
          else .ok (some { stored with
            row := { stored.row with assignmentSources := ∅ }
            assignments := ∅ })

/-- What a manager asks for when a round begins. -/
structure Activation where
  shiftStart : ℕ
  shiftEnd : ℕ
  responseDeadline : ℤ
  requestedCounts : SortedMap ℤ ℤ
  actor : Option String
  dayKind : DayKind
  eventName : Option String
  holidayOdooId : Option ℤ

/-- Begin a round, or find that it was begun with the same details. -/
def activate (plant : Plant) (isSaturday : Bool) (holiday : Option (ℤ × String))
    (asked : Activation) (now : ℤ) (tables : Tables H) : Except Failure (Tables H) := do
  raiseIf (asked.dayKind = .saturday ∧ isSaturday = false)
    (.saturdayRecruitingError "Saturday recruiting requires a Saturday")
  raiseIf (asked.dayKind = .holiday ∧ (holiday = none ∨
      holiday.map Prod.fst ≠ asked.holidayOdooId ∨ holiday.map Prod.snd ≠ asked.eventName))
    (.lifecycleConflict "Holiday recruiting must match the current company holiday")
  validateShift asked.shiftStart asked.shiftEnd
  raiseIf (asked.responseDeadline ≤ now)
    (.lifecycleConflict "Saturday response deadline has already passed")
  let requestedCounts ← normalizeCounts asked.requestedCounts
  validatePositions plant requestedCounts
  match tables.recruitment with
  | some existing =>
      raiseIf (¬(existing.status = .recruiting ∧ existing.dayKind = asked.dayKind ∧
          existing.eventName = asked.eventName ∧ existing.holidayOdooId = asked.holidayOdooId ∧
          existing.shiftStart = asked.shiftStart ∧ existing.shiftEnd = asked.shiftEnd ∧
          existing.responseDeadline = asked.responseDeadline ∧
          SortedMap.ofList ((bundleOpenings plant tables).map fun opening =>
            (opening.wcId, opening.requestedCount)) = requestedCounts))
        (.lifecycleConflict
          "Saturday recruiting has already been activated with different details")
      pure tables
  | none =>
      let schedule ← clearSchedule plant asked.dayKind tables.schedule
      pure { tables with
        recruitment := some
          { status := .recruiting
            shiftStart := asked.shiftStart
            shiftEnd := asked.shiftEnd
            responseDeadline := asked.responseDeadline
            dayKind := asked.dayKind
            eventName := asked.eventName
            holidayOdooId := asked.holidayOdooId
            activatedBy := asked.actor
            activatedAt := now
            closedAt := none
            publishedAt := none
            cancelledBy := none
            cancelledAt := none }
        openings := requestedCounts
        schedule := schedule }

/-- Replace unfilled openings. -/
def updateOpenings (plant : Plant) (requestedCounts : SortedMap ℤ ℤ) (shiftStart shiftEnd : ℕ)
    (tables : Tables H) : Except Failure (Tables H) := do
  validateShift shiftStart shiftEnd
  let requestedCounts ← normalizeCounts requestedCounts
  let recruitment ← lockRecruitment tables
  raiseIf (recruitment.status ≠ .recruiting ∧ recruitment.status ≠ .closed)
    (.lifecycleConflict "Saturday recruiting openings can no longer be changed")
  raiseIf ((shiftStart ≠ recruitment.shiftStart ∨ shiftEnd ≠ recruitment.shiftEnd) ∧
      committedResponses tables ≠ [])
    (.lifecycleConflict "Saturday shift hours lock after the first commitment")
  validatePositions plant requestedCounts
  raiseIf (recruitment.status = .closed ∧ ¬∀ entry ∈ requestedCounts.entries,
      ∃ old ∈ (bundleOpenings plant tables), old.wcId = entry.1 ∧ entry.2 ≤ old.requestedCount)
    (.lifecycleConflict "Closed recruiting can only reduce unfilled openings")
  let proposed : Tables H := { tables with
    recruitment := some { recruitment with shiftStart := shiftStart, shiftEnd := shiftEnd }
    openings := requestedCounts }
  raiseIf (matchCommitments (bundleOpenings plant proposed)
      ((committedResponses tables).map commitmentOf)).isNone
    (.lifecycleConflict "Requested openings cannot drop below committed Saturday coverage")
  pure proposed

/-- Close the round when its deadline is due; says how many rounds were closed. -/
def closeDue (now : ℤ) (tables : Tables H) : Tables H × ℕ :=
  match tables.recruitment with
  | none => (tables, 0)
  | some recruitment =>
      if recruitment.status = .recruiting ∧ recruitment.responseDeadline ≤ now then
        ({ tables with
          recruitment := some { recruitment with status := .closed, closedAt := some now } }, 1)
      else (tables, 0)

def markPublished (now : ℤ) (tables : Tables H) : Except Failure (Tables H) := do
  let recruitment ← lockRecruitment tables
  if recruitment.status = .published then pure tables
  else
    raiseIf (recruitment.status ≠ .closed)
      (.lifecycleConflict "Saturday recruiting must close before publishing")
    pure { tables with
      recruitment := some { recruitment with status := .published, publishedAt := some now } }

/-! ## Runs -/

inductive Operation where
  | recordLater (person : ℤ) (canVolunteer : Bool)
  | decline (person : ℤ)
  | commit (person : ℤ) (canVolunteer : Bool) (start finish : ℕ)
  | cancelByEmployee (person : ℤ)
  | cancelByManager (person : ℤ) (actor : Option String) (reason : String)
  | cancelRecruitment (actor : Option String)
  | activate (isSaturday : Bool) (holiday : Option (ℤ × String)) (asked : Activation)
  | updateOpenings (requestedCounts : SortedMap ℤ ℤ) (shiftStart shiftEnd : ℕ)
  | closeDue
  | markPublished

/-- What an operation commits, or why it raises. -/
def Operation.perform (plant : Plant) (now : ℤ) (tables : Tables H) :
    Operation → Except Failure (Tables H)
  | .recordLater person canVolunteer =>
      (Saturday.recordLater plant person canVolunteer now tables).map Prod.fst
  | .decline person => (Saturday.decline person now tables).map Prod.fst
  | .commit person canVolunteer start finish =>
      (Saturday.commit plant person canVolunteer start finish now tables).map Prod.fst
  | .cancelByEmployee person => (Saturday.cancelByEmployee person now tables).map Prod.fst
  | .cancelByManager person actor reason =>
      (Saturday.cancelByManager person actor reason now tables).map Prod.fst
  | .cancelRecruitment actor => (Saturday.cancelRecruitment actor now tables).map Prod.fst
  | .activate isSaturday holiday asked =>
      Saturday.activate plant isSaturday holiday asked now tables
  | .updateOpenings requestedCounts shiftStart shiftEnd =>
      Saturday.updateOpenings plant requestedCounts shiftStart shiftEnd tables
  | .closeDue => .ok (Saturday.closeDue now tables).1
  | .markPublished => Saturday.markPublished now tables

/-- An operation of an employee on the own response. -/
def Operation.byEmployee : Operation → Bool
  | .recordLater _ _ | .decline _ | .commit _ _ _ _ | .cancelByEmployee _ => true
  | _ => false

structure State (H : Type) where
  now : ℤ
  tables : Tables H

def State.initial (now : ℤ) (schedule : Option (Stored H)) : State H where
  now := now
  tables := ⟨none, ∅, ∅, schedule⟩

/-- An operation runs at an instant not before the last one. A transaction that raises is rolled
back. -/
def step (plant : Plant) (state : State H) (action : ℤ × Operation) : Option (State H) :=
  if action.1 < state.now then none
  else some ⟨action.1, (action.2.perform plant action.1 state.tables).toOption.getD state.tables⟩

end PlantManager.Saturday

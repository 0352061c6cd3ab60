import PlantManager.Mapping.SortedMap
import PlantManager.Transition.Runs

/-! # The inbox reconciler

A tick compares the items that are open now with a mirror of the items that were open before,
and logs a departed item as resolved automatically. The ticks of one process run one after the
other; the source of each item, the people that resolve items and the correction jobs are the
environment. Instants are microseconds.
-/

namespace PlantManager.Inbox

open Mapping

/-- The canonical kinds of items. -/
inductive ItemKind where
  | odooRosterSync | autoLunch | quickPunchFix | quickPunch | assignment | plantSchedule
  | saturdayRecruiting | unexpectedWorkers | late | missingWc | missedPunchOut | timeOff
  | absencePto | breakdown | attendanceMissingLocation | attendanceUnmappedLocation
  | attendanceConflictingLocation | attendanceDuplicateLocation
  | attendanceDepartmentRepairFailed | attendanceSourceStale | attendanceCutoverBlocked
  | productionSourceUnavailable | productionUnassignedRun
deriving DecidableEq, Repr

/-- The sections of a snapshot. -/
inductive SectionId where
  | odooRosterSync | autoLunch | quickPunch | assignments | plantSchedule | saturdayRecruiting
  | unexpectedWorkers | late | missingWc | missedPunchOut | timeOff | breakdown
  | attendanceMissingLocation | attendanceUnmappedLocation | attendanceConflictingLocation
  | attendanceDuplicateLocation | attendanceDepartmentRepairFailed | attendanceSourceStale
  | attendanceCutoverBlocked | productionSourceUnavailable | productionUnassignedRun
deriving DecidableEq, Repr

/-- What a snapshot is built from. -/
inductive Source where
  | timeclockRoster | autoLunch | quickPunchFixer | assignmentsToDo | plantSchedule
  | saturdayRecruiting | unexpectedWorkers | lateAbsence | missingWorkCenter | missedPunchOut
  | pendingTimeOff | pastAbsencePto | machineBreakdown | attendanceTimeline | strictProduction
  | workCenterList
deriving DecidableEq, Repr

inductive LocationMode where
  | off | shadow | live
deriving DecidableEq, Repr

def sectionKind : SectionId → ItemKind
  | .odooRosterSync => .odooRosterSync
  | .autoLunch => .autoLunch
  | .quickPunch => .quickPunchFix
  | .assignments => .assignment
  | .plantSchedule => .plantSchedule
  | .saturdayRecruiting => .saturdayRecruiting
  | .unexpectedWorkers => .unexpectedWorkers
  | .late => .late
  | .missingWc => .missingWc
  | .missedPunchOut => .missedPunchOut
  | .timeOff => .timeOff
  | .breakdown => .breakdown
  | .attendanceMissingLocation => .attendanceMissingLocation
  | .attendanceUnmappedLocation => .attendanceUnmappedLocation
  | .attendanceConflictingLocation => .attendanceConflictingLocation
  | .attendanceDuplicateLocation => .attendanceDuplicateLocation
  | .attendanceDepartmentRepairFailed => .attendanceDepartmentRepairFailed
  | .attendanceSourceStale => .attendanceSourceStale
  | .attendanceCutoverBlocked => .attendanceCutoverBlocked
  | .productionSourceUnavailable => .productionSourceUnavailable
  | .productionUnassignedRun => .productionUnassignedRun

def sectionKinds : SectionId → List ItemKind
  | .timeOff => [.timeOff, .absencePto]
  -- Older mirror rows used the raw section id.
  | .quickPunch => [.quickPunchFix, .quickPunch]
  | other => [sectionKind other]

def kindSource : ItemKind → Source
  | .odooRosterSync => .timeclockRoster
  | .autoLunch => .autoLunch
  | .quickPunchFix | .quickPunch => .quickPunchFixer
  | .assignment => .assignmentsToDo
  | .plantSchedule => .plantSchedule
  | .saturdayRecruiting => .saturdayRecruiting
  | .unexpectedWorkers => .unexpectedWorkers
  | .late => .lateAbsence
  | .missingWc => .missingWorkCenter
  | .missedPunchOut => .missedPunchOut
  | .timeOff => .pendingTimeOff
  | .absencePto => .pastAbsencePto
  | .breakdown => .machineBreakdown
  | .attendanceMissingLocation | .attendanceUnmappedLocation | .attendanceConflictingLocation
  | .attendanceDuplicateLocation | .attendanceDepartmentRepairFailed | .attendanceSourceStale
  | .attendanceCutoverBlocked => .attendanceTimeline
  | .productionSourceUnavailable | .productionUnassignedRun => .strictProduction

/-- The kinds whose items a correction keeps open until it is complete. -/
def correctionLinkedKinds : List ItemKind :=
  [.attendanceMissingLocation, .attendanceUnmappedLocation, .attendanceConflictingLocation,
    .productionUnassignedRun]

/-! ## Snapshots -/

/-- A section shows some of the items that it counts. -/
structure SectionState where
  id : SectionId
  rows : ℕ
  count : ℕ
  complete : Bool
deriving DecidableEq

structure QueueRow (Key : Type*) where
  itemKey : Option Key
  sectionId : SectionId
  /-- The action of the row has the type `absence_pto`. -/
  absencePto : Bool
  name : Option String
  categoryLabel : Option String
  priority : Option String

def QueueRow.itemKind {Key : Type*} (row : QueueRow Key) : ItemKind :=
  if row.absencePto then .absencePto else sectionKind row.sectionId

/-- What is open now. A key names its kind, and a section is listed once. -/
structure Snapshot {Key : Type*} (kindOf : Key → ItemKind) where
  attendanceLocationMode : LocationMode
  sourceErrors : List Source
  sections : List SectionState
  queue : List (QueueRow Key)
  listedOnce : (sections.map SectionState.id).Nodup
  keyed : ∀ row ∈ queue, ∀ key ∈ row.itemKey, row.itemKind = kindOf key

structure Info where
  itemKind : ItemKind
  personName : Option String
  categoryLabel : Option String
  priority : Option String
deriving DecidableEq

/-- A row of `inbox_open_items`; `openedBy` is the tick that inserted it. -/
structure OpenItem extends Info where
  firstSeen : ℤ
  lastSeen : ℤ
  openedBy : ℕ
deriving DecidableEq

section Plan

variable {Key : Type*} [LinearOrder Key] {kindOf : Key → ItemKind}

def openNowFromSnapshot (snapshot : Snapshot kindOf) : SortedMap Key Info :=
  snapshot.queue.foldl (fun out row =>
    match row.itemKey with
    | none => out
    | some key =>
        out.set key
          { itemKind := row.itemKind
            personName := row.name
            categoryLabel := row.categoryLabel
            priority := row.priority }) ∅

/-- The kinds that are fully enumerated: the source did not err, and no rows are hidden. -/
def completeKinds (snapshot : Snapshot kindOf) : List ItemKind :=
  (if snapshot.attendanceLocationMode = .off then [.attendanceCutoverBlocked] else []) ++
    snapshot.sections.flatMap fun listed =>
      if listed.complete = false ∨ listed.rows < listed.count then []
      else (sectionKinds listed.id).filter fun kind => kindSource kind ∉ snapshot.sourceErrors

structure Plan (Key : Type*) where
  arrivals : List Key
  stillOpen : List Key
  departed : List Key

def planReconcile (openNow : SortedMap Key Info) (prev : SortedMap Key OpenItem)
    (completeKinds : List ItemKind) : Plan Key where
  arrivals := openNow.keys.filter fun key => prev.get key = none
  stillOpen := openNow.keys.filter fun key => prev.get key ≠ none
  departed := (prev.entries.filter fun entry =>
    openNow.get entry.1 = none ∧ entry.2.itemKind ∈ completeKinds).map Prod.fst

end Plan

/-! ## Events -/

inductive EventAction where
  | autoResolved
  | undo
  /-- What a person did. -/
  | other (action : String)
deriving DecidableEq

/-- A row of `inbox_events`; an automatic resolution closes the row that the tick `episode`
inserted. -/
structure Event (Key : Type*) where
  itemKind : ItemKind
  itemKey : Key
  personName : Option String
  categoryLabel : Option String
  action : EventAction
  outcome : Option String
  actorName : Option String
  resolvedAt : ℤ
  episode : ℕ
deriving DecidableEq

/-- The newest correction job of an item is complete, or has any other status. -/
inductive JobStatus where
  | unfinished | complete
deriving DecidableEq

/-- An item that a person made leave the inbox, whose event is still to be written. -/
structure Resolution (Key : Type*) where
  key : Key
  episode : ℕ
  leftAt : ℤ
deriving DecidableEq

/-- The tables, the jobs, and what people are about to write. `resolved` and `latest` are kept
for the statements: the rows that a person resolved, and the items in the latest complete
snapshot of each kind. -/
structure State (Key : Type*) [LinearOrder Key] where
  now : ℤ
  ticks : ℕ
  items : SortedMap Key OpenItem
  events : List (Event Key)
  jobs : Key → Option JobStatus
  resolving : List (Resolution Key)
  resolved : List (Key × ℕ)
  latest : ItemKind → List Key

variable {Key : Type*} [LinearOrder Key] {kindOf : Key → ItemKind}

def State.initial (Key : Type*) [LinearOrder Key] (now : ℤ) : State Key where
  now := now
  ticks := 0
  items := ∅
  events := []
  jobs := fun _ => none
  resolving := []
  resolved := []
  latest := fun _ => []

/-- Microseconds. -/
def autoResolveGrace : ℤ := 90000000

/-- A person did something to the item since an instant. -/
def HasHumanEventSince (events : List (Event Key)) (key : Key) (since : ℤ) : Prop :=
  ∃ event ∈ events, event.itemKey = key ∧ since ≤ event.resolvedAt ∧
    event.action ≠ .autoResolved ∧ event.action ≠ .undo

instance (events : List (Event Key)) (key : Key) (since : ℤ) :
    Decidable (HasHumanEventSince events key since) :=
  inferInstanceAs (Decidable (∃ event ∈ events, _))

def CorrectionAllowsResolution (state : State Key) (key : Key) : Prop :=
  ∀ status ∈ state.jobs key, status = .complete

instance (state : State Key) (key : Key) : Decidable (CorrectionAllowsResolution state key) :=
  inferInstanceAs (Decidable (∀ status ∈ state.jobs key, status = .complete))

/-! ## A tick -/

def upsert (state : State Key) (key : Key) (info : Info) : State Key :=
  { state with
    items := state.items.set key
      (match state.items.get key with
      | none => { info with firstSeen := state.now, lastSeen := state.now, openedBy := state.ticks }
      | some row =>
          { row with
            lastSeen := state.now
            personName := info.personName
            categoryLabel := info.categoryLabel
            priority := info.priority }) }

def upsertAll (openNow : SortedMap Key Info) (state : State Key) (keys : List Key) : State Key :=
  keys.foldl (fun state key =>
    match openNow.get key with
    | none => state
    | some info => upsert state key info) state

/-- Claim a departure and record its event, unless the row has changed or a correction is not
complete. -/
def delete (state : State Key) (key : Key) (lastSeen : ℤ) (autoEvent : Option (Event Key))
    (correctionLinked : Bool) : State Key :=
  if correctionLinked = true ∧ ¬CorrectionAllowsResolution state key then state
  else
    match state.items.get key with
    | none => state
    | some row =>
        if row.lastSeen ≠ lastSeen then state
        else
          { state with
            items := state.items.erase key
            events := autoEvent.toList ++ state.events }

def autoEvent (now : ℤ) (key : Key) (row : OpenItem) : Event Key where
  itemKind := row.itemKind
  itemKey := key
  personName := row.personName
  categoryLabel := row.categoryLabel
  action := .autoResolved
  outcome := some "Auto-resolved"
  actorName := none
  resolvedAt := now
  episode := row.openedBy

/-- What a tick does with an item that departed. The transaction of a key in `failing` fails,
which is logged. -/
def depart (failing : List Key) (prev : SortedMap Key OpenItem) (state : State Key) (key : Key) :
    State Key :=
  match prev.get key with
  | none => state
  | some row =>
      if state.now - row.lastSeen < autoResolveGrace then state
      else if key ∈ failing then state
      else
        delete state key row.lastSeen
          (if HasHumanEventSince state.events key row.firstSeen then none
            else some (autoEvent state.now key row))
          (decide (row.itemKind ∈ correctionLinkedKinds))

/-- The items that a snapshot shows, of the kinds that it enumerates fully. -/
def latestAfter (snapshot : Snapshot kindOf) (latest : ItemKind → List Key) :
    ItemKind → List Key := fun kind =>
  if kind ∈ completeKinds snapshot then
    (openNowFromSnapshot snapshot).keys.filter fun key => kindOf key = kind
  else latest kind

def runOnce (snapshot : Snapshot kindOf) (failing : List Key) (state : State Key) : State Key :=
  let openNow := openNowFromSnapshot snapshot
  let prev := state.items
  let actions := planReconcile openNow prev (completeKinds snapshot)
  let arrived := upsertAll openNow state actions.arrivals
  let seen := upsertAll openNow arrived actions.stillOpen
  let reconciled := actions.departed.foldl (depart failing prev) seen
  { reconciled with
    ticks := state.ticks + 1
    latest := latestAfter snapshot state.latest }

/-! ## Runs -/

inductive Action (kindOf : Key → ItemKind) where
  | tick (snapshot : Snapshot kindOf) (failing : List Key)
  /-- A person makes an item leave the inbox, and is about to write the event. -/
  | resolve (key : Key)
  /-- The event is written. -/
  | record (resolution : Resolution Key) (action : String) (event : Event Key)
  | undo (event : Event Key)
  | job (key : Key) (status : Option JobStatus)
  | wait (duration : ℕ)

/-- One step. The event of a resolution is written before its grace period is over. -/
def step (state : State Key) : Action kindOf → Option (State Key)
  | .tick snapshot failing => some (runOnce snapshot failing state)
  | .resolve key =>
      match state.items.get key with
      | none => some state
      | some row =>
          some { state with
            resolving := ⟨key, row.openedBy, state.now⟩ :: state.resolving
            resolved := (key, row.openedBy) :: state.resolved }
  | .record resolution action event =>
      if resolution ∈ state.resolving then
        some { state with
          resolving := state.resolving.erase resolution
          events := { event with
            itemKey := resolution.key
            action := .other action
            resolvedAt := state.now } :: state.events }
      else none
  | .undo event =>
      some { state with
        events := { event with action := .undo, resolvedAt := state.now } :: state.events }
  | .job key status =>
      some { state with jobs := fun other => if other = key then status else state.jobs other }
  | .wait duration =>
      if ∀ resolution ∈ state.resolving,
          state.now + duration ≤ resolution.leftAt + autoResolveGrace then
        some { state with now := state.now + duration }
      else none

end PlantManager.Inbox

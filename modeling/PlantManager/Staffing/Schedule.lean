import PlantManager.Mapping.SortedMap

/-! # A day's schedule

The schedule that the pages edit, the tables that keep it, and the writes of one day. Work
centers and people are named; the roster says which names the tables know. The hours of a day
are left abstract.
-/

namespace PlantManager.Staffing

open Mapping

variable {H : Type*}

inductive AssignmentSource where
  | default | generated | manual
deriving DecidableEq, Repr

inductive SaturdayAvailability where
  | unassigned | off
deriving DecidableEq, Repr

abbrev Assignments := SortedMap String (List String)

abbrev AssignmentSources := SortedMap String (SortedMap String AssignmentSource)

/-- Which posted version was delivered, and how; a missing or empty text is `none`. -/
structure Delivery where
  version : Option String
  printedAt : Option String
  slackPostedAt : Option String
  slackPermalink : Option String
deriving DecidableEq

instance : EmptyCollection Delivery := ⟨⟨none, none, none, none⟩⟩

/-- The posted-visible fields of a schedule. -/
structure Snapshot (H : Type*) where
  assignments : Assignments
  notes : String
  wcNotes : SortedMap String String
  testingDay : Bool
  customHours : Option H
  publishedDelivery : Delivery
  rotationMode : String
  assignmentSources : AssignmentSources
  autoEnabledWorkCenters : List String
  saturdayAvailabilityOverrides : SortedMap String SaturdayAvailability
deriving DecidableEq

structure Schedule (H : Type*) where
  published : Bool
  assignments : Assignments
  notes : String
  wcNotes : SortedMap String String
  testingDay : Bool
  /-- The posted version of a draft. -/
  publishedSnapshot : Option (Snapshot H)
  publishedDelivery : Delivery
  customHours : Option H
  rotationMode : String
  assignmentSources : AssignmentSources
  autoEnabledWorkCenters : List String
  saturdayAvailabilityOverrides : SortedMap String SaturdayAvailability
deriving DecidableEq

/-- A row of `schedules`. -/
structure Row (H : Type*) where
  published : Bool
  testingDay : Bool
  notes : String
  customHours : Option H
  publishedSnapshot : Option (Snapshot H)
  publishedDelivery : Delivery
  recycledRotationMode : String
  saturdayAvailabilityOverrides : SortedMap String SaturdayAvailability
  autoEnabledWorkCenters : List String
  assignmentSources : AssignmentSources
deriving DecidableEq

/-- The row of a day with its rows in `schedule_assignments` and `schedule_wc_notes`. -/
structure Stored (H : Type*) where
  row : Row H
  assignments : Assignments
  wcNotes : SortedMap String String
deriving DecidableEq

/-- The names that the tables know, and the locations of the plant in their order. -/
structure Roster where
  workCenters : List String
  people : List String
  locations : List String

/-- The pseudo-location of the people that are off. -/
def timeOffKey : String := "__time_off"

def rotationModeOr (mode : String) : String := if mode = "" then "normal" else mode

def normalizeAutoEnabledWorkCenters (roster : Roster) (names : List String) : List String :=
  roster.locations.filter (· ∈ names)

/-! ## Reading -/

def emptySchedule : Schedule H where
  published := false
  assignments := ∅
  notes := ""
  wcNotes := ∅
  testingDay := false
  publishedSnapshot := none
  publishedDelivery := ∅
  customHours := none
  rotationMode := "normal"
  assignmentSources := ∅
  autoEnabledWorkCenters := []
  saturdayAvailabilityOverrides := ∅

/-- A schedule from what three queries found. -/
def hydrate (roster : Roster) (row : Row H) (assignments : Assignments)
    (wcNotes : SortedMap String String) : Schedule H where
  published := row.published
  assignments := assignments
  notes := row.notes
  wcNotes := wcNotes
  testingDay := row.testingDay
  publishedSnapshot := row.publishedSnapshot
  publishedDelivery := row.publishedDelivery
  customHours := row.customHours
  rotationMode := rotationModeOr row.recycledRotationMode
  assignmentSources := row.assignmentSources
  autoEnabledWorkCenters := normalizeAutoEnabledWorkCenters roster row.autoEnabledWorkCenters
  saturdayAvailabilityOverrides := row.saturdayAvailabilityOverrides

/-- The schedule that the tables hold. -/
def contentsOf (roster : Roster) : Option (Stored H) → Schedule H
  | none => emptySchedule
  | some stored => hydrate roster stored.row stored.assignments stored.wcNotes

/-! ## Writing -/

/-- The columns that a schedule is saved in. -/
def rowOf (roster : Roster) (schedule : Schedule H) : Row H where
  published := schedule.published
  testingDay := schedule.testingDay
  notes := schedule.notes
  customHours := schedule.customHours
  publishedSnapshot := schedule.publishedSnapshot
  publishedDelivery := schedule.publishedDelivery
  recycledRotationMode := rotationModeOr schedule.rotationMode
  saturdayAvailabilityOverrides := schedule.saturdayAvailabilityOverrides
  autoEnabledWorkCenters :=
    normalizeAutoEnabledWorkCenters roster schedule.autoEnabledWorkCenters
  assignmentSources := schedule.assignmentSources

/-- The people of each work center that the tables know. -/
def storedAssignments (roster : Roster) (assignments : Assignments) : Assignments :=
  SortedMap.ofList (assignments.entries.filterMap fun entry =>
    let people := entry.2.filter (· ∈ roster.people)
    if entry.1 = timeOffKey ∨ entry.1 ∉ roster.workCenters ∨ people = [] then none
    else some (entry.1, people))

def storedNotes (roster : Roster) (wcNotes : SortedMap String String) :
    SortedMap String String :=
  SortedMap.ofList (wcNotes.entries.filter fun entry =>
    entry.2 ≠ "" ∧ entry.1 ∈ roster.workCenters)

/-- A person is assigned to a work center once, or the insert fails. -/
def Storable (roster : Roster) (schedule : Schedule H) : Prop :=
  ∀ entry ∈ (storedAssignments roster schedule.assignments).entries, entry.2.Nodup

instance (roster : Roster) (schedule : Schedule H) : Decidable (Storable roster schedule) :=
  inferInstanceAs (Decidable (∀ entry ∈ _, _))

def storedOf (roster : Roster) (schedule : Schedule H) : Stored H where
  row := rowOf roster schedule
  assignments := storedAssignments roster schedule.assignments
  wcNotes := storedNotes roster schedule.wcNotes

/-- The snapshot of a row that a save replaces. A draft of the posted version keeps what was
recorded of its delivery since it was read. -/
def savedSnapshot (stored excluded : Row H) : Option (Snapshot H) :=
  match excluded.publishedSnapshot with
  | none => none
  | some snapshot =>
      if stored.published ∧ ¬excluded.published ∧ stored.publishedDelivery.version ≠ none ∧
          stored.publishedDelivery.version = snapshot.publishedDelivery.version then
        some { snapshot with publishedDelivery := stored.publishedDelivery }
      else some snapshot

/-- Save a whole schedule; the auto-enabled work centers belong to their own toggle. -/
def saveScheduleWithCursor (roster : Roster) (schedule : Schedule H) :
    Option (Stored H) → Stored H
  | none => storedOf roster schedule
  | some stored =>
      let excluded := rowOf roster schedule
      { storedOf roster schedule with
        row := { excluded with
          publishedSnapshot := savedSnapshot stored.row excluded
          autoEnabledWorkCenters := stored.row.autoEnabledWorkCenters } }

/-- Create the schedule of a day that has no row. -/
def createScheduleIfAbsent (roster : Roster) (schedule : Schedule H) :
    Option (Stored H) → Option (Stored H)
  | none => some (storedOf roster schedule)
  | some stored => some stored

/-- What is recorded of a delivery, in JSON `||`. -/
def Delivery.merge (delivery patch : Delivery) : Delivery where
  version := patch.version.or delivery.version
  printedAt := patch.printedAt.or delivery.printedAt
  slackPostedAt := patch.slackPostedAt.or delivery.slackPostedAt
  slackPermalink := patch.slackPermalink.or delivery.slackPermalink

/-- Record how a posted version was delivered, in the row or in the snapshot of its draft. -/
def recordDelivery (version : String) (patch : Delivery) :
    Option (Stored H) → Option (Stored H)
  | none => none
  | some stored =>
      let row := stored.row
      if row.published then
        if row.publishedDelivery.version = some version then
          some { stored with row := { row with
            publishedDelivery := row.publishedDelivery.merge patch } }
        else some stored
      else
        match row.publishedSnapshot with
        | none => some stored
        | some snapshot =>
            if snapshot.publishedDelivery.version = some version then
              some { stored with row := { row with
                publishedSnapshot := some { snapshot with
                  publishedDelivery := snapshot.publishedDelivery.merge patch } } }
            else some stored

/-- The posted-visible fields of a schedule, to be kept with its draft. -/
def snapshotOf (roster : Roster) (schedule : Schedule H) : Snapshot H where
  assignments := schedule.assignments
  notes := schedule.notes
  wcNotes := schedule.wcNotes
  testingDay := schedule.testingDay
  customHours := schedule.customHours
  publishedDelivery := schedule.publishedDelivery
  rotationMode := rotationModeOr schedule.rotationMode
  assignmentSources := schedule.assignmentSources
  autoEnabledWorkCenters :=
    normalizeAutoEnabledWorkCenters roster schedule.autoEnabledWorkCenters
  saturdayAvailabilityOverrides := schedule.saturdayAvailabilityOverrides

/-- The draft that an edit of a posted schedule starts from. -/
def draftFromPosted (roster : Roster) (schedule : Schedule H) : Schedule H :=
  if schedule.published then
    { schedule with
      publishedSnapshot := schedule.publishedSnapshot.or (some (snapshotOf roster schedule))
      published := false
      publishedDelivery := ∅ }
  else schedule

/-- The schedule without a person's assignments and sources, and whether it is another one. -/
def scheduleWithoutPerson (schedule : Schedule H) (person : String) : Schedule H × Bool :=
  let assignments := schedule.assignments.mapValues fun _ names => names.filter (· ≠ person)
  let sources := SortedMap.ofList ((schedule.assignmentSources.mapValues fun _ people =>
    people.erase person).entries.filter fun entry => entry.2 ≠ ∅)
  ({ schedule with assignments := assignments, assignmentSources := sources },
    decide (assignments ≠ schedule.assignments ∨ sources ≠ schedule.assignmentSources))

theorem assignments_recordDelivery {version : String} {patch : Delivery} {stored next : Stored H}
    (recorded : recordDelivery version patch (some stored) = some next) :
    next.assignments = stored.assignments ∧ next.wcNotes = stored.wcNotes := by
  unfold recordDelivery at recorded
  dsimp only at recorded
  split at recorded
  · split at recorded
    · exact Option.some.inj recorded ▸ ⟨rfl, rfl⟩
    · exact Option.some.inj recorded ▸ ⟨rfl, rfl⟩
  · split at recorded
    · exact Option.some.inj recorded ▸ ⟨rfl, rfl⟩
    · split at recorded
      · exact Option.some.inj recorded ▸ ⟨rfl, rfl⟩
      · exact Option.some.inj recorded ▸ ⟨rfl, rfl⟩

theorem recordDelivery_isSome (version : String) (patch : Delivery) (stored : Stored H) :
    ∃ next, recordDelivery version patch (some stored) = some next := by
  unfold recordDelivery
  dsimp only
  split
  · split
    · exact ⟨_, rfl⟩
    · exact ⟨_, rfl⟩
  · split
    · exact ⟨_, rfl⟩
    · split
      · exact ⟨_, rfl⟩
      · exact ⟨_, rfl⟩

end PlantManager.Staffing

import PlantManager.Attendance.Projection
import PlantManager.TimeOff.Leaves
import PlantManager.Transition.Runs

/-! # Forklift completions

Runs fetch completions of a feed that only grows and store totals, events and how far a day is
covered. A snapshot is about one day (`Forklift.snapshotToday`), a backfill about all
days from an instant on (`Forklift.backfillHistory`). Each reads the clock, fetches,
and then writes one statement after another. Instants are counted in one unit from an epoch. The
columns of the tables that are always empty are left out, and so is the list of backups.
-/

namespace PlantManager.Forklift

open Attendance.Projection (PlantCalendar)

/-- Days and hours at the plant. -/
structure Site where
  calendar : PlantCalendar
  hourOf : ℤ → ℕ

/-- A completed call of the feed. -/
structure Item where
  id : String
  completedBy : String
  createdAt : ℤ
  workstationName : Option String
  onTime : Option Bool
  late : Option Bool
  responseMs : Option ℤ
  handlingMs : Option ℤ
  deriving DecidableEq

/-- A row of `forklift_completion_events`. -/
structure CompletionEvent where
  eventId : String
  driverId : String
  driverName : String
  createdAt : ℤ
  workstationName : Option String
  onTime : Option Bool
  late : Option Bool
  responseMs : Option ℤ
  handlingMs : Option ℤ
  deriving DecidableEq

/-- The names of drivers. -/
abbrev Names := String → Option String

def Names.name (names : Names) (driverId : String) : String :=
  match names driverId with
  | some name => if name = "" then driverId else name
  | none => driverId

def completionEvent (names : Names) (item : Item) : CompletionEvent where
  eventId := item.id
  driverId := item.completedBy
  driverName := names.name item.completedBy
  createdAt := item.createdAt
  workstationName := item.workstationName.filter (· ≠ "")
  onTime := item.onTime
  late := item.late
  responseMs := item.responseMs
  handlingMs := item.handlingMs

/-- Insert an event, or replace the one that has its identifier. -/
def upsertEvent (events : List CompletionEvent) (event : CompletionEvent) : List CompletionEvent :=
  if event.eventId ∈ events.map CompletionEvent.eventId then
    events.map fun held => if held.eventId = event.eventId then event else held
  else events ++ [event]

/-- By the instant, and then by the identifier. -/
def CompletionEvent.key (event : CompletionEvent) : ℤ ×ₗ String :=
  toLex (event.createdAt, event.eventId)

def completionEvents (names : Names) (items : List Item) : List CompletionEvent :=
  ((items.map (completionEvent names)).foldl upsertEvent []).insertionSort
    fun first second => first.key ≤ second.key

/-! ## Totals -/

/-- A row of `forklift_calls_daily`. -/
structure CallsRow where
  day : ℤ
  totalCalls : ℕ
  byHour : List (ℕ × ℕ)
  byStation : List (String × ℕ)
  deriving DecidableEq

/-- A row of `forklift_driver_daily`. -/
structure DriverRow where
  day : ℤ
  driverId : String
  name : String
  calls : ℕ
  onTime : ℕ
  late : ℕ
  avgMs : ℤ
  maxMs : ℤ
  onCallMs : ℤ
  deriving DecidableEq

variable (site : Site)

def Item.day (item : Item) : ℤ := site.calendar.dayOf item.createdAt

def itemsOn (items : List Item) (day : ℤ) : List Item :=
  items.filter fun item => item.day site = day

/-- How often each value comes, in the order of their first. -/
def counts {κ : Type} [DecidableEq κ] (values : List κ) : List (κ × ℕ) :=
  values.eraseDups.map fun value => (value, values.count value)

def callsRow (items : List Item) (day : ℤ) : CallsRow where
  day := day
  totalCalls := (itemsOn site items day).length
  byHour := (counts ((itemsOn site items day).map fun item =>
    site.hourOf item.createdAt)).insertionSort fun first second => first.1 ≤ second.1
  byStation := counts ((itemsOn site items day).filterMap fun item =>
    item.workstationName.filter (· ≠ ""))

def driverRow (names : Names) (items : List Item) (day : ℤ) (driverId : String) : DriverRow :=
  let own := (itemsOn site items day).filter fun item => item.completedBy = driverId
  let responses := own.filterMap Item.responseMs
  { day := day
    driverId := driverId
    name := names.name driverId
    calls := own.length
    onTime := own.countP fun item => item.late ≠ some true ∧ item.onTime = some true
    late := own.countP fun item => item.late = some true
    avgMs := TimeOff.roundHalfEven ((responses.sum : ℚ) / responses.length)
    maxMs := responses.max?.getD 0
    onCallMs := (own.filterMap Item.handlingMs).sum }

def daysOf (items : List Item) : List ℤ :=
  (items.map (Item.day site)).eraseDups.insertionSort (· ≤ ·)

/-- The rows of the drivers of a day. -/
def driverRows (names : Names) (items : List Item) (day : ℤ) : List DriverRow :=
  (((itemsOn site items day).map Item.completedBy).eraseDups.insertionSort (· ≤ ·)).map
    (driverRow site names items day)

/-! ## Statements -/

/-- A row of `forklift_completion_coverage`. -/
structure Coverage where
  coveredThrough : ℤ
  rawEventCount : ℕ
  deriving DecidableEq

structure Tables where
  calls : ℤ → Option CallsRow
  drivers : ℤ × String → Option DriverRow
  events : List CompletionEvent
  coverage : ℤ → Option Coverage

def Tables.empty : Tables := ⟨fun _ => none, fun _ => none, [], fun _ => none⟩

inductive Statement where
  | upsertCallsDaily (row : CallsRow)
  | upsertDriverDaily (rows : List DriverRow)
  | upsertCompletionEvents (events : List CompletionEvent)
  | recordCompletionCoverage (day : ℤ) (coverage : Coverage)

def Tables.execute (tables : Tables) : Statement → Tables
  | .upsertCallsDaily row =>
      { tables with calls := Function.update tables.calls row.day (some row) }
  | .upsertDriverDaily rows =>
      { tables with
        drivers := rows.foldl
          (fun drivers row => Function.update drivers (row.day, row.driverId) (some row))
          tables.drivers }
  | .upsertCompletionEvents events =>
      { tables with events := events.foldl upsertEvent tables.events }
  | .recordCompletionCoverage day coverage =>
      { tables with coverage := Function.update tables.coverage day (some coverage) }

def Tables.executeAll (tables : Tables) (statements : List Statement) : Tables :=
  statements.foldl Tables.execute tables

/-! ## Runs -/

/-- The events of a day. -/
def eventCount (events : List CompletionEvent) (day : ℤ) : ℕ :=
  (events.filter fun event => site.calendar.dayOf event.createdAt = day).length

/-- The statements of a snapshot of a day. -/
def snapshotToday (day fetchedThrough : ℤ) (names : Names) (items : List Item) : List Statement :=
  let events := completionEvents names items
  [.upsertCallsDaily (callsRow site items day),
    .upsertDriverDaily (driverRows site names items day),
    .upsertCompletionEvents events,
    .recordCompletionCoverage day
      ⟨max (site.calendar.dayStart day) fetchedThrough, eventCount site events day⟩]

/-- The first day that a backfill covers: a day that begins before `since` is not covered. -/
def coverageStartDay (since fetchedThrough : ℤ) (items : List Item) : Option ℤ :=
  if 0 < since then
    let localSince := site.calendar.dayOf since
    some (if since = site.calendar.dayStart localSince then localSince else localSince + 1)
  else
    match (items.map (Item.day site)).min? with
    | some first => some first
    | none => if since = 0 then some (site.calendar.dayOf fetchedThrough) else none

def coverageDays (since fetchedThrough : ℤ) (items : List Item) : List ℤ :=
  match coverageStartDay site since fetchedThrough items with
  | none => []
  | some first =>
      (List.range (site.calendar.dayOf fetchedThrough - first + 1).toNat).map
        fun offset : ℕ => first + (offset : ℤ)

/-- The statements of a backfill. -/
def backfillHistory (since fetchedThrough : ℤ) (names : Names) (items : List Item) :
    List Statement :=
  let events := completionEvents names items
  let covered := coverageDays site since fetchedThrough items
  let days := (daysOf site items ++ covered).eraseDups.insertionSort (· ≤ ·)
  days.map (fun day => .upsertCallsDaily (callsRow site items day)) ++
    [.upsertDriverDaily ((daysOf site items).flatMap (driverRows site names items)),
      .upsertCompletionEvents events] ++
    covered.map fun day => .recordCompletionCoverage day ⟨fetchedThrough, eventCount site events day⟩

inductive Kind where
  | snapshotToday (day : ℤ)
  | backfillHistory (since : ℤ)

def Kind.since : Kind → ℤ
  | .snapshotToday day => site.calendar.dayStart day
  | .backfillHistory since => since

def Kind.statements (kind : Kind) (fetchedThrough : ℤ) (names : Names) (items : List Item) :
    List Statement :=
  match kind with
  | .snapshotToday day => Forklift.snapshotToday site day fetchedThrough names items
  | .backfillHistory since => Forklift.backfillHistory site since fetchedThrough names items

/-- A run that read the clock, then fetched a feed of some length, and writes. -/
inductive Run where
  | started (kind : Kind) (fetchedThrough : ℤ)
  | fetched (kind : Kind) (fetchedThrough : ℤ) (held : ℕ) (names : Names) (items : List Item)
  | writing (statements : List Statement)

/-- The history has when each run that wrote read the clock, and how many items the feed held when
it fetched; the newest is the first. -/
structure World where
  feed : List Item
  now : ℤ
  tables : Tables
  runs : ℕ → Option Run
  history : List (ℤ × ℕ)

def World.initial (feed : List Item) (now : ℕ) : World :=
  { feed, now, tables := .empty, runs := fun _ => none, history := [] }

def World.setRun (world : World) (run : ℕ) (state : Option Run) : World :=
  { world with runs := Function.update world.runs run state }

inductive Action where
  | elapse (duration : ℕ)
  | complete (item : Item)
  | start (run : ℕ) (kind : Kind)
  | fetch (run : ℕ) (names : Names)
  /-- What was fetched is transformed, and refused if an item is lost. -/
  | transform (run : ℕ)
  | write (run : ℕ)
  /-- A call or a statement raises. -/
  | fail (run : ℕ)

def step (world : World) : Action → Option World
  | .elapse duration => some { world with now := world.now + duration }
  | .complete item =>
      if item.id ∉ world.feed.map Item.id then some { world with feed := world.feed ++ [item] }
      else none
  | .start run kind =>
      if (world.runs run).isNone then some (world.setRun run (some (.started kind world.now)))
      else none
  | .fetch run names =>
      match world.runs run with
      | some (.started kind fetchedThrough) =>
          some (world.setRun run (some (.fetched kind fetchedThrough world.feed.length names
            (world.feed.filter fun item => kind.since site ≤ item.createdAt))))
      | _ => none
  | .transform run =>
      match world.runs run with
      | some (.fetched kind fetchedThrough held names items) =>
          if (completionEvents names items).length = items.length then
            some ({ world with history := (fetchedThrough, held) :: world.history }.setRun run
              (some (.writing (kind.statements site fetchedThrough names items))))
          else some (world.setRun run none)
      | _ => none
  | .write run =>
      match world.runs run with
      | some (.writing []) => some (world.setRun run none)
      | some (.writing (statement :: rest)) =>
          some ({ world with tables := world.tables.execute statement }.setRun run
            (some (.writing rest)))
      | _ => none
  | .fail run => (world.runs run).map fun _ => world.setRun run none

end PlantManager.Forklift

import PlantManager.Mapping.SortedMap
import PlantManager.Timeclock.PunchSync
import PlantManager.Transition.Runs

/-! # What the kiosk shows

The kiosk shows a person's state from the last logged punch or from what was read of Odoo, either
the snapshot of a refresh or the mirror (`Timeclock.Kiosk.currentState`). Punches reach
Odoo and are marked later; refreshes and cycles of the mirror fetch first and store later, and a
kiosk reads what it needs one by one (`Timeclock.Kiosk.step`). Each fetch answers as of
one instant. The rows and punches are those of one person, the rows are never deleted, and they
change only when a punch reaches Odoo. Instants are microseconds.
-/

namespace PlantManager.Timeclock.Kiosk

open Mapping
open PunchSync (PunchAction)

/-- An attendance row, which is stored by its identifier. -/
structure Row where
  checkIn : ℤ
  checkOut : Option ℤ
  workCenterId : Option ℤ
  departmentId : Option ℤ
  departmentName : Option String
  writeDate : ℤ
  deriving DecidableEq

abbrev Rows := SortedMap ℕ Row

/-- The open attendance of the person. -/
structure Entry where
  attId : ℕ
  checkIn : ℤ
  wcName : Option String
  departmentId : Option ℤ
  departmentName : Option String
  deriving DecidableEq

/-- By the check-in, and then by the identifier. -/
def openKey (row : ℕ × Row) : ℤ ×ₗ ℕ := toLex (row.2.checkIn, row.1)

/-- The newest of some rows. -/
def newest (rows : List (ℕ × Row)) : Option (ℕ × Row) :=
  rows.foldl (fun existing row => match existing with
    | none => some row
    | some held => if openKey held < openKey row then some row else some held) none

/-- The entry of the newest open row; `wcName` is the name of a work center of Odoo. -/
def openEntry (wcName : Option ℤ → Option String) (rows : Rows) : Option Entry :=
  (newest (rows.entries.filter fun row => row.2.checkOut = none)).map fun row =>
    ⟨row.1, row.2.checkIn, wcName row.2.workCenterId, row.2.departmentId, row.2.departmentName⟩

/-! ## Punches -/

/-- A row of the punch log. It knows how many writes Odoo had when the punch reached it. -/
structure Punch where
  id : ℕ
  action : PunchAction
  wcName : Option String
  occurredAt : ℤ
  rawOccurredAt : ℤ
  odooAttendanceId : Option ℕ
  synced : Bool
  syncedAt : Option ℤ
  pushed : Option ℕ
  deriving DecidableEq

def Punch.key (punch : Punch) : ℤ ×ₗ ℕ := toLex (punch.occurredAt, punch.id)

/-- The most recent punch. -/
def latestPunch (log : List Punch) : Option Punch :=
  log.foldl (fun latest punch => match latest with
    | none => some punch
    | some held => if held.key < punch.key then some punch else some held) none

/-! ## Reconciling -/

/-- How the source of a state was: unavailable, stale, and with an error. -/
structure SourceFlags where
  unavailable : Bool
  stale : Bool
  error : Option String
  deriving DecidableEq

/-- What the kiosk shows; whether the person is clocked in can be unknown. -/
structure KioskState where
  isClockedIn : Option Bool
  currentWc : Option String
  checkInTs : Option ℤ
  openOdooAttendanceId : Option ℕ
  departmentId : Option ℤ
  departmentName : Option String
  source : Option SourceFlags
  deriving DecidableEq

def KioskState.clockedOut : KioskState := ⟨some false, none, none, none, none, none, none⟩

def KioskState.unknown (flags : SourceFlags) : KioskState :=
  ⟨none, none, none, none, none, none, some flags⟩

def stateFromLog : Option Punch → KioskState
  | none => .clockedOut
  | some latest =>
      match latest.action with
      | .clockOut | .transferOut => .clockedOut
      | .clockIn | .transferIn =>
          ⟨some true, latest.wcName, some latest.occurredAt, latest.odooAttendanceId, none, none,
            none⟩

def stateFromEntry : Option Entry → KioskState
  | none => .clockedOut
  | some entry =>
      ⟨some true, entry.wcName, some entry.checkIn, some entry.attId, entry.departmentId,
        entry.departmentName, none⟩

/-- The last punch is one that what was read of Odoo may not have seen. -/
def trustLocal (latest : Option Punch) (refreshedAt : Option ℤ) : Bool :=
  match latest with
  | none => false
  | some latest =>
      if latest.synced then
        match latest.syncedAt, refreshedAt with
        | none, _ => true
        | some _, none => false
        | some syncedAt, some refreshedAt => refreshedAt ≤ syncedAt
      else true

def staleThreshold : ℤ := 180000000

def isStale (now : ℤ) (refreshedAt : Option ℤ) : Bool :=
  match refreshedAt with
  | none => true
  | some refreshedAt => staleThreshold < now - refreshedAt

def localPunchIsRecent (now : ℤ) (latest : Option Punch) : Bool :=
  match latest with
  | none => false
  | some latest => 0 ≤ now - latest.rawOccurredAt ∧ now - latest.rawOccurredAt ≤ staleThreshold

/-- What was read of Odoo; the payload is the entry of the person, if there is data. -/
structure Source where
  payload : Option (Option Entry)
  refreshedAt : Option ℤ
  mirrorOwned : Bool
  available : Bool
  error : Option String
  stale : Bool

def currentState (now : ℤ) (source : Source) (latest : Option Punch) : KioskState :=
  if source.mirrorOwned then
    if trustLocal latest source.refreshedAt ∧
        (source.stale = false ∨ localPunchIsRecent now latest) then
      { stateFromLog latest with
        source := some ⟨!source.available, source.stale, source.error⟩ }
    else
      match source.available, source.payload with
      | true, some entry =>
          if source.stale then .unknown ⟨false, true, source.error⟩
          else { stateFromEntry entry with source := some ⟨false, source.stale, source.error⟩ }
      | _, _ => .unknown ⟨true, source.stale, source.error⟩
  else
    match source.payload with
    | none => stateFromLog latest
    | some entry =>
        if isStale now source.refreshedAt then stateFromLog latest
        else if trustLocal latest source.refreshedAt then stateFromLog latest
        else stateFromEntry entry

/-! ## Reading -/

/-- Which source is read. -/
structure Policy where
  mirrorOwned : Bool
  available : Bool
  refreshedAt : Option ℤ
  error : Option String
  stale : Bool

/-- The rollout, unless it cannot be read. -/
inductive Mode where
  | off
  | on

/-- The snapshot of the last refresh, and how many writes Odoo had when it was fetched. -/
structure Cache where
  entry : Option Entry
  refreshedAt : ℤ
  seen : ℕ

/-- The mirror and its sync state, and how many writes Odoo had when the last cycle began. -/
structure Mirror where
  rows : Rows
  cursor : Option (ℤ × ℕ)
  lastIncrementalCompletedAt : Option ℤ
  lastError : Option String
  baselineCompleted : Bool
  seen : ℕ

/-- The policy by the mode and the health of the mirror, each unless it cannot be read. -/
def attendanceReadPolicy (now : ℤ) (mode : Except String Mode) (health : Except String Mirror) :
    Policy :=
  match mode, health with
  | .error error, _ => ⟨false, true, none, some error, false⟩
  | .ok .off, _ => ⟨false, true, none, none, false⟩
  | .ok .on, .error error => ⟨true, false, none, some error, false⟩
  | .ok .on, .ok mirror =>
      if mirror.baselineCompleted then
        match mirror.lastIncrementalCompletedAt with
        | none =>
            ⟨true, false, none,
              some (mirror.lastError.getD "attendance mirror has no verified refresh"), false⟩
        | some refreshedAt =>
            ⟨true, true, some refreshedAt, mirror.lastError, isStale now (some refreshedAt)⟩
      else ⟨false, true, none, none, false⟩

/-- The source of a policy, unless the rows of the mirror cannot be read. -/
def readOpenAttendanceSource (wcName : Option ℤ → Option String) (policy : Policy)
    (cache : Option Cache) (rows : Except String Rows) : Source :=
  if policy.mirrorOwned then
    if policy.available then
      match rows with
      | .ok rows =>
          ⟨some (openEntry wcName rows), policy.refreshedAt, true, true, policy.error, policy.stale⟩
      | .error error => ⟨none, policy.refreshedAt, true, false, some error, policy.stale⟩
    else ⟨none, policy.refreshedAt, true, false, policy.error, policy.stale⟩
  else
    ⟨cache.map Cache.entry, cache.map Cache.refreshedAt, false, true, policy.error, policy.stale⟩

/-! ## Cycles of the mirror -/

/-- How far changes are fetched again. -/
def overlap : ℤ := 120000000

def fetchAttendanceChanges (odoo : Rows) (cursor : Option (ℤ × ℕ)) : List (ℕ × Row) :=
  odoo.entries.filter fun row => ∀ held ∈ cursor, held.1 - overlap ≤ row.2.writeDate

def fetchOpenAttendanceRows (odoo : Rows) : List (ℕ × Row) :=
  odoo.entries.filter fun row => row.2.checkOut = none

/-- Keep the row of an identifier that was written last. -/
def keepNewest (rows : Rows) (row : ℕ × Row) : Rows :=
  match rows.get row.1 with
  | none => rows.set row.1 row.2
  | some existing => if existing.writeDate ≤ row.2.writeDate then rows.set row.1 row.2 else rows

def mergedRows (changed opened : List (ℕ × Row)) : Rows := (changed ++ opened).foldl keepNewest ∅

def cursorKey (row : ℕ × Row) : ℤ ×ₗ ℕ := toLex (row.2.writeDate, row.1)

/-- The cursor after some changes. -/
def cursorFor (changed : List (ℕ × Row)) : Option (ℤ × ℕ) :=
  (changed.map cursorKey).max?.map ofLex

def laterCursor (current candidate : Option (ℤ × ℕ)) : Option (ℤ × ℕ) :=
  match current, candidate with
  | _, none => current
  | none, some candidate => some candidate
  | some current, some candidate =>
      if toLex current < toLex candidate then some candidate else some current

/-- A cycle read the clock and the cursor, fetched the changes and then the open rows. It knows how
many writes Odoo had when it began. -/
inductive Cycle where
  | begun (completedAt : ℤ) (seen : ℕ)
  | changed (completedAt : ℤ) (seen : ℕ) (changed : List (ℕ × Row))
  | fetched (completedAt : ℤ) (seen : ℕ) (changed opened : List (ℕ × Row))

def storeIncrementalCycle (mirror : Mirror) (completedAt : ℤ) (seen : ℕ)
    (changed opened : List (ℕ × Row)) : Mirror :=
  { mirror with
    -- A row that is older than the stored one is left out.
    rows := (mergedRows changed opened).entries.foldl keepNewest mirror.rows
    cursor := laterCursor mirror.cursor (cursorFor changed)
    lastIncrementalCompletedAt := some completedAt
    seen := seen }

/-! ## Steps -/

/-- A refresh that fetched the open attendance, when Odoo had so many writes. -/
structure Refresh where
  entry : Option Entry
  seen : ℕ

/-- A kiosk that read the policy, or also the source. It knows how many writes Odoo had at least
when what it read was fetched. -/
inductive Reader where
  | decided (policy : Policy) (seen : ℕ)
  | sourced (source : Source) (seen : ℕ)

/-- What a kiosk showed, and the last punch when it read the log. -/
structure Shown where
  latest : Option Punch
  state : KioskState

/-- `odoo` has the rows after each number of writes. The newest of the history is its first. -/
structure World where
  now : ℤ
  writes : ℕ
  odoo : ℕ → Rows
  log : List Punch
  cache : Option Cache
  refreshes : ℕ → Option Refresh
  mirror : Mirror
  cycle : Option Cycle
  mode : Except String Mode
  readers : ℕ → Option Reader
  history : List Shown

inductive Action where
  | elapse (duration : ℕ)
  | punch (action : PunchAction) (wcName : Option String) (occurredAt rawOccurredAt : ℤ)
  /-- A punch reaches Odoo, which writes some rows. -/
  | push (punchId : ℕ) (rows : List (ℕ × Row))
  | mark (punchId : ℕ) (odooAttendanceId : Option ℕ)
  | fetchRefresh (refresh : ℕ)
  | writeOpenAttendance (refresh : ℕ)
  /-- A cycle begins, at the clock of its caller or at its own. -/
  | beginCycle (requestedAt : Option ℤ)
  | fetchChanges
  | fetchOpen
  | storeCycle
  | failCycle (error : String)
  | configure (mode : Except String Mode) (baselineCompleted : Bool)
  | readPolicy (reader : ℕ) (healthError : Option String)
  | readSource (reader : ℕ) (rowsError : Option String)
  | readLog (reader : ℕ)

/-- Odoo writes some rows now. -/
def writeRows (now : ℤ) (odoo : Rows) (rows : List (ℕ × Row)) : Rows :=
  rows.foldl (fun odoo row => odoo.set row.1 { row.2 with writeDate := now }) odoo

/-- The rows of Odoo. -/
def World.rows (world : World) : Rows := world.odoo world.writes

def World.change (world : World) (punchId : ℕ) (change : Punch → Punch) : World :=
  { world with
    log := world.log.map fun punch => if punch.id = punchId then change punch else punch }

def World.setReader (world : World) (reader : ℕ) (state : Option Reader) : World :=
  { world with readers := Function.update world.readers reader state }

def orError {α : Type} (error : Option String) (value : α) : Except String α :=
  match error with
  | some error => .error error
  | none => .ok value

def step (wcName : Option ℤ → Option String) (world : World) : Action → Option World
  | .elapse duration => some { world with now := world.now + duration }
  | .punch action wcName occurredAt rawOccurredAt =>
      some { world with
        log := world.log ++ [⟨world.log.length, action, wcName, occurredAt, rawOccurredAt, none,
          false, none, none⟩] }
  | .push punchId rows =>
      match world.log.find? fun punch => punch.id = punchId with
      | none => none
      | some punch =>
          if punch.pushed = none then
            some ({ world with
              writes := world.writes + 1
              odoo := Function.update world.odoo (world.writes + 1)
                (writeRows world.now world.rows rows) }.change punchId fun punch =>
                  { punch with pushed := some (world.writes + 1) })
          else none
  | .mark punchId odooAttendanceId =>
      match world.log.find? fun punch => punch.id = punchId with
      | none => none
      | some punch =>
          if punch.pushed.isSome ∧ punch.synced = false then
            some (world.change punchId fun punch =>
              { punch with
                synced := true
                syncedAt := some world.now
                odooAttendanceId := odooAttendanceId })
          else none
  | .fetchRefresh refresh =>
      if (world.refreshes refresh).isNone then
        some { world with
          refreshes := Function.update world.refreshes refresh
            (some ⟨openEntry wcName world.rows, world.writes⟩) }
      else none
  | .writeOpenAttendance refresh =>
      match world.refreshes refresh with
      | none => none
      | some fetched =>
          some { world with
            cache := some ⟨fetched.entry, world.now, fetched.seen⟩
            refreshes := Function.update world.refreshes refresh none }
  | .beginCycle requestedAt =>
      if world.cycle.isNone ∧ ∀ requested ∈ requestedAt, requested ≤ world.now then
        some { world with cycle := some (.begun (requestedAt.getD world.now) world.writes) }
      else none
  | .fetchChanges =>
      match world.cycle with
      | some (.begun completedAt seen) =>
          some { world with
            cycle := some (.changed completedAt seen
              (fetchAttendanceChanges world.rows world.mirror.cursor)) }
      | _ => none
  | .fetchOpen =>
      match world.cycle with
      | some (.changed completedAt seen changed) =>
          some { world with
            cycle := some (.fetched completedAt seen changed
              (fetchOpenAttendanceRows world.rows)) }
      | _ => none
  | .storeCycle =>
      match world.cycle with
      | some (.fetched completedAt seen changed opened) =>
          some { world with
            mirror := storeIncrementalCycle world.mirror completedAt seen changed opened
            cycle := none }
      | _ => none
  | .failCycle error =>
      world.cycle.map fun _ =>
        { world with mirror := { world.mirror with lastError := some error }, cycle := none }
  | .configure mode baselineCompleted =>
      some { world with mode, mirror := { world.mirror with baselineCompleted } }
  | .readPolicy reader healthError =>
      if (world.readers reader).isNone then
        some (world.setReader reader (some (.decided
          (attendanceReadPolicy world.now world.mode (orError healthError world.mirror))
          world.mirror.seen)))
      else none
  | .readSource reader rowsError =>
      match world.readers reader with
      | some (.decided policy seen) =>
          some (world.setReader reader (some (.sourced
            (readOpenAttendanceSource wcName policy world.cache
              (orError rowsError world.mirror.rows))
            (if policy.mirrorOwned then seen else (world.cache.map Cache.seen).getD 0))))
      | _ => none
  | .readLog reader =>
      match world.readers reader with
      | some (.sourced source _) =>
          let latest := latestPunch world.log
          some ({ world with
            history := ⟨latest, currentState world.now source latest⟩ :: world.history }.setReader
              reader none)
      | _ => none

end PlantManager.Timeclock.Kiosk

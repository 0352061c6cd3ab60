import PlantManager.Production.StationDay
import PlantManager.Transition.Runs

/-! # Cached leaderboards

Processes answer for the stations of a day (`Production.Leaderboard.step`). A process
keeps totals for a while, those of the day itself apart from the others, and all processes share the
table of daily totals. Totals of the day itself are stored there now and then, and totals of other
days are looked up there first. Readings are fetched station by station, each as of one instant, and
any call can fail. What a process or the table keeps of a meter is kept under the meter and the day.
-/

namespace PlantManager.Production.Leaderboard

open PlantManager.Ranking

/-- A meter and a day. -/
abbrev Key := String × ℤ

/-- Totals that a process keeps, and since when. -/
structure Cached where
  storedAt : ℤ
  total : StationTotal

abbrev Cache := Key → Option Cached

/-- Totals with the instant of their fetch and the clock that the caller gave. -/
structure Fetched where
  total : StationTotal
  fetchedAt : ℤ
  now : Option ℤ

/-- A row of the table. Payloads of an older version have other fields. -/
structure Row where
  payloadVersion : ℕ
  fetched : Fetched

abbrev Table := Key → Option Row

def todayTtl : ℤ := 30 * second

def pastTtl : ℤ := 3600 * second

/-- The totals of a meter that are kept and have not expired. -/
def peek (ttl now : ℤ) (cache : Cache) (key : Key) : Option StationTotal :=
  ((cache key).filter fun cached => now - cached.storedAt < ttl).map Cached.total

/-- Set some keys one after the other. -/
def setEach {α β : Type} (key : α → Key) (value : α → β) (store : Key → Option β)
    (items : List α) : Key → Option β :=
  items.foldl (fun store item => Function.update store (key item) (some (value item))) store

/-! ## The table -/

/-- The totals of a row of the current version. -/
def loadRow (table : Table) (day : ℤ) (station : Station) : Option Fetched :=
  ((table (station.meterId, day)).filter fun row => 2 ≤ row.payloadVersion).map Row.fetched

/-- The totals of all of some stations, or of none. -/
def loadDay (table : Table) (stations : List Station) (day : ℤ) : Option (List Fetched) :=
  (stations.mapM (loadRow table day)).map (sortBy fun fetched => boardKey fetched.total)

def saveDay (table : Table) (totals : List Fetched) (day : ℤ) : Table :=
  setEach (fun fetched => (fetched.total.station.meterId, day)) (Row.mk 2) table totals

/-! ## Calls -/

/-- How far a call is that has missing stations. -/
inductive Phase where
  /-- The table is still to be looked up. -/
  | looking
  | fetching (fetched : List Fetched)
  /-- Some of what was fetched was due to be stored in the table, at an instant. -/
  | saving (fetched due : List Fetched) (since : ℤ)
  | ready (totals : List StationTotal)

/-- A call of `cached_leaderboard`: what it found in the cache, and the stations that it did not. -/
structure Call where
  process : ℕ
  stations : List Station
  day : ℤ
  begun : ℤ
  now : Option ℤ
  isToday : Bool
  hits : List StationTotal
  missing : List Station
  phase : Phase

structure Process where
  todayCache : Cache
  pastCache : Cache
  lastPersist : Key → Option ℤ

def Process.restarted : Process := ⟨fun _ => none, fun _ => none, fun _ => none⟩

/-- What a call returned. -/
structure Answer where
  stations : List Station
  day : ℤ
  begun : ℤ
  totals : List StationTotal

/-- The first station of each meter. -/
def firstOfMeter (stations : List Station) : List Station :=
  stations.foldl (fun first station =>
    if ∃ other ∈ first, other.meterId = station.meterId then first else first ++ [station]) []

def Process.peek (process : Process) (isToday : Bool) (now : ℤ) (key : Key) : Option StationTotal :=
  if isToday then Leaderboard.peek todayTtl now process.todayCache key
  else Leaderboard.peek pastTtl now process.pastCache key

/-- A call begins with what its process keeps. -/
def Process.begin (process : Process) (id : ℕ) (isToday : Bool) (stations : List Station)
    (day begun : ℤ) (now : Option ℤ) : Call :=
  let kept := fun station : Station => process.peek isToday begun (station.meterId, day)
  let missing := (firstOfMeter stations).filter fun station => (kept station).isNone
  { process := id
    stations, day, begun, now, isToday, missing
    hits := (firstOfMeter stations).filterMap kept
    phase := if missing = [] then .ready [] else if isToday then .fetching [] else .looking }

def persistInterval : ℤ := 300 * second

/-- The totals that are stored now: those of the day itself only after a while. -/
def Process.due (process : Process) (call : Call) (now : ℤ) (fetched : List Fetched) :
    List Fetched :=
  if call.isToday then
    fetched.filter fun fetched =>
      ∀ last ∈ process.lastPersist (fetched.total.station.meterId, call.day),
        persistInterval ≤ now - last
  else fetched

/-- Remember when totals of a day were stored, and forget the other days. -/
def Process.persisted (process : Process) (call : Call) (now : ℤ) (due : List Fetched) : Process :=
  if call.isToday ∧ due.isEmpty = false then
    let lastPersist := setEach (fun fetched : Fetched => (fetched.total.station.meterId, call.day))
      (fun _ => now) process.lastPersist due
    { process with lastPersist := fun key => if key.2 = call.day then lastPersist key else none }
  else process

/-- Keep some totals. -/
def Process.keep (process : Process) (call : Call) (now : ℤ) (totals : List StationTotal) :
    Process :=
  let set := fun cache : Cache =>
    setEach (fun total : StationTotal => (total.station.meterId, call.day)) (Cached.mk now) cache
      totals
  if call.isToday then { process with todayCache := set process.todayCache }
  else { process with pastCache := set process.pastCache }

/-- The totals of the stations of a call, each under the station that was asked for. -/
def Call.answer (call : Call) (totals : List StationTotal) : Answer where
  stations := call.stations
  day := call.day
  begun := call.begun
  totals := sortBy boardKey (call.stations.filterMap fun station =>
    ((call.hits ++ totals).find? fun total => total.station.meterId = station.meterId).map
      fun total => { total with station })

/-! ## Steps -/

structure World where
  now : ℤ
  table : Table
  processes : ℕ → Process
  calls : ℕ → Option Call
  answers : List Answer

inductive Action where
  | elapse (duration : ℕ)
  /-- A call begins, and gives its clock or not. -/
  | begin (call process : ℕ) (stations : List Station) (day : ℤ) (given : Bool)
  | load (call : ℕ) (available : Bool)
  | fetch (call : ℕ) (station : Station)
  | fail (call : ℕ)
  /-- All stations are fetched, and the call sees what it stores. -/
  | persist (call : ℕ)
  /-- The totals are stored or not, which is noted unless it failed. -/
  | save (call : ℕ) (stored noted : Bool)
  | finish (call : ℕ)
  | restart (process : ℕ)
  /-- A process drops totals that it keeps. -/
  | evict (process : ℕ) (isToday : Bool) (key : Key)

def World.setCall (world : World) (id : ℕ) (call : Option Call) : World :=
  { world with calls := Function.update world.calls id call }

def World.setProcess (world : World) (id : ℕ) (process : Process) : World :=
  { world with processes := Function.update world.processes id process }

def World.goto (world : World) (id : ℕ) (call : Call) (phase : Phase) : World :=
  world.setCall id (some { call with phase })

def Process.evict (process : Process) (isToday : Bool) (key : Key) : Process :=
  if isToday then { process with todayCache := Function.update process.todayCache key none }
  else { process with pastCache := Function.update process.pastCache key none }

def step (plant : Plant) (readings : String → List Reading) (world : World) :
    Action → Option World
  | .elapse duration => some { world with now := world.now + duration }
  | .begin id process stations day given =>
      match world.calls id with
      | some _ => none
      | none =>
          some (world.setCall id (some ((world.processes process).begin process
            (day = plant.calendar.dayOf world.now) stations day world.now
            (if given then some world.now else none))))
  | .load id available =>
      match world.calls id with
      | some call =>
          match call.phase with
          | .looking =>
              match if available then loadDay world.table call.missing call.day else none with
              | some rows => some (world.goto id call (.ready (rows.map Fetched.total)))
              | none => some (world.goto id call (.fetching []))
          | _ => none
      | none => none
  | .fetch id station =>
      match world.calls id with
      | some call =>
          match call.phase with
          | .fetching fetched =>
              if station ∈ call.missing ∧ ∀ other ∈ fetched, other.total.station ≠ station then
                some (world.goto id call (.fetching (fetched ++
                  [⟨stationTotalAt plant readings station call.day world.now call.now, world.now,
                    call.now⟩])))
              else none
          | _ => none
      | none => none
  | .fail id => (world.calls id).map fun _ => world.setCall id none
  | .persist id =>
      match world.calls id with
      | some call =>
          match call.phase with
          | .fetching fetched =>
              if ∀ station ∈ call.missing, ∃ other ∈ fetched, other.total.station = station then
                let sorted := sortBy (fun fetched => boardKey fetched.total) fetched
                some (world.goto id call (.saving sorted
                  ((world.processes call.process).due call world.now sorted) world.now))
              else none
          | _ => none
      | none => none
  | .save id stored noted =>
      match world.calls id with
      | some call =>
          match call.phase with
          | .saving fetched due since =>
              let process := world.processes call.process
              some ({ world.goto id call (.ready (fetched.map Fetched.total)) with
                table := if stored then saveDay world.table due call.day else world.table
                }.setProcess call.process
                  (if stored ∧ noted then process.persisted call since due else process))
          | _ => none
      | none => none
  | .finish id =>
      match world.calls id with
      | some call =>
          match call.phase with
          | .ready totals =>
              some ({ world.setCall id none with
                answers := call.answer totals :: world.answers }.setProcess call.process
                  ((world.processes call.process).keep call world.now totals))
          | _ => none
      | none => none
  | .restart process =>
      some ({ world with
        calls := fun id => (world.calls id).filter fun call => call.process ≠ process }.setProcess
          process .restarted)
  | .evict process isToday key =>
      some (world.setProcess process ((world.processes process).evict isToday key))

/-- Nothing is kept yet but rows of an older version. -/
def World.initial (now : ℤ) (older : Key → Option Fetched) : World where
  now := now
  table := fun key => (older key).map (Row.mk 1)
  processes := fun _ => .restarted
  calls := fun _ => none
  answers := []

end PlantManager.Production.Leaderboard

import PlantManager.Staffing.Schedule
import PlantManager.Transition.Runs

/-! # The schedule cache of one day

The calls of one process read, write and invalidate the cache entry of a day, and read and
commit its rows; each of these is one step. Commits are numbered in their order, from the
contents that the run starts with.
-/

namespace PlantManager.Staffing.Cache

/-- Where a call is. A load knows the number of the latest commit whose call had returned when
it began. -/
inductive Session (H : Type*) where
  | idle
  /-- The cache has no entry. -/
  | missed (floor : ℕ)
  | readRow (floor version : ℕ) (row : Row H)
  | readAssignments (floor version : ℕ) (row : Row H) (assignments : Assignments)
  /-- The schedule is hydrated, as of the commit `version`. -/
  | loaded (floor version : ℕ) (schedule : Schedule H)
  /-- The entry is invalidated, and the schedule is still to be saved. -/
  | saving (schedule : Schedule H)
  /-- The row is locked, and the schedule without the person is still to be saved. -/
  | removing (cleaned : Schedule H)
  | removingInvalidated (cleaned : Schedule H)
  /-- The commit is done, and the entry is still to be invalidated. -/
  | written (commit : ℕ)
  /-- The call is about to return. -/
  | done (commit : ℕ)
deriving DecidableEq

/-- The cache entry, the row, and the calls. `history` holds the contents after each commit;
`returned` is the latest commit whose call has returned, and `settled` the latest that no call is
still to invalidate the entry for. `served` are the schedules that loads returned. -/
structure State (S H : Type*) where
  cache : Option (Schedule H)
  contents : Option (Stored H)
  lockedBy : Option S
  sessions : S → Session H
  history : List (Option (Stored H))
  returned : ℕ
  settled : ℕ
  served : List (ℕ × Schedule H)

variable {S H : Type*}

def State.initial (S : Type*) (contents : Option (Stored H)) : State S H where
  cache := none
  contents := contents
  lockedBy := none
  sessions := fun _ => .idle
  history := [contents]
  returned := 0
  settled := 0
  served := []

/-- The number of the latest commit. -/
def State.version (state : State S H) : ℕ := state.history.length - 1

/-- A transaction commits. -/
def State.commit (state : State S H) (contents : Option (Stored H)) : State S H :=
  { state with
    contents := contents
    history := state.history ++ [contents] }

section Sessions

variable [DecidableEq S]

def State.goto (state : State S H) (session : S) (place : Session H) : State S H :=
  { state with sessions := Function.update state.sessions session place }

end Sessions

inductive Action (S H : Type*) where
  /-- `load_schedule` finds an entry, or none. -/
  | load (session : S)
  | readRow (session : S)
  | readAssignments (session : S)
  | readNotes (session : S)
  /-- The loaded schedule is stored in the cache and returned. -/
  | store (session : S)
  | save (session : S) (schedule : Schedule H)
  | saveCommit (session : S)
  | createCommit (session : S) (schedule : Schedule H)
  | recordCommit (session : S) (version : String) (patch : Delivery)
  /-- What a creation or a record does after its commit. -/
  | invalidate (session : S)
  | remove (session : S) (person : String)
  | removeInvalidate (session : S)
  | removeCommit (session : S)
  | leave (session : S)
  /-- A call fails before its commit. -/
  | abandon (session : S)

variable [DecidableEq S]

/-- One step; a row that another call has locked is not written. -/
def step (roster : Roster) (state : State S H) : Action S H → Option (State S H)
  | .load session =>
      match state.sessions session, state.cache with
      | .idle, some schedule =>
          some { state with served := (state.returned, schedule) :: state.served }
      | .idle, none => some (state.goto session (.missed state.returned))
      | _, _ => none
  | .readRow session =>
      match state.sessions session, state.contents with
      | .missed floor, none => some (state.goto session (.loaded floor state.version emptySchedule))
      | .missed floor, some stored =>
          some (state.goto session (.readRow floor state.version stored.row))
      | _, _ => none
  | .readAssignments session =>
      match state.sessions session, state.contents with
      | .readRow floor version row, some stored =>
          some (state.goto session (.readAssignments floor version row stored.assignments))
      | .readRow floor version row, none =>
          some (state.goto session (.readAssignments floor version row ∅))
      | _, _ => none
  | .readNotes session =>
      match state.sessions session with
      | .readAssignments floor version row assignments =>
          let wcNotes := (state.contents.map Stored.wcNotes).getD ∅
          some (state.goto session
            (.loaded floor version (hydrate roster row assignments wcNotes)))
      | _ => none
  | .store session =>
      match state.sessions session with
      | .loaded floor _ schedule =>
          some { state.goto session .idle with
            cache := some schedule
            served := (floor, schedule) :: state.served }
      | _ => none
  | .save session schedule =>
      match state.sessions session with
      | .idle => some { state.goto session (.saving schedule) with cache := none }
      | _ => none
  | .saveCommit session =>
      match state.sessions session with
      | .saving schedule =>
          if state.lockedBy = none ∧ Storable roster schedule then
            let saved := saveScheduleWithCursor roster schedule state.contents
            some { (state.commit (some saved)).goto session (.done state.history.length) with
              settled := state.history.length }
          else none
      | _ => none
  | .createCommit session schedule =>
      match state.sessions session, state.contents with
      | .idle, some _ => some (state.goto session (.written state.version))
      | .idle, none =>
          if Storable roster schedule then
            some ((state.commit (createScheduleIfAbsent roster schedule none)).goto session
              (.written state.history.length))
          else none
      | _, _ => none
  | .recordCommit session version patch =>
      match state.sessions session with
      | .idle =>
          -- A call without a version or a field to record does nothing.
          if state.lockedBy = none ∧ version ≠ "" ∧ patch.version = none ∧ patch ≠ ∅ then
            some ((state.commit (recordDelivery version patch state.contents)).goto session
              (.written state.history.length))
          else none
      | _ => none
  | .invalidate session =>
      match state.sessions session with
      | .written commit =>
          some { state.goto session (.done commit) with
            cache := none
            settled := max state.settled commit }
      | _ => none
  | .remove session person =>
      match state.sessions session, state.lockedBy, state.contents with
      | .idle, none, some stored =>
          let schedule := hydrate roster stored.row stored.assignments stored.wcNotes
          let (cleaned, changed) := scheduleWithoutPerson schedule person
          if changed then
            some { state.goto session (.removing cleaned) with lockedBy := some session }
          else some state
      | .idle, none, none => some state
      | _, _, _ => none
  | .removeInvalidate session =>
      match state.sessions session with
      | .removing cleaned =>
          some { state.goto session (.removingInvalidated cleaned) with cache := none }
      | _ => none
  | .removeCommit session =>
      match state.sessions session with
      | .removingInvalidated cleaned =>
          if Storable roster cleaned then
            let saved := saveScheduleWithCursor roster cleaned state.contents
            some { (state.commit (some saved)).goto session (.done state.history.length) with
              lockedBy := none
              settled := state.history.length }
          else none
      | _ => none
  | .leave session =>
      match state.sessions session with
      | .done commit =>
          some { state.goto session .idle with returned := max state.returned commit }
      | _ => none
  | .abandon session =>
      match state.sessions session with
      | .saving _ => some (state.goto session .idle)
      | .removing _ | .removingInvalidated _ =>
          some { state.goto session .idle with lockedBy := none }
      | .missed _ | .readRow _ _ _ | .readAssignments _ _ _ _ | .loaded _ _ _ =>
          some (state.goto session .idle)
      | _ => none

end PlantManager.Staffing.Cache

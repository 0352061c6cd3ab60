import PlantManager.Transition.Runs

/-! # The recalculation queue of one day

Workers claim the day, recompute it, complete the claim or record a failure, and refresh the
caches afterwards; attendance changes enqueue the day again at any moment. Every database
transaction is one step, and so is every reading of the clock. A worker can stop at any
point. Instants are microseconds.
-/

namespace PlantManager.Attendance.Recalc

open PlantManager.Transition

/-- `CLAIM_LEASE`: fifteen minutes. -/
def claimLease : ℤ := 15 * 60 * 1000000

def errorLimit : ℕ := 500

/-- The row of the day in `attendance_recalc_queue`. -/
structure QueueRow where
  reason : String
  requestedAt : ℤ
  startedAt : Option ℤ
  completedAt : Option ℤ
  cacheStartedAt : Option ℤ
  cacheReadyAt : Option ℤ
  attemptCount : ℕ
  lastError : Option String
  deriving DecidableEq

structure RecalcClaim where
  attemptCount : ℕ
  leaseUntil : ℤ
  deriving DecidableEq

structure CacheRefreshClaim where
  attemptCount : ℕ
  completedAt : ℤ
  leaseUntil : ℤ
  deriving DecidableEq

/-- The delay before the next attempt: it doubles, from fifteen seconds to fifteen minutes. -/
def retryDelay (attemptCount : ℕ) : ℤ :=
  min (15 * 2 ^ min (attemptCount - 1) 20 * 1000000) (15 * 60 * 1000000)

/-! ## Transactions -/

/-- Insert the day, or ask for it again. -/
def enqueueRecalc (reason : String) (requestedAt : ℤ) : Option QueueRow → QueueRow
  | none =>
      { reason := reason
        requestedAt := requestedAt
        startedAt := none
        completedAt := none
        cacheStartedAt := none
        cacheReadyAt := none
        attemptCount := 0
        lastError := none }
  | some row =>
      { reason := reason
        requestedAt := if row.completedAt = none then min row.requestedAt requestedAt else requestedAt
        startedAt := none
        completedAt := none
        cacheStartedAt := none
        cacheReadyAt := none
        attemptCount := if row.completedAt = none then row.attemptCount else 0
        lastError := none }

/-- Claim the day when it is eligible, and fence it with a lease. -/
def claimNext (now : ℤ) (row : QueueRow) : Option (RecalcClaim × QueueRow) :=
  if row.completedAt = none ∧ ∀ started ∈ row.startedAt, started ≤ now then
    let claim := { attemptCount := row.attemptCount + 1, leaseUntil := now + claimLease }
    some (claim,
      { row with startedAt := some claim.leaseUntil, attemptCount := claim.attemptCount })
  else none

/-- Claim the cache refresh of a completed day. -/
def claimPendingCache (now : ℤ) (row : QueueRow) : Option (CacheRefreshClaim × QueueRow) :=
  match row.completedAt with
  | none => none
  | some completedAt =>
      if row.cacheReadyAt = none ∧ ∀ started ∈ row.cacheStartedAt, started ≤ now then
        some ({ attemptCount := row.attemptCount
                completedAt := completedAt
                leaseUntil := now + claimLease },
          { row with cacheStartedAt := some (now + claimLease) })
      else none

/-- The row is still the one that a claim fenced. -/
def QueueRow.Holds (row : QueueRow) (claim : RecalcClaim) : Prop :=
  row.completedAt = none ∧ row.attemptCount = claim.attemptCount ∧
    row.startedAt = some claim.leaseUntil

instance (row : QueueRow) (claim : RecalcClaim) : Decidable (row.Holds claim) :=
  inferInstanceAs (Decidable (_ ∧ _))

/-- Store the recomputed day and complete the claim, or find it superseded. -/
def completeClaim (claim : RecalcClaim) (completedAt : ℤ) (row : QueueRow) : Option QueueRow :=
  if row.Holds claim then
    some { row with
      completedAt := some completedAt
      startedAt := none
      cacheStartedAt := some (completedAt + claimLease)
      cacheReadyAt := none
      lastError := none }
  else none

def markCacheReady (claim : CacheRefreshClaim) (readyAt : ℤ) (row : QueueRow) : Option QueueRow :=
  if row.completedAt = some claim.completedAt ∧ row.attemptCount = claim.attemptCount ∧
      row.cacheReadyAt = none ∧ row.cacheStartedAt = some claim.leaseUntil then
    some { row with cacheStartedAt := none, cacheReadyAt := some readyAt }
  else none

def errorText (message typeName : String) : String :=
  ((if message = "" then typeName else message).take errorLimit).toString

/-- Keep the day from being claimed until its next attempt. -/
def recordFailure (claim : RecalcClaim) (message typeName : String) (failedAt : ℤ)
    (row : QueueRow) : Option QueueRow :=
  if row.Holds claim then
    some { row with
      startedAt := some (failedAt + retryDelay claim.attemptCount)
      lastError := some (errorText message typeName) }
  else none

/-! ## Workers -/

/-- Where a worker is in `process_next`. -/
inductive Worker
  | idle
  /-- The clock was read; the caches are looked at first. -/
  | began (now : ℤ)
  /-- There was no cache refresh to claim. -/
  | searching (now : ℤ)
  | preparing (claim : RecalcClaim)
  | completing (claim : RecalcClaim) (completedAt : ℤ)
  | failing (claim : RecalcClaim) (failedAt : ℤ)
  | refreshing (claim : CacheRefreshClaim)
  | marking (claim : CacheRefreshClaim) (readyAt : ℤ)

/-- The recalculation claim that a worker holds. -/
def Worker.claim : Worker → Option RecalcClaim
  | .preparing claim => some claim
  | .completing claim _ => some claim
  | .failing claim _ => some claim
  | _ => none

/-- The cache refresh that a worker holds. -/
def Worker.refresh : Worker → Option CacheRefreshClaim
  | .refreshing claim => some claim
  | .marking claim _ => some claim
  | _ => none

/-- What happened to the day. -/
inductive Event (W : Type*)
  | enqueued
  | claimed (worker : W) (claim : RecalcClaim)
  | completed (worker : W) (claim : RecalcClaim) (completedAt : ℤ)
  | refreshBegan (worker : W) (claim : CacheRefreshClaim)
  deriving DecidableEq

/-- The row, the workers, the last reading of the clock and what happened, latest first. -/
structure State (W : Type*) where
  row : Option QueueRow
  workers : W → Worker
  clock : ℤ
  history : List (Event W)

def State.initial (W : Type*) (clock : ℤ) : State W where
  row := none
  workers _ := .idle
  clock := clock
  history := []

inductive Action (W : Type*)
  | enqueue (reason : String) (requestedAt : ℤ)
  | begin (worker : W) (now : ℤ)
  | claimCache (worker : W)
  | passCache (worker : W)
  | claim (worker : W)
  /-- The day is recomputed, and the clock is read. -/
  | prepared (worker : W) (completedAt : ℤ)
  /-- An exception while recomputing or storing; the clock is read. -/
  | raised (worker : W) (failedAt : ℤ)
  | complete (worker : W)
  /-- The completion is committed, but its worker sees an exception. -/
  | completeUnheard (worker : W) (failedAt : ℤ)
  | fail (worker : W) (message typeName : String)
  /-- The caches are refreshed, and the clock is read. -/
  | refreshed (worker : W) (readyAt : ℤ)
  | markReady (worker : W)
  /-- The worker crashes, gives up or has turned to another day. -/
  | leave (worker : W)

/-- The worker that acts. -/
def Action.worker {W : Type*} : Action W → Option W
  | .enqueue _ _ => none
  | .begin worker _ => some worker
  | .claimCache worker => some worker
  | .passCache worker => some worker
  | .claim worker => some worker
  | .prepared worker _ => some worker
  | .raised worker _ => some worker
  | .complete worker => some worker
  | .completeUnheard worker _ => some worker
  | .fail worker _ _ => some worker
  | .refreshed worker _ => some worker
  | .markReady worker => some worker
  | .leave worker => some worker

section Step

variable {W : Type*} [DecidableEq W]

def State.become (state : State W) (worker : W) (phase : Worker) : State W :=
  { state with workers := Function.update state.workers worker phase }

/-- The refresh that the completing worker goes on to. -/
def ownRefresh (claim : RecalcClaim) (completedAt : ℤ) : CacheRefreshClaim where
  attemptCount := claim.attemptCount
  completedAt := completedAt
  leaseUntil := completedAt + claimLease

/-- The clock is read by a worker; its readings increase. -/
def State.read (state : State W) (now : ℤ) (worker : W) (phase : Worker) : Option (State W) :=
  if state.clock < now then some { state.become worker phase with clock := now } else none

def step (state : State W) : Action W → Option (State W)
  | .enqueue reason requestedAt => some { state with
      row := some (enqueueRecalc reason requestedAt state.row)
      history := .enqueued :: state.history }
  | .begin worker now =>
      match state.workers worker with
      | .idle => state.read now worker (.began now)
      | _ => none
  | .claimCache worker =>
      match state.workers worker with
      | .began now =>
          (state.row.bind (claimPendingCache now)).map fun result =>
            { state.become worker (.refreshing result.1) with
              row := some result.2
              history := .refreshBegan worker result.1 :: state.history }
      | _ => none
  | .passCache worker =>
      match state.workers worker with
      | .began now => some (state.become worker (.searching now))
      | _ => none
  | .claim worker =>
      match state.workers worker with
      | .searching now =>
          (state.row.bind (claimNext now)).map fun result =>
            { state.become worker (.preparing result.1) with
              row := some result.2
              history := .claimed worker result.1 :: state.history }
      | _ => none
  | .prepared worker completedAt =>
      match state.workers worker with
      | .preparing claim => state.read completedAt worker (.completing claim completedAt)
      | _ => none
  | .raised worker failedAt =>
      match state.workers worker with
      | .preparing claim => state.read failedAt worker (.failing claim failedAt)
      | .completing claim _ => state.read failedAt worker (.failing claim failedAt)
      | _ => none
  | .complete worker =>
      match state.workers worker with
      | .completing claim completedAt =>
          match state.row.bind (completeClaim claim completedAt) with
          | none => some (state.become worker .idle)
          | some row => some
              { state.become worker (.refreshing (ownRefresh claim completedAt)) with
                row := some row
                history := .refreshBegan worker (ownRefresh claim completedAt) ::
                  .completed worker claim completedAt :: state.history }
      | _ => none
  | .completeUnheard worker failedAt =>
      match state.workers worker with
      | .completing claim completedAt =>
          (state.row.bind (completeClaim claim completedAt)).bind fun row =>
            { state with
              row := some row
              history := .completed worker claim completedAt :: state.history }.read
                failedAt worker (.failing claim failedAt)
      | _ => none
  | .fail worker message typeName =>
      match state.workers worker with
      | .failing claim failedAt =>
          match state.row.bind (recordFailure claim message typeName failedAt) with
          | none => some (state.become worker .idle)
          | some row => some { state.become worker .idle with row := some row }
      | _ => none
  | .refreshed worker readyAt =>
      match state.workers worker with
      | .refreshing claim => state.read readyAt worker (.marking claim readyAt)
      | _ => none
  | .markReady worker =>
      match state.workers worker with
      | .marking claim readyAt =>
          match state.row.bind (markCacheReady claim readyAt) with
          | none => some (state.become worker .idle)
          | some row => some { state.become worker .idle with row := some row }
      | _ => none
  | .leave worker => some (state.become worker .idle)

end Step

end PlantManager.Attendance.Recalc

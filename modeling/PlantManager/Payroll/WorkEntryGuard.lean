import PlantManager.Payroll.WorkEntryStore
import PlantManager.Transition.Runs

/-! # The payroll guard

A run takes up the attempts that earlier runs left pending, one after the other, and then the
decisions of the days it reads (`Payroll.runEnabled`). Runs hold a lock, so one ends
before the next begins; the script of a run says which of its calls fail and where it is cut off.
Between the runs other users edit Odoo (`Payroll.Action.edit`).
-/

namespace PlantManager.Payroll

open Transition

variable {H : Type} [Hours H]

/-- How far back a run looks, in seconds. -/
def lookback : ℤ := 90 * 86400

def asReview (decision : Decision H) (reason : String) : Decision H :=
  { decision with kind := .review, reasonCodes := [reason], action := none }

def pendingReview (decision : Decision H) (reason : String) : Decision H :=
  { decision with
    kind := .review
    reasonCodes :=
      if reason = "pending_correction" then [reason] else ["pending_correction", reason]
    action := none }

def sameIdentity (row : WorkRow H) (decision : Decision H) : Bool :=
  some row.id = decision.workEntryId && row.employeeId = decision.employeeId &&
    row.date = decision.workDate && row.active && row.state = "draft" && !row.conflict &&
    row.typeCode = "WORK100" && row.attendanceId = decision.attendanceId

def durationMatches (row : Option (WorkRow H)) (decision : Decision H) (expected : Option H) :
    Bool :=
  match row, expected with
  | some row, some expected =>
      sameIdentity row decision && Hours.le (Hours.abs (row.duration - expected)) Hours.tolerance
  | _, _ => false

/-! ## The decisions of the days -/

/-- The decision of a day from the rows of several days. -/
def dayDecision (workRows : List (WorkRow H)) (attendanceRows : List (AttendanceRow H))
    (employeeId : ℤ) (employeeName : String) (workDate : ℤ) : Decision H :=
  let groupedWork := workRows.filter fun row => row.employeeId = employeeId && row.date = workDate
  if groupedWork = [] then
    { kind := .review
      employeeId, employeeName, workDate
      reasonCodes := ["missing_candidate_group"]
      action := none
      workEntryId := none
      attendanceId := none
      beforeDuration := 0
      afterDuration := none
      attendanceRegular := 0
      attendanceOvertime := 0
      workRegular := 0
      workOvertime := 0 }
  else
    classifyDay employeeId employeeName workDate groupedWork
      (attendanceRows.filter fun row => row.employeeId = employeeId && row.date = workDate)

/-- The days of the candidates in order. -/
def candidateKeys (candidates : List (WorkRow H)) : List (ℤ × ℤ) :=
  Ranking.sortBy toLex ((candidates.map fun row => (row.employeeId, row.date)).dedup)

/-- The name that the last candidate of a day gives its employee. -/
def candidateName (candidates : List (WorkRow H)) (key : ℤ × ℤ) : String :=
  ((candidates.reverse.find? fun row => (row.employeeId, row.date) = key).map
    (·.employeeName)).getD ""

def classifyCandidates (candidates : List (WorkRow H)) : Job (World H) (List (Decision H)) := do
  let keys := candidateKeys candidates
  let days := keys.map (·.2)
  let (workRows, attendanceRows) ← fetchPayrollInputs (keys.map (·.1)).dedup
    (days.min?.getD 0) (days.max?.getD 0)
  return keys.map fun key =>
    dayDecision workRows attendanceRows key.1 (candidateName candidates key) key.2

/-! ## One attempt -/

def markPending (attempt : CorrectionAttempt H) (reason detail : String) (now : ℤ) :
    Job (World H) (Decision H) := do
  let _ ← Job.tried (markAttemptIssue attempt.attemptId reason detail now)
  return pendingReview attempt.decision reason

/-- The issue that an attempt is left with. -/
def leavePending (attempt : CorrectionAttempt H) (reason detail : String) (now : ℤ) :
    Job (World H) (ℕ × Option (Decision H)) := do
  let review ← markPending attempt reason detail now
  return (0, some review)

def finalizeVerified (attempt : CorrectionAttempt H) (detail : String) (now : ℤ)
    (mutatedThisRun : Bool) : Job (World H) (ℕ × Option (Decision H)) := do
  match ← Job.tried (finalizeAttempt attempt.toIntent detail now) with
  | some _ => return (mutatedThisRun.toNat, none)
  | none => do
      let review ← markPending attempt "audit_failed"
        "verified Odoo change is waiting for permanent audit history" now
      return (mutatedThisRun.toNat, some review)

/-- What an unchanged or an unknown row says about a mutation. -/
def reviewMutation (attempt : CorrectionAttempt H) (verified : Option (WorkRow H))
    (mutationFailed : Bool) (now : ℤ) : Job (World H) (ℕ × Option (Decision H)) :=
  if durationMatches verified attempt.decision (some attempt.decision.beforeDuration) then
    if mutationFailed then
      leavePending attempt "write_failed"
        "Odoo still has the saved original after an unclear mutation response" now
    else
      leavePending attempt "verification_failed"
        "Odoo still has the saved original after the mutation request" now
  else
    leavePending attempt "fresh_state_changed"
      "Odoo matches neither the saved original nor the correction target" now

def readAfterMutation (attempt : CorrectionAttempt H) (mutationFailed : Bool) (now : ℤ) :
    Job (World H) (ℕ × Option (Decision H)) := do
  let decision := attempt.decision
  match ← Job.tried (fetchPayrollWorkEntry attempt.toIntent) with
  | none =>
      leavePending attempt "verification_failed"
        "could not reread Odoo after the mutation request" now
  | some verified =>
      if decision.action = some .durationUpdate then
        if durationMatches verified decision decision.afterDuration then
          finalizeVerified attempt "duration reread matched" now true
        else reviewMutation attempt verified mutationFailed now
      else if verified.isNone then
        finalizeVerified attempt "zero-target draft regular row absent" now true
      else reviewMutation attempt verified mutationFailed now

def sendChange (attempt : CorrectionAttempt H) (now : ℤ) : Job (World H) Unit :=
  match attempt.decision.action with
  | some .durationUpdate => setPayrollWorkEntryDuration attempt.toIntent now
  | some .deleteZeroRegular => deletePayrollWorkEntry attempt.toIntent
  | none => fun world => (.raised, world)

def reconcileAttempt (attempt : CorrectionAttempt H) (now : ℤ) :
    Job (World H) (ℕ × Option (Decision H)) := do
  let decision := attempt.decision
  match ← Job.tried (fetchPayrollWorkEntry attempt.toIntent) with
  | none =>
      leavePending attempt "fresh_read_failed"
        "could not read the pending Work Entry from Odoo" now
  | some fresh =>
      if decision.action = some .durationUpdate ∧
          durationMatches fresh decision decision.afterDuration then
        finalizeVerified attempt "target observed during recovery; actor unknown" now false
      else if decision.action = some .deleteZeroRegular ∧ fresh = none then
        finalizeVerified attempt "row absent during recovery; actor unknown" now false
      else if ¬ durationMatches fresh decision (some decision.beforeDuration) then
        leavePending attempt "fresh_state_changed"
          "Odoo matches neither the saved original nor the correction target" now
      else do
        let sent ← Job.tried (sendChange attempt now)
        readAfterMutation attempt sent.isNone now

/-! ## A run -/

/-- What a run counted so far: the corrections, the issues for review, and the entries whose
attempts are pending still. -/
structure Tally (H : Type) where
  corrected : ℕ
  reviews : List (Decision H)
  pendingEntryIds : List (Option ℤ)

def Tally.add (tally : Tally H) (entryId : Option ℤ) (outcome : ℕ × Option (Decision H)) :
    Tally H :=
  match outcome with
  | (corrected, none) => { tally with corrected := tally.corrected + corrected }
  | (corrected, some review) =>
      { corrected := tally.corrected + corrected
        reviews := tally.reviews ++ [review]
        pendingEntryIds := tally.pendingEntryIds ++ [entryId] }

/-- Reconcile one of the attempts that earlier runs left. -/
def reconcilePending (attempt : CorrectionAttempt H) (now : ℤ) :
    Job (World H) (ℕ × Option (Decision H)) := do
  match ← Job.tried (reconcileAttempt attempt now) with
  | some outcome => return outcome
  | none =>
      leavePending attempt "verification_failed"
        "unexpected error while checking the saved correction" now

def reconcileAttempts (now : ℤ) : List (CorrectionAttempt H) → Tally H → Job (World H) (Tally H)
  | [], tally => return tally
  | attempt :: rest, tally => do
      let outcome ← reconcilePending attempt now
      reconcileAttempts now rest (tally.add attempt.decision.workEntryId outcome)

variable [DecidableEq H]

/-- Save and reconcile the decisions of this run. -/
def correctDays (now : ℤ) : List (Decision H) → Tally H → Job (World H) (Tally H)
  | [], tally => return tally
  | decision :: rest, tally => do
      if decision.workEntryId ∈ tally.pendingEntryIds then correctDays now rest tally
      else
        let attemptId ← uuid4
        match ← Job.tried (createAttempt attemptId decision now) with
        | none =>
            correctDays now rest
              { tally with reviews := tally.reviews ++ [asReview decision "intent_failed"] }
        | some attempt => do
            let outcome ← reconcileAttempt attempt now
            correctDays now rest (tally.add decision.workEntryId outcome)

/-- What a run reports. -/
structure Report where
  corrected : ℕ
  review : ℕ
  noop : ℕ
  deriving DecidableEq, Repr

/-- The review task is kept elsewhere; the run goes on when it fails. -/
def syncReviewTask : Job (World H) Unit := do
  let _ ← Job.tried (call fun world => .ok ((), world))
  return ()

def runEnabled (now : ℤ) : Job (World H) Report := do
  let pendingAttempts ← loadPendingAttempts
  let tally ← reconcileAttempts now pendingAttempts ⟨0, [], []⟩
  let candidates ← fetchRecentPayrollCandidates (now - lookback)
  if candidates = [] then
    syncReviewTask
    return { corrected := tally.corrected, review := tally.reviews.length, noop := 0 }
  else
    let decisions ← classifyCandidates candidates
    let tally ← correctDays now (decisions.filter fun item => item.kind = .correct)
      { tally with
        reviews := tally.reviews ++ decisions.filter fun item => item.kind = .review }
    syncReviewTask
    return {
      corrected := tally.corrected
      review := tally.reviews.length
      noop := (decisions.filter fun item => item.kind = .noop).length }

/-! ## Histories -/

inductive Action (H : Type) where
  | run (now : ℤ) (script : List Job.Verdict)
  | edit (odoo : Odoo H)

def step (world : World H) : Action H → Option (World H)
  | .run now script => some (runEnabled now { world.note .began with script }).2
  | .edit odoo => some { world.note (.edited world.odoo odoo) with odoo }

/-- The world before the first run. -/
def World.initial (odoo : Odoo H) : World H :=
  { odoo, attempts := [], corrections := [], ids := 0, script := [], history := [] }

/-- The worlds that runs and edits reach. -/
def Occurs (odoo : Odoo H) : World H → Prop := Reachable (World.initial odoo) step fun _ _ => True

end PlantManager.Payroll

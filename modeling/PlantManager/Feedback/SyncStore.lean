import PlantManager.Feedback.TaskDelivery

/-! # The outbox of Odoo improvements

The row of `feedback_odoo_sync` of one feedback, its attempts, and the transactions on them. A
transaction that raises gives nothing. The claim columns are set exactly while the row is in
flight, so they stand with that state.
-/

namespace PlantManager.Feedback.Sync

open PlantManager.Feedback

def maxMutationAttempts : ℕ := 8

/-- Five minutes. -/
def claimLease : ℤ := 300000000

def retryDelays : List ℤ := [1, 2, 4, 8, 16, 32, 60]

/-- The bounded retry instant of a one-based attempt count. -/
def retryDue (now : ℤ) (attemptCount : ℕ) : ℤ :=
  now + retryDelays.getD (min (attemptCount - 1) (retryDelays.length - 1)) 60 * 60000000

def definitiveFailureSummaries : List (String × String) :=
  [("gate_closed_before_rpc", "The sharing gate closed before the Odoo change."),
    ("identity_read_failed", "The Odoo identity check could not finish."),
    ("odoo_fault", "Odoo refused the feedback change.")]

def unpreparedReadFailureSummaries : List (String × String) :=
  [("identity_read_failed", "The Odoo feedback lookup could not finish."),
    ("odoo_fault", "Odoo could not complete the feedback lookup.")]

def quarantineSummaries : List (String × String) :=
  [("ambiguous_mutation", "The Odoo result is unclear, so this feedback stopped."),
    ("ambiguous_stale_dispatch", "Sharing stopped after it may have started."),
    ("contract_changed_before_dispatch", "The Odoo field setup changed before sharing."),
    ("compound_identity_changed_before_dispatch",
      "The Odoo feedback record changed before sharing."),
    ("duplicate_compound_identity", "More than one Odoo record has this feedback number."),
    ("local_binary_evidence_changed", "The saved picture no longer matches this step."),
    ("local_projection_unavailable", "The saved local feedback version could not be read."),
    ("readback_mismatch", "The Odoo copy did not match the saved feedback."),
    ("saved_id_ownership_conflict", "The saved Odoo record no longer matches this feedback."),
    ("target_identity_or_contract_mismatch", "The Odoo target or fields changed.")]

def reviewAttentionCodes : List String :=
  ["review_task_identity_mismatch", "review_reference_identity_mismatch",
    "review_reference_link_mismatch", "review_lifecycle_mismatch", "review_terminal_conflict"]

/-! ## Rows and attempts -/

inductive SyncState where
  | idle
  | inFlight (lease : Lease)
  | quarantined
deriving DecidableEq

def SyncState.lease : SyncState → Option Lease
  | .inFlight lease => some lease
  | _ => none

inductive MutationKind where
  | create
  | update
deriving DecidableEq

inductive AttemptState where
  | prepared
  | dispatchMarked
  | rpcSucceeded
  | verified
  | definitiveFailed
  | ambiguous
deriving DecidableEq

/-- What is sent to Odoo: the lifecycle of one version, and the other fields. -/
structure Manifest where
  behavior : Behavior
  review : Review
  fields : List (String × String)
deriving DecidableEq

structure Attempt where
  attemptId : ℕ
  projectionVersion : ℕ
  mutationKind : MutationKind
  remoteId : Option ℕ
  manifest : Manifest
  state : AttemptState
  outcomeDetail : Option String
deriving DecidableEq

def Attempt.SameImmutable (left right : Attempt) : Prop :=
  left.attemptId = right.attemptId ∧ left.projectionVersion = right.projectionVersion ∧
    left.mutationKind = right.mutationKind ∧ left.manifest = right.manifest

instance (left right : Attempt) : Decidable (left.SameImmutable right) :=
  inferInstanceAs (Decidable (_ ∧ _))

structure SyncRow where
  state : SyncState
  dueAt : ℤ
  attemptCount : ℕ
  desiredVersion : ℕ
  lastSyncedVersion : ℕ
  odooImprovementId : Option ℕ
  activeAttemptId : Option ℕ
  lastErrorClass : Option String
  lastErrorSummary : Option String
  quarantineReason : Option String
  quarantinedAt : Option ℤ
deriving DecidableEq

structure Store where
  row : SyncRow
  attempts : ℕ → Option Attempt

structure Claim where
  desiredVersion : ℕ
  lastSyncedVersion : ℕ
  odooImprovementId : Option ℕ
  lease : Lease
  activeAttemptId : Option ℕ
  attemptCount : ℕ
deriving DecidableEq

def createRow (now : ℤ) : SyncRow where
  state := .idle
  dueAt := now
  attemptCount := 0
  desiredVersion := 1
  lastSyncedVersion := 0
  odooImprovementId := none
  activeAttemptId := none
  lastErrorClass := none
  lastErrorSummary := none
  quarantineReason := none
  quarantinedAt := none

/-- Another state of an attempt. -/
def Store.mark (store : Store) (attempt : Attempt) : Store :=
  { store with attempts := Function.update store.attempts attempt.attemptId (some attempt) }

/-- The row is due again. -/
def SyncRow.release (row : SyncRow) (dueAt : ℤ) : SyncRow :=
  { row with state := .idle, dueAt := dueAt }

/-! ## Locks -/

/-- The row is in flight under the lease of the claim, which may be renewed. -/
def Claim.Holds (claim : Claim) (row : SyncRow) : Prop :=
  ∃ lease ∈ row.state.lease, lease.owner = claim.lease.owner ∧ lease.token = claim.lease.token

instance (claim : Claim) (row : SyncRow) : Decidable (claim.Holds row) :=
  inferInstanceAs (Decidable (∃ lease ∈ row.state.lease, _))

/-- The claim still has the row, without an attempt. -/
def LockUnprepared (claim : Claim) (row : SyncRow) : Prop :=
  row.state = .inFlight claim.lease ∧ claim.activeAttemptId = none ∧
    row.activeAttemptId = none ∧ row.desiredVersion = claim.desiredVersion ∧
    row.lastSyncedVersion = claim.lastSyncedVersion ∧
    row.odooImprovementId = claim.odooImprovementId ∧ row.attemptCount = claim.attemptCount

instance (claim : Claim) (row : SyncRow) : Decidable (LockUnprepared claim row) :=
  inferInstanceAs (Decidable (_ ∧ _))

/-- The claim still has the row, without an attempt, and a later version may be wanted. -/
def LockStale (claim : Claim) (row : SyncRow) : Prop :=
  row.state = .inFlight claim.lease ∧ claim.activeAttemptId = none ∧
    row.activeAttemptId = none ∧ claim.desiredVersion ≤ row.desiredVersion ∧
    row.lastSyncedVersion = claim.lastSyncedVersion ∧
    row.odooImprovementId = claim.odooImprovementId ∧ row.attemptCount = claim.attemptCount

instance (claim : Claim) (row : SyncRow) : Decidable (LockStale claim row) :=
  inferInstanceAs (Decidable (_ ∧ _))

/-- The claim still has the row, and the attempt is its active one in one of these states. -/
def LockOwned (claim : Claim) (attempt : Attempt) (expected : List AttemptState) (row : SyncRow)
    (locked : Attempt) : Prop :=
  claim.Holds row ∧
    (claim.activeAttemptId = none ∨ claim.activeAttemptId = some attempt.attemptId) ∧
    claim.lastSyncedVersion < attempt.projectionVersion ∧
    attempt.projectionVersion ≤ claim.desiredVersion ∧
    claim.desiredVersion ≤ row.desiredVersion ∧
    row.lastSyncedVersion = claim.lastSyncedVersion ∧
    row.activeAttemptId = some attempt.attemptId ∧ row.attemptCount = claim.attemptCount ∧
    locked.SameImmutable attempt ∧ locked.state ∈ expected ∧
    (locked.state = .rpcSucceeded →
      locked.remoteId.isSome ∧ row.odooImprovementId = locked.remoteId) ∧
    (locked.state ≠ .rpcSucceeded → row.odooImprovementId = claim.odooImprovementId)

instance (claim : Claim) (attempt : Attempt) (expected : List AttemptState) (row : SyncRow)
    (locked : Attempt) : Decidable (LockOwned claim attempt expected row locked) :=
  inferInstanceAs (Decidable (_ ∧ _))

def lockOwnedAttempt (claim : Claim) (attempt : Attempt) (expected : List AttemptState)
    (store : Store) : Option Attempt :=
  (store.attempts attempt.attemptId).filter fun locked =>
    LockOwned claim attempt expected store.row locked

/-! ## Transactions of a worker -/

def SyncRow.Due (row : SyncRow) (now : ℤ) : Prop :=
  row.state = .idle ∧ row.dueAt ≤ now ∧ row.lastSyncedVersion < row.desiredVersion

instance (row : SyncRow) (now : ℤ) : Decidable (row.Due now) :=
  inferInstanceAs (Decidable (_ ∧ _))

def claimDue (now : ℤ) (owner : String) (token : ℕ) (row : SyncRow) : Option (Claim × SyncRow) :=
  if row.Due now then
    let lease : Lease := ⟨owner, token, now + claimLease⟩
    some (⟨row.desiredVersion, row.lastSyncedVersion, row.odooImprovementId, lease,
      row.activeAttemptId, row.attemptCount⟩, { row with state := .inFlight lease })
  else none

/-- The active attempt of the claim, if it has one. -/
def loadActiveAttempt (claim : Claim) (store : Store) : Option (Option Attempt) :=
  if claim.Holds store.row ∧ claim.desiredVersion ≤ store.row.desiredVersion ∧
      store.row.lastSyncedVersion = claim.lastSyncedVersion ∧
      store.row.odooImprovementId = claim.odooImprovementId ∧
      store.row.activeAttemptId = claim.activeAttemptId ∧
      store.row.attemptCount = claim.attemptCount then
    match claim.activeAttemptId with
    | none => some none
    | some attemptId =>
        ((store.attempts attemptId).filter fun loaded =>
          claim.lastSyncedVersion < loaded.projectionVersion ∧
            loaded.projectionVersion ≤ claim.desiredVersion).map some
  else none

/-- Release a claim whose version is no longer wanted. -/
def releaseStaleUnpreparedClaim (claim : Claim) (now : ℤ) (row : SyncRow) : Option SyncRow :=
  if LockStale claim row ∧ claim.desiredVersion < row.desiredVersion then some (row.release now)
  else none

def deferUnpreparedReadFailure (claim : Claim) (errorClass : String) (now : ℤ) (row : SyncRow) :
    Option SyncRow :=
  if LockStale claim row then
    (unpreparedReadFailureSummaries.lookup errorClass).map fun summary =>
      { row.release (if claim.desiredVersion < row.desiredVersion then now else retryDue now 1) with
        lastErrorClass := some errorClass
        lastErrorSummary := some summary }
  else none

/-- Save the evidence of a mutation before it can be dispatched. -/
def prepareAttempt (claim : Claim) (attemptId : ℕ) (kind : MutationKind) (remoteId : Option ℕ)
    (manifest : Manifest) (store : Store) : Option (Attempt × Store) :=
  if (kind = .create ↔ remoteId = none) ∧ LockUnprepared claim store.row ∧
      store.attempts attemptId = none then
    let saved : Attempt :=
      { attemptId := attemptId
        projectionVersion := claim.desiredVersion
        mutationKind := kind
        remoteId := remoteId
        manifest := manifest
        state := .prepared
        outcomeDetail := none }
    some (saved, { (store.mark saved) with
      row := { store.row with activeAttemptId := some attemptId } })
  else none

def deferPreparedForClosedGate (claim : Claim) (attempt : Attempt) (now : ℤ) (store : Store) :
    Option Store :=
  (lockOwnedAttempt claim attempt [.prepared] store).map fun _ =>
    { store with row := store.row.release now }

def markDispatch (claim : Claim) (attempt : Attempt) (store : Store) : Option (Attempt × Store) :=
  (lockOwnedAttempt claim attempt [.prepared] store).map fun locked =>
    let marked : Attempt := { locked with state := .dispatchMarked }
    (marked, store.mark marked)

def markRpcSucceeded (claim : Claim) (attempt : Attempt) (remoteId : ℕ) (store : Store) :
    Option (Attempt × Store) :=
  (lockOwnedAttempt claim attempt [.dispatchMarked] store).bind fun locked =>
    if locked.remoteId = match locked.mutationKind with
        | .update => some remoteId
        | .create => none then
      let succeeded : Attempt := { locked with state := .rpcSucceeded, remoteId := some remoteId }
      some (succeeded, { (store.mark succeeded) with
        row := { store.row with odooImprovementId := some remoteId } })
    else none

def scheduleReadback (claim : Claim) (attempt : Attempt) (now : ℤ) (store : Store) :
    Option Store :=
  (lockOwnedAttempt claim attempt [.rpcSucceeded] store).map fun _ =>
    { store with row := store.row.release now }

/-- Settle the version of an attempt that was read back equal. -/
def settleVerified (claim : Claim) (attempt : Attempt) (remoteId : ℕ) (now : ℤ) (store : Store) :
    Option Store :=
  (lockOwnedAttempt claim attempt [.rpcSucceeded] store).bind fun locked =>
    if locked.remoteId = some remoteId then
      some { (store.mark { locked with state := .verified }) with
        row :=
          { store.row with
            lastSyncedVersion := attempt.projectionVersion
            state := .idle
            activeAttemptId := none
            attemptCount := 0
            lastErrorClass := none
            lastErrorSummary := none
            quarantineReason := none
            quarantinedAt := none
            dueAt :=
              if attempt.projectionVersion < store.row.desiredVersion then now
              else store.row.dueAt } }
    else none

/-- A mutation that certainly did not happen is retried, or given up after the last retry. -/
def recordDefinitiveFailure (claim : Claim) (attempt : Attempt) (errorClass : String) (now : ℤ)
    (store : Store) : Option Store :=
  (definitiveFailureSummaries.lookup errorClass).bind fun summary =>
    if claim.attemptCount < maxMutationAttempts then
      (lockOwnedAttempt claim attempt [.prepared, .dispatchMarked] store).map fun locked =>
        let failed : SyncRow :=
          { store.row with
            attemptCount := claim.attemptCount + 1
            lastErrorClass := some errorClass
            lastErrorSummary := some summary }
        { (store.mark { locked with
            state := .definitiveFailed
            outcomeDetail := some errorClass }) with
          row :=
            if maxMutationAttempts ≤ claim.attemptCount + 1 then
              { failed with
                state := .quarantined
                quarantineReason := some "retry_exhausted"
                quarantinedAt := some now }
            else
              { failed.release (retryDue now (claim.attemptCount + 1)) with
                activeAttemptId := none } }
    else none

/-- The row stops for a reason. -/
def SyncRow.quarantine (row : SyncRow) (reason summary : String) (now : ℤ) : SyncRow :=
  { row with
    state := .quarantined
    quarantineReason := some reason
    quarantinedAt := some now
    lastErrorClass := some reason
    lastErrorSummary := some summary }

/-- Quarantine owned work; the attempt, if there is one, becomes ambiguous. -/
def quarantine (claim : Claim) (reason : String) (now : ℤ) (attempt : Option Attempt)
    (store : Store) : Option Store :=
  (quarantineSummaries.lookup reason).bind fun summary =>
    match attempt with
    | none =>
        if LockUnprepared claim store.row then
          some { store with row := store.row.quarantine reason summary now }
        else none
    | some attempt =>
        (lockOwnedAttempt claim attempt [.prepared, .dispatchMarked, .rpcSucceeded] store).map
          fun locked =>
            { (store.mark { locked with state := .ambiguous, outcomeDetail := some reason }) with
              row := store.row.quarantine reason summary now }

/-! ## Recovery and operators -/

/-- An expired claim makes the row due again, but for an attempt that may have been sent. -/
def recoverExpiredClaims (now : ℤ) (store : Store) : Option Store :=
  store.row.state.lease.bind fun lease =>
    if lease.expiresAt ≤ now then
      match store.row.activeAttemptId with
      | none => some { store with row := store.row.release now }
      | some attemptId =>
          (store.attempts attemptId).bind fun attempt =>
            if store.row.lastSyncedVersion < attempt.projectionVersion ∧
                attempt.projectionVersion ≤ store.row.desiredVersion then
              match attempt.state with
              | .prepared => some { store with row := store.row.release now }
              | .rpcSucceeded =>
                  if attempt.remoteId.isSome ∧ attempt.remoteId = store.row.odooImprovementId then
                    some { store with row := store.row.release now }
                  else none
              | .dispatchMarked =>
                  (quarantineSummaries.lookup "ambiguous_stale_dispatch").map fun summary =>
                    { (store.mark { attempt with
                        state := .ambiguous
                        outcomeDetail := some "ambiguous_stale_dispatch" }) with
                      row := store.row.quarantine "ambiguous_stale_dispatch" summary now }
              | _ => none
            else none
    else none

inductive Disposition where
  | keep
  | releaseDefinitive
  | supersedeAndRetry
deriving DecidableEq

/-- The row of a disposition, free for a new attempt. -/
def SyncRow.dispose (row : SyncRow) (now : ℤ) : SyncRow :=
  { row.release now with
    activeAttemptId := none
    attemptCount := 0
    quarantineReason := none
    quarantinedAt := none
    lastErrorClass := none
    lastErrorSummary := none }

/-- An operator's decision on the active attempt of a quarantined row. -/
def applyQuarantineDisposition (attemptId : ℕ) (disposition : Disposition) (confirmed : Bool)
    (now : ℤ) (record : Record) (store : Store) : Option (Record × Store) :=
  (store.attempts attemptId).bind fun attempt =>
    if store.row.state = .quarantined ∧ store.row.activeAttemptId = some attemptId ∧
        store.row.lastSyncedVersion < attempt.projectionVersion ∧
        attempt.projectionVersion ≤ store.row.desiredVersion ∧ attempt.state ≠ .verified ∧
        attempt.remoteId = store.row.odooImprovementId ∧
        record.projectionVersion = store.row.desiredVersion then
      match disposition with
      | .keep => some (record, store)
      | .releaseDefinitive =>
          if attempt.state = .prepared ∨ attempt.state = .definitiveFailed then
            some (record, { store with row := store.row.dispose now })
          else none
      | .supersedeAndRetry =>
          if confirmed ∧ attempt.state = .ambiguous then
            some ({ record with projectionVersion := record.projectionVersion + 1 },
              { store with
                row :=
                  { store.row.dispose now with
                    desiredVersion := store.row.desiredVersion + 1 } })
          else none
    else none

/-- An operator releases a quarantine that came before any attempt. -/
def releasePreAttemptQuarantine (now : ℤ) (record : Record) (row : SyncRow) : Option SyncRow :=
  if row.state = .quarantined ∧ row.lastSyncedVersion < row.desiredVersion ∧
      row.odooImprovementId = none ∧ row.attemptCount = 0 ∧ row.activeAttemptId = none ∧
      row.quarantineReason = some "target_identity_or_contract_mismatch" ∧
      row.lastErrorClass = row.quarantineReason ∧
      row.lastErrorSummary =
        quarantineSummaries.lookup "target_identity_or_contract_mismatch" ∧
      record.projectionVersion = row.desiredVersion then
    some
      { row.release now with
        lastErrorClass := none
        lastErrorSummary := none
        quarantineReason := none
        quarantinedAt := none }
  else none

/-! ## Lifecycle changes and reviews -/

/-- A local change wants a newer version. -/
def enqueueTransition (version : ℕ) (now : ℤ) (row : SyncRow) : SyncRow :=
  { row with
    desiredVersion := version
    dueAt := now
    state := match row.state with
      | .inFlight lease => .inFlight lease
      | .quarantined => .quarantined
      | .idle => .idle }

/-- What a reconciler read of the feedback, and the claim it took on the row. -/
structure ReviewCandidate where
  status : Status
  projectionVersion : ℕ
  odooTaskId : ℕ
  odooImprovementId : ℕ
  /-- The lease, and the state the row had before it. -/
  claimed : Option (Lease × SyncState)
deriving DecidableEq

/-- Claim the row before any call about the review. -/
def claimReviewCandidate (candidate : ReviewCandidate) (lease : Lease) (now : ℤ) (row : SyncRow) :
    Option (ReviewCandidate × SyncRow) :=
  if candidate.claimed = none ∧ now < lease.expiresAt ∧
      row.odooImprovementId = some candidate.odooImprovementId ∧
      (row.state = .idle ∨ row.state = .quarantined) ∧ row.activeAttemptId = none then
    some ({ candidate with claimed := some (lease, row.state) },
      { row with state := .inFlight lease })
  else none

/-- The row is in flight under the token of the candidate, without an attempt; or, for a
candidate without a claim, not in flight. -/
def ReviewCandidate.Owns (candidate : ReviewCandidate) (row : SyncRow) : Prop :=
  row.odooImprovementId = some candidate.odooImprovementId ∧ row.activeAttemptId = none ∧
    (candidate.claimed = none → row.state.lease = none) ∧
    ∀ claimed ∈ candidate.claimed, ∃ held ∈ row.state.lease,
      held.owner = claimed.1.owner ∧ held.token = claimed.1.token

instance (candidate : ReviewCandidate) (row : SyncRow) : Decidable (candidate.Owns row) :=
  inferInstanceAs (Decidable (_ ∧ _))

/-- Give the row back as it was. -/
def releaseReviewCandidate (candidate : ReviewCandidate) (row : SyncRow) : Option SyncRow :=
  candidate.claimed.bind fun (_, prior) =>
    if candidate.Owns row then some { row with state := prior } else none

def recordReviewAttention (candidate : ReviewCandidate) (code : String) (now : ℤ)
    (row : SyncRow) : Option SyncRow :=
  if code ∈ reviewAttentionCodes ∧ candidate.Owns row then
    some
      { row with
        state := .quarantined
        quarantineReason := some code
        quarantinedAt := some now }
  else none

/-- Follow a verified review without sending anything. -/
def adoptSync (candidate : ReviewCandidate) (record : Record) (row : SyncRow) : Option SyncRow :=
  if candidate.Owns row ∧
      (∀ claimed ∈ candidate.claimed, row.state = .inFlight claimed.1) then
    some
      { row with
        desiredVersion := record.projectionVersion
        lastSyncedVersion := record.projectionVersion
        state := .idle
        activeAttemptId := none
        attemptCount := 0
        lastErrorClass := none
        lastErrorSummary := none
        quarantineReason := none
        quarantinedAt := none }
  else none

/-! ## What the transactions do -/

/-- The versions, the identity and the attempt stay. -/
structure SyncRow.Keeps (row after : SyncRow) : Prop where
  desired : after.desiredVersion = row.desiredVersion
  synced : after.lastSyncedVersion = row.lastSyncedVersion
  improvement : after.odooImprovementId = row.odooImprovementId
  active : after.activeAttemptId = row.activeAttemptId

theorem Store.mark_attempts_self (store : Store) (attempt : Attempt) :
    (store.mark attempt).attempts attempt.attemptId = some attempt := Function.update_self ..

variable {attemptId : ℕ} {lease : Lease} {record : Record}

theorem Store.mark_attempts_of_ne (store : Store) (attempt : Attempt)
    (different : attemptId ≠ attempt.attemptId) :
    (store.mark attempt).attempts attemptId = store.attempts attemptId :=
  Function.update_of_ne different ..

@[simp] theorem enqueueTransition_state (version : ℕ) (now : ℤ) (row : SyncRow) :
    (enqueueTransition version now row).state = row.state := by
  cases row with
  | mk state => cases state <;> rfl

theorem SyncState.lease_eq_some {state : SyncState} :
    state.lease = some lease ↔ state = .inFlight lease := by
  cases state <;> simp [SyncState.lease]

variable {row : SyncRow} {claim : Claim} {candidate : ReviewCandidate} {attempt : Attempt}
  {store after : Store} {now : ℤ}

theorem Claim.Holds.inFlight (holds : claim.Holds row) :
    ∃ lease, row.state = .inFlight lease ∧ lease.token = claim.lease.token := by
  obtain ⟨lease, flying, -, token⟩ := holds
  exact ⟨lease, SyncState.lease_eq_some.mp flying, token⟩

theorem Claim.Holds.of_inFlight (flying : row.state = .inFlight claim.lease) : claim.Holds row :=
  ⟨claim.lease, SyncState.lease_eq_some.mpr flying, rfl, rfl⟩

theorem ReviewCandidate.Owns.inFlight {prior : SyncState} (owns : candidate.Owns row)
    (claimed : candidate.claimed = some (lease, prior)) :
    ∃ held, row.state = .inFlight held ∧ held.token = lease.token := by
  obtain ⟨held, flying, -, token⟩ := owns.2.2.2 _ claimed
  exact ⟨held, SyncState.lease_eq_some.mp flying, token⟩

theorem lockOwnedAttempt_eq_some {locked : Attempt} {expected : List AttemptState}
    (owned : lockOwnedAttempt claim attempt expected store = some locked) :
    store.attempts attempt.attemptId = some locked ∧
      LockOwned claim attempt expected store.row locked := by
  obtain ⟨found, owned⟩ := Option.filter_eq_some_iff.mp owned
  exact ⟨found, of_decide_eq_true owned⟩

theorem claimDue_eq_some {owner : String} {token : ℕ} {after : SyncRow}
    (claimed : claimDue now owner token row = some (claim, after)) :
    row.Due now ∧
      claim = ⟨row.desiredVersion, row.lastSyncedVersion, row.odooImprovementId,
        ⟨owner, token, now + claimLease⟩, row.activeAttemptId, row.attemptCount⟩ ∧
      after = { row with state := .inFlight ⟨owner, token, now + claimLease⟩ } := by
  obtain ⟨due, same⟩ := Option.ite_none_right_eq_some.mp claimed
  obtain ⟨rfl, rfl⟩ := Prod.mk.inj (Option.some.inj same)
  exact ⟨due, rfl, rfl⟩

theorem loadActiveAttempt_eq_some {active : Option Attempt}
    (loaded : loadActiveAttempt claim store = some active) :
    claim.Holds store.row ∧ store.row.activeAttemptId = claim.activeAttemptId ∧
      ((active = none ∧ claim.activeAttemptId = none) ∨
        ∃ attemptId attempt, active = some attempt ∧ claim.activeAttemptId = some attemptId ∧
          store.attempts attemptId = some attempt) := by
  obtain ⟨⟨holds, -, -, -, same, -⟩, loaded⟩ := Option.ite_none_right_eq_some.mp loaded
  refine ⟨holds, same, ?_⟩
  split at loaded
  · rename_i unprepared
    exact .inl ⟨(Option.some.inj loaded).symm, unprepared⟩
  · rename_i attemptId prepared
    obtain ⟨attempt, found, rfl⟩ := Option.map_eq_some_iff.mp loaded
    obtain ⟨found, -⟩ := Option.filter_eq_some_iff.mp found
    exact .inr ⟨attemptId, attempt, rfl, prepared, found⟩

theorem releaseStaleUnpreparedClaim_eq_some {after : SyncRow}
    (released : releaseStaleUnpreparedClaim claim now row = some after) :
    claim.Holds row ∧ after.state = .idle ∧ row.Keeps after := by
  obtain ⟨⟨locked, -⟩, same⟩ := Option.ite_none_right_eq_some.mp released
  obtain rfl := Option.some.inj same
  exact ⟨.of_inFlight locked.1, rfl, rfl, rfl, rfl, rfl⟩

theorem deferUnpreparedReadFailure_eq_some {errorClass : String} {after : SyncRow}
    (deferred : deferUnpreparedReadFailure claim errorClass now row = some after) :
    claim.Holds row ∧ after.state = .idle ∧ row.Keeps after := by
  obtain ⟨locked, deferred⟩ := Option.ite_none_right_eq_some.mp deferred
  obtain ⟨summary, -, rfl⟩ := Option.map_eq_some_iff.mp deferred
  exact ⟨.of_inFlight locked.1, rfl, rfl, rfl, rfl, rfl⟩

theorem deferPreparedForClosedGate_eq_some
    (deferred : deferPreparedForClosedGate claim attempt now store = some after) :
    claim.Holds store.row ∧ after.row.state = .idle ∧ store.row.Keeps after.row ∧
      after.attempts = store.attempts := by
  obtain ⟨locked, owned, rfl⟩ := Option.map_eq_some_iff.mp deferred
  exact ⟨(lockOwnedAttempt_eq_some owned).2.1, rfl, ⟨rfl, rfl, rfl, rfl⟩, rfl⟩

theorem scheduleReadback_eq_some {claim : Claim} {attempt : Attempt} {now : ℤ}
    {store after : Store} (deferred : scheduleReadback claim attempt now store = some after) :
    claim.Holds store.row ∧ after.row.state = .idle ∧ store.row.Keeps after.row ∧
      after.attempts = store.attempts := by
  obtain ⟨locked, owned, rfl⟩ := Option.map_eq_some_iff.mp deferred
  exact ⟨(lockOwnedAttempt_eq_some owned).2.1, rfl, ⟨rfl, rfl, rfl, rfl⟩, rfl⟩

theorem prepareAttempt_eq_some {kind : MutationKind} {remoteId : Option ℕ} {manifest : Manifest}
    {saved : Attempt}
    (prepared : prepareAttempt claim attemptId kind remoteId manifest store = some (saved, after)) :
    LockUnprepared claim store.row ∧ (kind = .create ↔ remoteId = none) ∧
      saved = ⟨attemptId, claim.desiredVersion, kind, remoteId, manifest, .prepared, none⟩ ∧
      after = { (store.mark saved) with
        row := { store.row with activeAttemptId := some attemptId } } := by
  obtain ⟨⟨matched, locked, -⟩, same⟩ := Option.ite_none_right_eq_some.mp prepared
  obtain ⟨rfl, rfl⟩ := Prod.mk.inj (Option.some.inj same)
  exact ⟨locked, matched, rfl, rfl⟩

theorem markDispatch_eq_some {marked : Attempt}
    (dispatched : markDispatch claim attempt store = some (marked, after)) :
    ∃ locked, lockOwnedAttempt claim attempt [.prepared] store = some locked ∧
      marked = { locked with state := .dispatchMarked } ∧ after = store.mark marked := by
  obtain ⟨locked, owned, same⟩ := Option.map_eq_some_iff.mp dispatched
  obtain ⟨rfl, rfl⟩ := Prod.mk.inj same
  exact ⟨locked, owned, rfl, rfl⟩

theorem markRpcSucceeded_eq_some {succeeded : Attempt} {remoteId : ℕ}
    (acknowledged : markRpcSucceeded claim attempt remoteId store = some (succeeded, after)) :
    ∃ locked, lockOwnedAttempt claim attempt [.dispatchMarked] store = some locked ∧
      succeeded = { locked with state := .rpcSucceeded, remoteId := some remoteId } ∧
      after = { (store.mark succeeded) with
        row := { store.row with odooImprovementId := some remoteId } } := by
  obtain ⟨locked, owned, acknowledged⟩ := Option.bind_eq_some_iff.mp acknowledged
  obtain ⟨-, same⟩ := Option.ite_none_right_eq_some.mp acknowledged
  obtain ⟨rfl, rfl⟩ := Prod.mk.inj (Option.some.inj same)
  exact ⟨locked, owned, rfl, rfl⟩

/-- Settling sets the version of the attempt, and the row is due again if a later one is
wanted. -/
theorem settleVerified_eq_some {remoteId : ℕ}
    (settled : settleVerified claim attempt remoteId now store = some after) :
    ∃ locked row, lockOwnedAttempt claim attempt [.rpcSucceeded] store = some locked ∧
      after = { (store.mark { locked with state := .verified }) with row := row } ∧
      row.state = .idle ∧ row.lastSyncedVersion = attempt.projectionVersion ∧
      row.desiredVersion = store.row.desiredVersion ∧
      row.odooImprovementId = store.row.odooImprovementId ∧ row.activeAttemptId = none ∧
      (attempt.projectionVersion < store.row.desiredVersion → row.dueAt = now) := by
  obtain ⟨locked, owned, settled⟩ := Option.bind_eq_some_iff.mp settled
  obtain ⟨-, same⟩ := Option.ite_none_right_eq_some.mp settled
  obtain rfl := Option.some.inj same
  exact ⟨locked, _, owned, rfl, rfl, rfl, rfl, rfl, rfl, fun later => if_pos later⟩

/-- A definitive failure frees the row, or quarantines it after the last retry. -/
theorem recordDefinitiveFailure_eq_some {errorClass : String}
    (failed : recordDefinitiveFailure claim attempt errorClass now store = some after) :
    ∃ locked row, lockOwnedAttempt claim attempt [.prepared, .dispatchMarked] store = some locked ∧
      after = { (store.mark { locked with
        state := .definitiveFailed
        outcomeDetail := some errorClass }) with row := row } ∧
      row.lastSyncedVersion = store.row.lastSyncedVersion ∧
      row.desiredVersion = store.row.desiredVersion ∧
      row.odooImprovementId = store.row.odooImprovementId ∧
      (maxMutationAttempts ≤ claim.attemptCount + 1 →
        row.state = .quarantined ∧ row.activeAttemptId = store.row.activeAttemptId) ∧
      (¬maxMutationAttempts ≤ claim.attemptCount + 1 →
        row.state = .idle ∧ row.activeAttemptId = none) := by
  obtain ⟨summary, -, failed⟩ := Option.bind_eq_some_iff.mp failed
  obtain ⟨-, failed⟩ := Option.ite_none_right_eq_some.mp failed
  obtain ⟨locked, owned, rfl⟩ := Option.map_eq_some_iff.mp failed
  refine ⟨locked, _, owned, rfl, ?_⟩
  by_cases last : maxMutationAttempts ≤ claim.attemptCount + 1
  · rw [if_pos last]
    exact ⟨rfl, rfl, rfl, fun _ => ⟨rfl, rfl⟩, fun early => absurd last early⟩
  · rw [if_neg last]
    exact ⟨rfl, rfl, rfl, fun late => absurd late last, fun _ => ⟨rfl, rfl⟩⟩

/-- A quarantine makes the attempt ambiguous, if there is one. -/
theorem quarantine_eq_some {reason : String} {attempt : Option Attempt}
    (stopped : quarantine claim reason now attempt store = some after) :
    claim.Holds store.row ∧ after.row.state = .quarantined ∧ store.row.Keeps after.row ∧
      ((attempt = none ∧ after.attempts = store.attempts) ∨
        ∃ held locked, attempt = some held ∧
          lockOwnedAttempt claim held [.prepared, .dispatchMarked, .rpcSucceeded] store =
            some locked ∧
          after.attempts = (store.mark { locked with
            state := .ambiguous
            outcomeDetail := some reason }).attempts) := by
  obtain ⟨summary, -, stopped⟩ := Option.bind_eq_some_iff.mp stopped
  cases attempt with
  | none =>
      obtain ⟨locked, same⟩ := Option.ite_none_right_eq_some.mp stopped
      obtain rfl := Option.some.inj same
      exact ⟨.of_inFlight locked.1, rfl, ⟨rfl, rfl, rfl, rfl⟩, .inl ⟨rfl, rfl⟩⟩
  | some held =>
      obtain ⟨locked, owned, rfl⟩ := Option.map_eq_some_iff.mp stopped
      exact ⟨(lockOwnedAttempt_eq_some owned).2.1, rfl, ⟨rfl, rfl, rfl, rfl⟩,
        .inr ⟨held, locked, rfl, owned, rfl⟩⟩

/-- An expired claim is recovered: the row is idle again, unless its attempt was marked. -/
theorem recoverExpiredClaims_eq_some (recovered : recoverExpiredClaims now store = some after) :
    ∃ lease, store.row.state = .inFlight lease ∧ lease.expiresAt ≤ now ∧
      store.row.Keeps after.row ∧
      ((after.row.state = .idle ∧ after.attempts = store.attempts ∧
          ∀ attemptId, store.row.activeAttemptId = some attemptId →
            (store.attempts attemptId).map Attempt.state ≠ some .dispatchMarked) ∨
        ∃ attemptId attempt, store.row.activeAttemptId = some attemptId ∧
          store.attempts attemptId = some attempt ∧ attempt.state = .dispatchMarked ∧
          after.row.state = .quarantined ∧
          after.attempts = (store.mark { attempt with
            state := .ambiguous
            outcomeDetail := some "ambiguous_stale_dispatch" }).attempts) := by
  obtain ⟨lease, flying, recovered⟩ := Option.bind_eq_some_iff.mp recovered
  obtain ⟨expired, recovered⟩ := Option.ite_none_right_eq_some.mp recovered
  refine ⟨lease, SyncState.lease_eq_some.mp flying, expired, ?_⟩
  split at recovered
  · rename_i unprepared
    obtain rfl := Option.some.inj recovered
    exact ⟨⟨rfl, rfl, rfl, rfl⟩, .inl ⟨rfl, rfl, fun _ active => by
      rw [unprepared] at active
      cases active⟩⟩
  · rename_i attemptId active
    obtain ⟨attempt, found, recovered⟩ := Option.bind_eq_some_iff.mp recovered
    obtain ⟨-, recovered⟩ := Option.ite_none_right_eq_some.mp recovered
    have unmarked (other : attempt.state ≠ .dispatchMarked) :
        ∀ activeId, store.row.activeAttemptId = some activeId →
          (store.attempts activeId).map Attempt.state ≠ some .dispatchMarked := by
      intro activeId same
      rw [← Option.some.inj (active.symm.trans same), found]
      exact fun marked => other (Option.some.inj marked)
    split at recovered
    · rename_i prepared
      obtain rfl := Option.some.inj recovered
      exact ⟨⟨rfl, rfl, rfl, rfl⟩, .inl ⟨rfl, rfl, unmarked (by rw [prepared]; nofun)⟩⟩
    · rename_i succeeded
      obtain ⟨-, same⟩ := Option.ite_none_right_eq_some.mp recovered
      obtain rfl := Option.some.inj same
      exact ⟨⟨rfl, rfl, rfl, rfl⟩, .inl ⟨rfl, rfl, unmarked (by rw [succeeded]; nofun)⟩⟩
    · rename_i marked
      obtain ⟨summary, -, rfl⟩ := Option.map_eq_some_iff.mp recovered
      exact ⟨⟨rfl, rfl, rfl, rfl⟩, .inr ⟨attemptId, attempt, active, found, marked, rfl, rfl⟩⟩
    · cases recovered

/-- A disposition keeps the quarantine, or frees the row of its attempt. -/
theorem applyQuarantineDisposition_eq_some {disposition : Disposition} {confirmed : Bool}
    {recordAfter : Record}
    (disposed : applyQuarantineDisposition attemptId disposition confirmed now record store =
      some (recordAfter, after)) :
    store.row.state = .quarantined ∧ store.row.activeAttemptId = some attemptId ∧
      after.attempts = store.attempts ∧
      ((disposition = .keep ∧ recordAfter = record ∧ after = store) ∨
        (disposition = .releaseDefinitive ∧ recordAfter = record ∧
          after.row = store.row.dispose now ∧
          ∃ attempt, store.attempts attemptId = some attempt ∧
            (attempt.state = .prepared ∨ attempt.state = .definitiveFailed)) ∨
        (disposition = .supersedeAndRetry ∧
          recordAfter = { record with projectionVersion := record.projectionVersion + 1 } ∧
          after.row = { store.row.dispose now with
            desiredVersion := store.row.desiredVersion + 1 })) := by
  obtain ⟨attempt, found, disposed⟩ := Option.bind_eq_some_iff.mp disposed
  obtain ⟨⟨stopped, active, -⟩, disposed⟩ := Option.ite_none_right_eq_some.mp disposed
  refine ⟨stopped, active, ?_⟩
  split at disposed
  · obtain ⟨rfl, rfl⟩ := Prod.mk.inj (Option.some.inj disposed)
    exact ⟨rfl, .inl ⟨rfl, rfl, rfl⟩⟩
  · obtain ⟨released, same⟩ := Option.ite_none_right_eq_some.mp disposed
    obtain ⟨rfl, rfl⟩ := Prod.mk.inj (Option.some.inj same)
    exact ⟨rfl, .inr (.inl ⟨rfl, rfl, rfl, attempt, found, released⟩)⟩
  · obtain ⟨-, same⟩ := Option.ite_none_right_eq_some.mp disposed
    obtain ⟨rfl, rfl⟩ := Prod.mk.inj (Option.some.inj same)
    exact ⟨rfl, .inr (.inr ⟨rfl, rfl, rfl⟩)⟩

theorem releasePreAttemptQuarantine_eq_some {after : SyncRow}
    (released : releasePreAttemptQuarantine now record row = some after) :
    row.state = .quarantined ∧ row.activeAttemptId = none ∧ after.state = .idle ∧
      row.Keeps after := by
  obtain ⟨⟨stopped, -, -, -, unprepared, -⟩, same⟩ := Option.ite_none_right_eq_some.mp released
  obtain rfl := Option.some.inj same
  exact ⟨stopped, unprepared, rfl, rfl, rfl, rfl, rfl⟩

theorem claimReviewCandidate_eq_some {claimed : ReviewCandidate} {after : SyncRow}
    (taken : claimReviewCandidate candidate lease now row = some (claimed, after)) :
    (row.state = .idle ∨ row.state = .quarantined) ∧ row.activeAttemptId = none ∧
      claimed = { candidate with claimed := some (lease, row.state) } ∧
      after = { row with state := .inFlight lease } := by
  obtain ⟨⟨-, -, -, free, unprepared⟩, same⟩ := Option.ite_none_right_eq_some.mp taken
  obtain ⟨rfl, rfl⟩ := Prod.mk.inj (Option.some.inj same)
  exact ⟨free, unprepared, rfl, rfl⟩

theorem releaseReviewCandidate_eq_some {after : SyncRow}
    (released : releaseReviewCandidate candidate row = some after) :
    candidate.Owns row ∧ ∃ lease prior, candidate.claimed = some (lease, prior) ∧
      after = { row with state := prior } := by
  obtain ⟨⟨lease, prior⟩, claimed, released⟩ := Option.bind_eq_some_iff.mp released
  obtain ⟨owns, same⟩ := Option.ite_none_right_eq_some.mp released
  exact ⟨owns, lease, prior, claimed, (Option.some.inj same).symm⟩

theorem recordReviewAttention_eq_some {code : String} {after : SyncRow}
    (recorded : recordReviewAttention candidate code now row = some after) :
    candidate.Owns row ∧ after.state = .quarantined ∧ row.Keeps after := by
  obtain ⟨⟨-, owns⟩, same⟩ := Option.ite_none_right_eq_some.mp recorded
  obtain rfl := Option.some.inj same
  exact ⟨owns, rfl, rfl, rfl, rfl, rfl⟩

theorem adoptSync_eq_some {candidate : ReviewCandidate} {row after : SyncRow}
    (adopted : adoptSync candidate record row = some after) :
    candidate.Owns row ∧ after.state = .idle ∧
      after.desiredVersion = record.projectionVersion ∧
      after.lastSyncedVersion = record.projectionVersion ∧
      after.odooImprovementId = row.odooImprovementId ∧ after.activeAttemptId = none := by
  obtain ⟨⟨owns, -⟩, same⟩ := Option.ite_none_right_eq_some.mp adopted
  obtain rfl := Option.some.inj same
  exact ⟨owns, rfl, rfl, rfl, rfl, rfl⟩

end PlantManager.Feedback.Sync

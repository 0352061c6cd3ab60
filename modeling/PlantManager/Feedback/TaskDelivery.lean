import PlantManager.Feedback.Record

/-! # The outbox of owner tasks

One row of `feedback_task_delivery` and the statements on it. A statement that finds no row
to change gives nothing. A row is in flight exactly as long as it carries a lease.
-/

namespace PlantManager.Feedback

def taskSyncContractVersion : ℕ := 2

/-- Two minutes. -/
def claimLease : ℤ := 120000000

def retrySummary : String := "Odoo task delivery needs attention and will retry."

def blockReasons : List String :=
  ["More than one matching owner task exists.",
    "More than one matching owner screenshot exists.",
    "The stored owner screenshot does not match this feedback.",
    "The stored owner task does not match this feedback.",
    "The owner task stage is missing or ambiguous.",
    "More than one matching owner task result note exists.",
    "The Odoo review setup is missing or ambiguous.",
    "The Odoo review reference is missing or ambiguous.",
    "The Odoo review reference link conflicts with this task."]

structure Lease where
  owner : String
  token : ℕ
  expiresAt : ℤ
deriving DecidableEq

inductive DeliveryState where
  | pending
  | inFlight (lease : Lease)
  | attention
  | delivered
  | blocked
deriving DecidableEq

structure DeliveryRow where
  state : DeliveryState
  dueAt : ℤ
  attemptCount : ℕ
  odooTaskId : Option ℕ
  beforeAttachmentId : Option ℕ
  desiredVersion : ℕ
  lastSyncedVersion : ℕ
  desiredStatus : Status
  desiredContractVersion : ℕ
  lastSyncedContractVersion : ℕ
  lastErrorSummary : Option String
  blockedReason : Option String
deriving DecidableEq

structure TaskDeliveryClaim where
  claimToken : ℕ
  taskId : Option ℕ
  beforeAttachmentId : Option ℕ
  expiresAt : ℤ
  desiredVersion : ℕ
  lastSyncedVersion : ℕ
  desiredStatus : Status
  desiredContractVersion : ℕ
  lastSyncedContractVersion : ℕ
deriving DecidableEq

def DeliveryState.lease : DeliveryState → Option Lease
  | .inFlight lease => some lease
  | _ => none

/-- The row is in flight under this token. -/
def DeliveryRow.lease? (row : DeliveryRow) (token : ℕ) : Option Lease :=
  match row.state with
  | .inFlight lease => if lease.token = token then some lease else none
  | _ => none

/-- The claim that a statement returns of the row. -/
def claimFromRow (row : DeliveryRow) (lease : Lease) : TaskDeliveryClaim where
  claimToken := lease.token
  taskId := row.odooTaskId
  beforeAttachmentId := row.beforeAttachmentId
  expiresAt := lease.expiresAt
  desiredVersion := row.desiredVersion
  lastSyncedVersion := row.lastSyncedVersion
  desiredStatus := row.desiredStatus
  desiredContractVersion := row.desiredContractVersion
  lastSyncedContractVersion := row.lastSyncedContractVersion

/-! ## Statements that make the row due -/

def enqueueSubmission (now : ℤ) : DeliveryRow where
  state := .pending
  dueAt := now
  attemptCount := 0
  odooTaskId := none
  beforeAttachmentId := none
  desiredVersion := 1
  lastSyncedVersion := 0
  desiredStatus := .requested
  desiredContractVersion := taskSyncContractVersion
  lastSyncedContractVersion := 0
  lastErrorSummary := none
  blockedReason := none

/-- Make the row due for a newer version; a row in flight or blocked stays so. -/
def enqueueLifecycle (desiredVersion : ℕ) (desiredStatus : Status) (now : ℤ) (row : DeliveryRow) :
    Option DeliveryRow :=
  if row.desiredVersion < desiredVersion ∨
      row.desiredContractVersion < taskSyncContractVersion then some
    { row with
      desiredVersion := desiredVersion
      desiredStatus := desiredStatus
      desiredContractVersion := max row.desiredContractVersion taskSyncContractVersion
      state := match row.state with
        | .inFlight lease => .inFlight lease
        | .blocked => .blocked
        | _ => .pending
      dueAt := now
      lastErrorSummary := none
      blockedReason := if row.state = .blocked then row.blockedReason else none }
  else none

/-- Whether the row lags behind the record. -/
def Lags (record : Record) (row : DeliveryRow) : Prop :=
  row.desiredVersion ≠ record.projectionVersion ∨ row.desiredStatus ≠ record.status ∨
    row.lastSyncedVersion < record.projectionVersion ∨
    row.desiredContractVersion < taskSyncContractVersion ∨
    row.lastSyncedContractVersion < taskSyncContractVersion

instance (record : Record) (row : DeliveryRow) : Decidable (Lags record row) :=
  inferInstanceAs (Decidable (_ ∨ _))

/-- The row of a coding task that is not blocked lags behind its record. -/
def LifecycleMismatch (record : Record) (row : DeliveryRow) : Prop :=
  record.behavior = .coding ∧ row.odooTaskId.isSome ∧ row.state ≠ .blocked ∧ Lags record row

instance (record : Record) (row : DeliveryRow) : Decidable (LifecycleMismatch record row) :=
  inferInstanceAs (Decidable (_ ∧ _))

/-- Queue a row that lags behind its record. -/
def queueExistingLifecycleMismatches (record : Record) (now : ℤ) (row : DeliveryRow) :
    Option DeliveryRow :=
  if LifecycleMismatch record row then some
    { row with
      desiredVersion := record.projectionVersion
      desiredStatus := record.status
      desiredContractVersion := taskSyncContractVersion
      state := .pending
      dueAt := now
      attemptCount := 0
      lastErrorSummary := none
      blockedReason := none }
  else none

/-! ## Statements of a worker -/

/-- Due, or left behind by a worker whose lease expired. -/
def DeliveryState.Due (dueAt now : ℤ) : DeliveryState → Prop
  | .pending => dueAt ≤ now
  | .attention => dueAt ≤ now
  | .inFlight lease => lease.expiresAt ≤ now
  | .delivered => False
  | .blocked => False

instance (dueAt now : ℤ) : ∀ state : DeliveryState, Decidable (state.Due dueAt now)
  | .pending => inferInstanceAs (Decidable (dueAt ≤ now))
  | .attention => inferInstanceAs (Decidable (dueAt ≤ now))
  | .inFlight lease => inferInstanceAs (Decidable (lease.expiresAt ≤ now))
  | .delivered => isFalse id
  | .blocked => isFalse id

def claimDue (now : ℤ) (owner : String) (token : ℕ) (row : DeliveryRow) :
    Option (TaskDeliveryClaim × DeliveryRow) :=
  if row.state.Due row.dueAt now then
    let lease : Lease := ⟨owner, token, now + claimLease⟩
    let claimed : DeliveryRow :=
      { row with
        state := .inFlight lease
        attemptCount := row.attemptCount + 1
        lastErrorSummary := none }
    some (claimFromRow claimed lease, claimed)
  else none

/-- Extend the lease that the claim still has; the claim takes over what the row now wants. -/
def renewClaim (claim : TaskDeliveryClaim) (now : ℤ) (row : DeliveryRow) :
    Option (TaskDeliveryClaim × DeliveryRow) :=
  (row.lease? claim.claimToken).bind fun lease =>
    if lease.expiresAt = claim.expiresAt ∧ now < lease.expiresAt then
      let renewed : Lease := { lease with expiresAt := now + claimLease }
      let changed : DeliveryRow := { row with state := .inFlight renewed }
      some (claimFromRow changed renewed, changed)
    else none

def recordTaskId (claim : TaskDeliveryClaim) (taskId : ℕ) (row : DeliveryRow) :
    Option (TaskDeliveryClaim × DeliveryRow) :=
  (row.lease? claim.claimToken).bind fun lease =>
    if row.odooTaskId = claim.taskId ∧ row.beforeAttachmentId = claim.beforeAttachmentId then
      let changed : DeliveryRow := { row with odooTaskId := some taskId }
      some (claimFromRow changed lease, changed)
    else none

def recordBeforeAttachment (claim : TaskDeliveryClaim) (attachmentId : ℕ) (row : DeliveryRow) :
    Option (TaskDeliveryClaim × DeliveryRow) :=
  (row.lease? claim.claimToken).bind fun lease =>
    if claim.taskId.isSome ∧ row.odooTaskId = claim.taskId ∧
        row.beforeAttachmentId = claim.beforeAttachmentId then
      let changed : DeliveryRow := { row with beforeAttachmentId := some attachmentId }
      some (claimFromRow changed lease, changed)
    else none

/-- Settle the version of the claim; a row that wants a later one is due again. -/
def markDelivered (claim : TaskDeliveryClaim) (hasBeforeImage : Bool) (now : ℤ)
    (row : DeliveryRow) : Option DeliveryRow :=
  (row.lease? claim.claimToken).bind fun _ =>
    if claim.taskId.isSome ∧ row.odooTaskId = claim.taskId ∧
        row.beforeAttachmentId = claim.beforeAttachmentId ∧
        claim.desiredVersion ≤ row.desiredVersion ∧
        claim.desiredContractVersion ≤ row.desiredContractVersion ∧
        row.lastSyncedVersion = claim.lastSyncedVersion ∧
        row.lastSyncedContractVersion = claim.lastSyncedContractVersion ∧
        (hasBeforeImage = false ∨ row.beforeAttachmentId.isSome) then some
      { row with
        lastSyncedVersion := claim.desiredVersion
        lastSyncedContractVersion := claim.desiredContractVersion
        state :=
          if row.desiredVersion = claim.desiredVersion ∧
            row.desiredContractVersion = claim.desiredContractVersion then .delivered else .pending
        dueAt :=
          if claim.desiredVersion < row.desiredVersion ∨
            claim.desiredContractVersion < row.desiredContractVersion then now else row.dueAt
        lastErrorSummary := none
        blockedReason := none }
    else none

/-- The capped exponential delay, in microseconds. -/
def retryDelay (attemptCount : ℕ) : ℤ := min (60 * 2 ^ min attemptCount 6) 3600 * 1000000

def scheduleRetry (claim : TaskDeliveryClaim) (now : ℤ) (row : DeliveryRow) :
    Option DeliveryRow :=
  (row.lease? claim.claimToken).bind fun _ =>
    if row.attemptCount < 1 then none
    else some
      { row with
        state := .attention
        dueAt := now + retryDelay row.attemptCount
        lastErrorSummary := some retrySummary }

def block (claim : TaskDeliveryClaim) (reason : String) (row : DeliveryRow) :
    Option DeliveryRow :=
  (row.lease? claim.claimToken).bind fun _ =>
    if reason ∈ blockReasons then some { row with state := .blocked, blockedReason := some reason }
    else none

/-! ## A reviewer's lifecycle -/

/-- Adopt a verified lifecycle on a delivered row that nobody claims. -/
def adoptDelivery (taskId : ℕ) (record : Record) (row : DeliveryRow) : Option DeliveryRow :=
  if row.state = .delivered ∧ row.odooTaskId = some taskId then some
    { row with
      desiredVersion := record.projectionVersion
      lastSyncedVersion := record.projectionVersion
      desiredStatus := record.status
      lastSyncedContractVersion := row.desiredContractVersion
      attemptCount := 0
      lastErrorSummary := none
      blockedReason := none }
  else none

/-! ## What the statements say -/

theorem DeliveryRow.lease?_eq_some {row : DeliveryRow} {token : ℕ} {lease : Lease} :
    row.lease? token = some lease ↔ row.state = .inFlight lease ∧ lease.token = token := by
  unfold DeliveryRow.lease?
  split
  · rename_i held state
    rw [Option.ite_none_right_eq_some, state]
    constructor
    · rintro ⟨rfl, same⟩
      obtain rfl := Option.some.inj same
      exact ⟨rfl, rfl⟩
    · rintro ⟨same, rfl⟩
      obtain rfl := DeliveryState.inFlight.inj same
      exact ⟨rfl, rfl⟩
  · rename_i other
    exact ⟨nofun, fun ⟨state, _⟩ => absurd state (other lease)⟩

section Statements

variable {row changed : DeliveryRow} {claim saved : TaskDeliveryClaim} {now : ℤ}

theorem enqueueLifecycle_eq_some {version : ℕ} {status : Status}
    (queued : enqueueLifecycle version status now row = some changed) :
    changed.desiredVersion = version ∧ changed.desiredStatus = status ∧
      changed.lastSyncedVersion = row.lastSyncedVersion ∧
      changed.odooTaskId = row.odooTaskId ∧ changed.state ≠ .delivered ∧
      ∀ lease, changed.state = .inFlight lease ↔ row.state = .inFlight lease := by
  obtain ⟨-, queued⟩ := Option.ite_none_right_eq_some.mp queued
  obtain rfl := Option.some.inj queued
  refine ⟨rfl, rfl, rfl, rfl, ?_⟩
  cases state : row.state <;> simp

theorem queueExistingLifecycleMismatches_eq_some {record : Record}
    (queued : queueExistingLifecycleMismatches record now row = some changed) :
    LifecycleMismatch record row ∧ changed.state = .pending ∧ changed.dueAt = now ∧
      changed.desiredVersion = record.projectionVersion ∧
      changed.desiredStatus = record.status ∧
      changed.desiredContractVersion = taskSyncContractVersion ∧
      changed.lastSyncedVersion = row.lastSyncedVersion ∧
      changed.odooTaskId = row.odooTaskId := by
  obtain ⟨mismatch, queued⟩ := Option.ite_none_right_eq_some.mp queued
  obtain rfl := Option.some.inj queued
  exact ⟨mismatch, rfl, rfl, rfl, rfl, rfl, rfl, rfl⟩

theorem claimDue_eq_some {owner : String} {token : ℕ}
    (claimed : claimDue now owner token row = some (claim, changed)) :
    row.state.Due row.dueAt now ∧
      changed = { row with
        state := .inFlight ⟨owner, token, now + claimLease⟩
        attemptCount := row.attemptCount + 1
        lastErrorSummary := none } ∧
      claim = claimFromRow changed ⟨owner, token, now + claimLease⟩ := by
  obtain ⟨due, claimed⟩ := Option.ite_none_right_eq_some.mp claimed
  obtain ⟨rfl, rfl⟩ := Prod.mk.inj (Option.some.inj claimed)
  exact ⟨due, rfl, rfl⟩

theorem renewClaim_eq_some (renewed : renewClaim claim now row = some (saved, changed)) :
    ∃ lease, row.state = .inFlight lease ∧ lease.token = claim.claimToken ∧
      lease.expiresAt = claim.expiresAt ∧
      changed = { row with state := .inFlight { lease with expiresAt := now + claimLease } } ∧
      saved = claimFromRow changed { lease with expiresAt := now + claimLease } := by
  obtain ⟨lease, held, renewed⟩ := Option.bind_eq_some_iff.mp renewed
  obtain ⟨state, token⟩ := DeliveryRow.lease?_eq_some.mp held
  obtain ⟨⟨same, -⟩, renewed⟩ := Option.ite_none_right_eq_some.mp renewed
  obtain ⟨rfl, rfl⟩ := Prod.mk.inj (Option.some.inj renewed)
  exact ⟨lease, state, token, same, rfl, rfl⟩

theorem recordTaskId_eq_some {taskId : ℕ}
    (recorded : recordTaskId claim taskId row = some (saved, changed)) :
    ∃ lease, row.state = .inFlight lease ∧ lease.token = claim.claimToken ∧
      row.odooTaskId = claim.taskId ∧ changed = { row with odooTaskId := some taskId } ∧
      saved = claimFromRow changed lease := by
  obtain ⟨lease, held, recorded⟩ := Option.bind_eq_some_iff.mp recorded
  obtain ⟨state, token⟩ := DeliveryRow.lease?_eq_some.mp held
  obtain ⟨⟨same, -⟩, recorded⟩ := Option.ite_none_right_eq_some.mp recorded
  obtain ⟨rfl, rfl⟩ := Prod.mk.inj (Option.some.inj recorded)
  exact ⟨lease, state, token, same, rfl, rfl⟩

theorem recordBeforeAttachment_eq_some {attachmentId : ℕ}
    (recorded : recordBeforeAttachment claim attachmentId row = some (saved, changed)) :
    ∃ lease, row.state = .inFlight lease ∧ lease.token = claim.claimToken ∧
      row.odooTaskId = claim.taskId ∧
      changed = { row with beforeAttachmentId := some attachmentId } ∧
      saved = claimFromRow changed lease := by
  obtain ⟨lease, held, recorded⟩ := Option.bind_eq_some_iff.mp recorded
  obtain ⟨state, token⟩ := DeliveryRow.lease?_eq_some.mp held
  obtain ⟨⟨-, same, -⟩, recorded⟩ := Option.ite_none_right_eq_some.mp recorded
  obtain ⟨rfl, rfl⟩ := Prod.mk.inj (Option.some.inj recorded)
  exact ⟨lease, state, token, same, rfl, rfl⟩

theorem markDelivered_eq_some {hasBeforeImage : Bool}
    (marked : markDelivered claim hasBeforeImage now row = some changed) :
    (∃ lease, row.state = .inFlight lease ∧ lease.token = claim.claimToken) ∧
      claim.desiredVersion ≤ row.desiredVersion ∧
      changed.lastSyncedVersion = claim.desiredVersion ∧
      changed.desiredVersion = row.desiredVersion ∧
      changed.desiredStatus = row.desiredStatus ∧
      changed.odooTaskId = row.odooTaskId ∧
      (changed.state = .delivered ∧ row.desiredVersion = claim.desiredVersion ∨
        changed.state = .pending) ∧
      (claim.desiredVersion < row.desiredVersion →
        changed.state = .pending ∧ changed.dueAt = now) := by
  obtain ⟨lease, held, marked⟩ := Option.bind_eq_some_iff.mp marked
  obtain ⟨state, token⟩ := DeliveryRow.lease?_eq_some.mp held
  obtain ⟨⟨-, -, -, version, -, -, -, -⟩, marked⟩ := Option.ite_none_right_eq_some.mp marked
  obtain rfl := Option.some.inj marked
  refine ⟨⟨lease, state, token⟩, version, rfl, rfl, rfl, rfl, ?_, fun later => ⟨?_, ?_⟩⟩
  · by_cases same : row.desiredVersion = claim.desiredVersion ∧
        row.desiredContractVersion = claim.desiredContractVersion
    · exact Or.inl ⟨if_pos same, same.1⟩
    · exact Or.inr (if_neg same)
  · exact if_neg fun same => Nat.ne_of_gt later same.1
  · exact if_pos (Or.inl later)

theorem scheduleRetry_eq_some (scheduled : scheduleRetry claim now row = some changed) :
    (∃ lease, row.state = .inFlight lease ∧ lease.token = claim.claimToken) ∧
      changed = { row with
        state := .attention
        dueAt := now + retryDelay row.attemptCount
        lastErrorSummary := some retrySummary } := by
  obtain ⟨lease, held, scheduled⟩ := Option.bind_eq_some_iff.mp scheduled
  obtain ⟨state, token⟩ := DeliveryRow.lease?_eq_some.mp held
  obtain ⟨-, scheduled⟩ := Option.ite_none_left_eq_some.mp scheduled
  exact ⟨⟨lease, state, token⟩, (Option.some.inj scheduled).symm⟩

theorem block_eq_some {reason : String} (blocked : block claim reason row = some changed) :
    (∃ lease, row.state = .inFlight lease ∧ lease.token = claim.claimToken) ∧
      changed = { row with state := .blocked, blockedReason := some reason } := by
  obtain ⟨lease, held, blocked⟩ := Option.bind_eq_some_iff.mp blocked
  obtain ⟨state, token⟩ := DeliveryRow.lease?_eq_some.mp held
  obtain ⟨-, blocked⟩ := Option.ite_none_right_eq_some.mp blocked
  exact ⟨⟨lease, state, token⟩, (Option.some.inj blocked).symm⟩

theorem adoptDelivery_eq_some {taskId : ℕ} {record : Record}
    (adopted : adoptDelivery taskId record row = some changed) :
    row.state = .delivered ∧ changed.state = .delivered ∧
      changed.desiredVersion = record.projectionVersion ∧
      changed.lastSyncedVersion = record.projectionVersion ∧
      changed.desiredStatus = record.status ∧ changed.odooTaskId = row.odooTaskId := by
  obtain ⟨⟨state, -⟩, adopted⟩ := Option.ite_none_right_eq_some.mp adopted
  obtain rfl := Option.some.inj adopted
  exact ⟨state, state, rfl, rfl, rfl, rfl⟩

end Statements

end PlantManager.Feedback

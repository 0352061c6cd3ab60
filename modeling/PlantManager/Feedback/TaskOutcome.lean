import PlantManager.Feedback.TaskWorker

/-! # What a step of the outbox of owner tasks does

`Feedback.TaskWorker.step_outcome` reads a step as one of a few outcomes. Most
steps only move one session (`Feedback.TaskWorker.Moves`); the statements on the
row are told apart by what they need of the lease.
-/

namespace PlantManager.Feedback.TaskWorker

open PlantManager.Transition

variable {S : Type*}

/-- A step of a session that leaves the record, the row and the notes alone. -/
inductive Moves (state : State S) : Phase → Phase → List (Event S) → Prop
  | load {claim : TaskDeliveryClaim} :
      Moves state (.claimed claim)
        (.finding claim (loadSnapshot state.record state.hasBeforeImage)) []
  | findTask {claim : TaskDeliveryClaim} {snapshot : Snapshot} :
      Moves state (.finding claim snapshot) (.attaching claim snapshot) []
  | passAttachment {claim : TaskDeliveryClaim} {snapshot : Snapshot} :
      Moves state (.attaching claim snapshot) (.reconciling claim snapshot) []
  | check {claim : TaskDeliveryClaim} {snapshot : Snapshot}
      (same : claim.desiredVersion = snapshot.projectionVersion) :
      Moves state (.reconciling claim snapshot) (.checked claim snapshot) []
  | link {claim : TaskDeliveryClaim} {snapshot : Snapshot} (review : snapshot.behavior = .review) :
      Moves state (.reconciling claim snapshot) (.verified claim snapshot)
        [.linked snapshot.projectionVersion snapshot.status]
  | agrees {claim : TaskDeliveryClaim} {snapshot : Snapshot} {stageId : ℕ} :
      Moves state (.checked claim snapshot) (afterFields claim snapshot stageId) []
  | outdated {claim : TaskDeliveryClaim} {snapshot : Snapshot} {stageId : ℕ} :
      Moves state (.checked claim snapshot) (.outdated claim snapshot stageId) []
  | noteMissing {claim : TaskDeliveryClaim} {snapshot : Snapshot} {stageId : ℕ}
      (missing : state.found claim snapshot = 0) :
      Moves state (.searching claim snapshot stageId) (.noteMissing claim snapshot stageId) []
  | noteFound {claim : TaskDeliveryClaim} {snapshot : Snapshot} {stageId : ℕ} :
      Moves state (.searching claim snapshot stageId) (.verifying claim snapshot stageId) []
  | recovered {claim : TaskDeliveryClaim} {snapshot : Snapshot} {stageId : ℕ} :
      Moves state (.recovering claim snapshot stageId) (.verifying claim snapshot stageId) []
  | verify {claim : TaskDeliveryClaim} {snapshot : Snapshot} {stageId : ℕ} {remote : TaskRead}
      (agrees : remote.Agrees snapshot.status stageId) :
      Moves state (.verifying claim snapshot stageId) (.verified claim snapshot)
        [.verified snapshot.projectionVersion snapshot.status stageId remote]
  | created {claim : TaskDeliveryClaim} {snapshot : Snapshot} :
      Moves state (.creating claim snapshot) (.created claim snapshot) []
  | uploaded {claim : TaskDeliveryClaim} {snapshot : Snapshot} :
      Moves state (.uploading claim snapshot) (.uploaded claim snapshot) []
  | updated {claim : TaskDeliveryClaim} {snapshot : Snapshot} {stageId : ℕ} :
      Moves state (.updating claim snapshot stageId) (afterFields claim snapshot stageId) []
  | posted {claim : TaskDeliveryClaim} {snapshot : Snapshot} {stageId : ℕ} {landed : Bool} :
      Moves state (.posting claim snapshot stageId landed) (.verifying claim snapshot stageId) []
  | unsure {claim : TaskDeliveryClaim} {snapshot : Snapshot} {stageId : ℕ} {landed : Bool} :
      Moves state (.posting claim snapshot stageId landed) (.recovering claim snapshot stageId) []
  | fail {phase : Phase} {claim : TaskDeliveryClaim} (held : phase.claim = some claim) :
      Moves state phase (.failed claim) []

/-- The calls to Odoo that a renewal begins. -/
inductive Renews : Phase → TaskDeliveryClaim → (TaskDeliveryClaim → Phase) → Prop
  | creating {claim : TaskDeliveryClaim} {snapshot : Snapshot} (untold : claim.taskId = none) :
      Renews (.finding claim snapshot) claim (.creating · snapshot)
  | uploading {claim : TaskDeliveryClaim} {snapshot : Snapshot} :
      Renews (.attaching claim snapshot) claim (.uploading · snapshot)
  | updating {claim : TaskDeliveryClaim} {snapshot : Snapshot} {stageId : ℕ} :
      Renews (.outdated claim snapshot stageId) claim (.updating · snapshot stageId)
  | posting {claim : TaskDeliveryClaim} {snapshot : Snapshot} {stageId : ℕ} :
      Renews (.noteMissing claim snapshot stageId) claim (.posting · snapshot stageId false)

/-- Where a session records the task that it found or created. -/
inductive Finds : Phase → TaskDeliveryClaim → Snapshot → Prop
  | found {claim : TaskDeliveryClaim} {snapshot : Snapshot} (untold : claim.taskId = none) :
      Finds (.finding claim snapshot) claim snapshot
  | created {claim : TaskDeliveryClaim} {snapshot : Snapshot} :
      Finds (.created claim snapshot) claim snapshot

/-- Where a session records the image that it found or uploaded. -/
inductive Attaches : Phase → TaskDeliveryClaim → Snapshot → Prop
  | found {claim : TaskDeliveryClaim} {snapshot : Snapshot} :
      Attaches (.attaching claim snapshot) claim snapshot
  | uploaded {claim : TaskDeliveryClaim} {snapshot : Snapshot} :
      Attaches (.uploaded claim snapshot) claim snapshot

theorem Moves.claim {state : State S} {phase later : Phase} {events : List (Event S)}
    (moves : Moves state phase later events) : later.claim = phase.claim := by
  cases moves with
  | agrees => unfold afterFields; split <;> rfl
  | updated => unfold afterFields; split <;> rfl
  | fail held => exact held.symm
  | _ => rfl

theorem Renews.claim {phase : Phase} {claim : TaskDeliveryClaim}
    {later : TaskDeliveryClaim → Phase} (renews : Renews phase claim later) :
    phase.claim = some claim ∧ ∀ saved, (later saved).claim = some saved := by
  cases renews <;> exact ⟨rfl, fun _ => rfl⟩

theorem Finds.claim {phase : Phase} {claim : TaskDeliveryClaim} {snapshot : Snapshot}
    (finds : Finds phase claim snapshot) : phase.claim = some claim := by
  cases finds <;> rfl

theorem Attaches.claim {phase : Phase} {claim : TaskDeliveryClaim} {snapshot : Snapshot}
    (attaches : Attaches phase claim snapshot) : phase.claim = some claim := by
  cases attaches <;> rfl

section Step

variable [DecidableEq S]

/-- What a step from this state does. -/
inductive Outcome (state : State S) : Action S → State S → Prop
  | tick {now : ℤ} (later : state.clock ≤ now) :
      Outcome state (.tick now) { state with clock := now }
  | transition {change : Change} {now : ℤ} {record : Record} {row : DeliveryRow}
      (past : now ≤ state.clock) (moved : state.record.transition change now = some record)
      (queued : enqueueLifecycle record.projectionVersion record.status now state.row = some row) :
      Outcome state (.transition change now)
        { state with record := record, row := row, history := .arrived :: state.history }
  | adopt {taskId : ℕ} {status : Status} {version : ℕ} {review : Review} {record : Record}
      {row : DeliveryRow} (moved : state.record.adopt status version review = some record)
      (adopted : adoptDelivery taskId record state.row = some row) :
      Outcome state (.adopt taskId status version review)
        { state with
          record := record
          row := row
          history := .adopted record.projectionVersion record.status :: state.history }
  | queue {row : DeliveryRow}
      (queued : queueExistingLifecycleMismatches state.record state.clock state.row = some row) :
      Outcome state .queueExisting
        { state with
          row := row
          history :=
            if state.row.desiredVersion < row.desiredVersion ∨
              state.row.desiredContractVersion < row.desiredContractVersion then
                .arrived :: state.history
            else state.history }
  | claim {session : S} {owner : String} {now : ℤ} {claim : TaskDeliveryClaim} {row : DeliveryRow}
      (past : now ≤ state.clock) (idle : state.sessions session = .idle)
      (claimed : claimDue now owner state.nextToken state.row = some (claim, row)) :
      Outcome state (.claim session owner now)
        { state.become session (.claimed claim) with
          row := row
          nextToken := state.nextToken + 1
          history := .claimed session now :: state.history }
  | move {action : Action S} {session : S} {phase : Phase} {events : List (Event S)}
      (moves : Moves state (state.sessions session) phase events) :
      Outcome state action
        { state.become session phase with history := events ++ state.history }
  | recordTask {session : S} {claim saved : TaskDeliveryClaim} {snapshot : Snapshot}
      {taskId : ℕ} {row : DeliveryRow} (finds : Finds (state.sessions session) claim snapshot)
      (recorded : recordTaskId claim taskId state.row = some (saved, row)) :
      Outcome state (.recordTask session taskId)
        { state.become session (.attaching saved snapshot) with row := row }
  | recordAttachment {session : S} {claim saved : TaskDeliveryClaim} {snapshot : Snapshot}
      {attachmentId : ℕ} {row : DeliveryRow}
      (attaches : Attaches (state.sessions session) claim snapshot)
      (recorded : recordBeforeAttachment claim attachmentId state.row = some (saved, row)) :
      Outcome state (.recordAttachment session attachmentId)
        { state.become session (.reconciling saved snapshot) with row := row }
  | renew {session : S} {now : ℤ} {claim renewed : TaskDeliveryClaim}
      {phase : TaskDeliveryClaim → Phase} {row : DeliveryRow} (past : now ≤ state.clock)
      (renews : Renews (state.sessions session) claim phase)
      (extended : renewClaim claim now state.row = some (renewed, row)) :
      Outcome state (.renew session now) { state.become session (phase renewed) with row := row }
  | lands {session : S} {claim : TaskDeliveryClaim} {snapshot : Snapshot} {stageId taskId : ℕ}
      (posting : state.sessions session = .posting claim snapshot stageId false)
      (task : claim.taskId = some taskId) :
      Outcome state (.lands session)
        { state.become session (.posting claim snapshot stageId true) with
          notes := (taskId, snapshot.projectionVersion) :: state.notes }
  | mark {session : S} {now : ℤ} {claim : TaskDeliveryClaim} {snapshot : Snapshot}
      {row : DeliveryRow} (past : now ≤ state.clock)
      (verified : state.sessions session = .verified claim snapshot)
      (marked : markDelivered claim state.hasBeforeImage now state.row = some row) :
      Outcome state (.mark session now) { state.become session .idle with row := row }
  | retry {session : S} {now : ℤ} {claim : TaskDeliveryClaim} {row : DeliveryRow}
      (past : now ≤ state.clock) (held : (state.sessions session).claim = some claim)
      (scheduled : scheduleRetry claim now state.row = some row) :
      Outcome state (.retry session now)
        { state.become session .idle with
          row := row
          history := .retried row.dueAt :: state.history }
  | block {session : S} {reason : String} {claim : TaskDeliveryClaim} {row : DeliveryRow}
      (held : (state.sessions session).claim = some claim)
      (blocked : Feedback.block claim reason state.row = some row) :
      Outcome state (.block session reason) { state.become session .idle with row := row }

variable {state next : State S} {action : Action S}

theorem Outcome.moved {session : S} {phase later : Phase} {events : List (Event S)}
    (at_ : state.sessions session = phase) (moves : Moves state phase later events) :
    Outcome state action { state.become session later with history := events ++ state.history } :=
  .move (at_ ▸ moves)

theorem step_outcome (taken : step state action = some next) : Outcome state action next := by
  cases action with
  | tick now =>
      obtain ⟨later, stepped⟩ := Option.ite_none_right_eq_some.mp taken
      exact Option.some.inj stepped ▸ .tick later
  | transition change now =>
      obtain ⟨past, stepped⟩ := Option.ite_none_right_eq_some.mp taken
      obtain ⟨record, moved, stepped⟩ := Option.bind_eq_some_iff.mp stepped
      obtain ⟨row, queued, rfl⟩ := Option.map_eq_some_iff.mp stepped
      exact .transition past moved queued
  | adopt taskId status version review =>
      obtain ⟨record, moved, stepped⟩ := Option.bind_eq_some_iff.mp taken
      obtain ⟨row, adopted, rfl⟩ := Option.map_eq_some_iff.mp stepped
      exact .adopt moved adopted
  | queueExisting =>
      obtain ⟨row, queued, rfl⟩ := Option.map_eq_some_iff.mp taken
      exact .queue queued
  | claim session owner now =>
      obtain ⟨⟨past, idle⟩, stepped⟩ := Option.ite_none_right_eq_some.mp taken
      obtain ⟨⟨claim, row⟩, claimed, rfl⟩ := Option.map_eq_some_iff.mp stepped
      exact .claim past idle claimed
  | load session =>
      simp only [step] at taken
      split at taken
      · rename_i at_
        exact Option.some.inj taken ▸ .moved at_ .load
      · cases taken
  | findTask session =>
      simp only [step] at taken
      split at taken
      · rename_i at_
        obtain ⟨-, stepped⟩ := Option.ite_none_right_eq_some.mp taken
        exact Option.some.inj stepped ▸ .moved at_ .findTask
      · cases taken
  | recordTask session taskId =>
      simp only [step] at taken
      split at taken
      · rename_i at_
        obtain ⟨untold, stepped⟩ := Option.ite_none_left_eq_some.mp taken
        obtain ⟨⟨saved, row⟩, recorded, rfl⟩ := Option.map_eq_some_iff.mp stepped
        exact .recordTask (at_ ▸ .found (Option.not_isSome_iff_eq_none.mp untold)) recorded
      · rename_i at_
        obtain ⟨⟨saved, row⟩, recorded, rfl⟩ := Option.map_eq_some_iff.mp taken
        exact .recordTask (at_ ▸ .created) recorded
      · cases taken
  | passAttachment session =>
      simp only [step] at taken
      split at taken
      · rename_i at_
        obtain ⟨-, stepped⟩ := Option.ite_none_right_eq_some.mp taken
        exact Option.some.inj stepped ▸ .moved at_ .passAttachment
      · cases taken
  | recordAttachment session attachmentId =>
      simp only [step] at taken
      split at taken
      · rename_i at_
        obtain ⟨-, stepped⟩ := Option.ite_none_left_eq_some.mp taken
        obtain ⟨⟨saved, row⟩, recorded, rfl⟩ := Option.map_eq_some_iff.mp stepped
        exact .recordAttachment (at_ ▸ .found) recorded
      · rename_i at_
        obtain ⟨⟨saved, row⟩, recorded, rfl⟩ := Option.map_eq_some_iff.mp taken
        exact .recordAttachment (at_ ▸ .uploaded) recorded
      · cases taken
  | check session =>
      simp only [step] at taken
      split at taken
      · rename_i at_
        obtain ⟨-, stepped⟩ := Option.ite_none_left_eq_some.mp taken
        split at stepped
        · rename_i same
          exact Option.some.inj stepped ▸ .moved at_ (.check same.1)
        · exact Option.some.inj stepped ▸ .moved at_ (.fail rfl)
      · cases taken
  | link session =>
      simp only [step] at taken
      split at taken
      · rename_i at_
        obtain ⟨review, stepped⟩ := Option.ite_none_right_eq_some.mp taken
        exact Option.some.inj stepped ▸ .moved at_ (.link review)
      · cases taken
  | readTask session stageId remote =>
      simp only [step] at taken
      split at taken
      · rename_i at_
        split at taken
        · exact Option.some.inj taken ▸ .moved at_ (.fail rfl)
        · split at taken
          · exact Option.some.inj taken ▸ .moved at_ .agrees
          · exact Option.some.inj taken ▸ .moved at_ .outdated
      · cases taken
  | searchNote session =>
      simp only [step] at taken
      split at taken
      · rename_i at_
        split at taken
        · rename_i missing
          exact Option.some.inj taken ▸ .moved at_ (.noteMissing missing)
        · exact Option.some.inj taken ▸ .moved at_ .noteFound
        · exact Option.some.inj taken ▸ .moved at_ (.fail rfl)
      · rename_i at_
        split at taken
        · exact Option.some.inj taken ▸ .moved at_ .recovered
        · exact Option.some.inj taken ▸ .moved at_ (.fail rfl)
      · cases taken
  | verify session remote =>
      simp only [step] at taken
      split at taken
      · rename_i at_
        split at taken
        · rename_i agrees
          exact Option.some.inj taken ▸ .moved at_ (.verify agrees.2.1)
        · exact Option.some.inj taken ▸ .moved at_ (.fail rfl)
      · cases taken
  | renew session now =>
      obtain ⟨past, stepped⟩ := Option.ite_none_right_eq_some.mp taken
      split at stepped
      · rename_i at_
        obtain ⟨untold, stepped⟩ := Option.ite_none_left_eq_some.mp stepped
        obtain ⟨⟨renewed, row⟩, extended, rfl⟩ := Option.map_eq_some_iff.mp stepped
        exact .renew past
          (at_ ▸ Renews.creating (Option.not_isSome_iff_eq_none.mp untold)) extended
      · rename_i at_
        obtain ⟨-, stepped⟩ := Option.ite_none_left_eq_some.mp stepped
        obtain ⟨⟨renewed, row⟩, extended, rfl⟩ := Option.map_eq_some_iff.mp stepped
        exact .renew past (at_ ▸ Renews.uploading) extended
      · rename_i at_
        obtain ⟨⟨renewed, row⟩, extended, rfl⟩ := Option.map_eq_some_iff.mp stepped
        exact .renew past (at_ ▸ Renews.updating) extended
      · rename_i at_
        obtain ⟨⟨renewed, row⟩, extended, rfl⟩ := Option.map_eq_some_iff.mp stepped
        exact .renew past (at_ ▸ Renews.posting) extended
      · cases stepped
  | lands session =>
      simp only [step] at taken
      split at taken
      · rename_i at_
        obtain ⟨taskId, task, rfl⟩ := Option.map_eq_some_iff.mp taken
        exact .lands at_ task
      · cases taken
  | returns session ok =>
      simp only [step] at taken
      split at taken
      · rename_i at_
        exact Option.some.inj taken ▸ .moved at_ .created
      · rename_i at_
        exact Option.some.inj taken ▸ .moved at_ .uploaded
      · rename_i at_
        split at taken
        · exact Option.some.inj taken ▸ .moved at_ .updated
        · exact Option.some.inj taken ▸ .moved at_ (.fail rfl)
      · rename_i at_
        split at taken
        · exact Option.some.inj taken ▸ .moved at_ .posted
        · obtain ⟨-, stepped⟩ := Option.ite_none_left_eq_some.mp taken
          exact Option.some.inj stepped ▸ .moved at_ .unsure
      · cases taken
  | mark session now =>
      simp only [step] at taken
      split at taken
      · rename_i at_
        obtain ⟨past, stepped⟩ := Option.ite_none_right_eq_some.mp taken
        obtain ⟨row, marked, rfl⟩ := Option.map_eq_some_iff.mp stepped
        exact .mark past at_ marked
      · cases taken
  | retry session now =>
      obtain ⟨⟨past, -⟩, stepped⟩ := Option.ite_none_right_eq_some.mp taken
      obtain ⟨claim, held, stepped⟩ := Option.bind_eq_some_iff.mp stepped
      obtain ⟨row, scheduled, rfl⟩ := Option.map_eq_some_iff.mp stepped
      exact .retry past held scheduled
  | block session reason =>
      obtain ⟨-, stepped⟩ := Option.ite_none_left_eq_some.mp taken
      obtain ⟨claim, held, stepped⟩ := Option.bind_eq_some_iff.mp stepped
      obtain ⟨row, blocked, rfl⟩ := Option.map_eq_some_iff.mp stepped
      exact .block held blocked
  | fail session =>
      obtain ⟨-, stepped⟩ := Option.ite_none_left_eq_some.mp taken
      obtain ⟨claim, held, rfl⟩ := Option.map_eq_some_iff.mp stepped
      exact .moved rfl (.fail held)

end Step

end PlantManager.Feedback.TaskWorker

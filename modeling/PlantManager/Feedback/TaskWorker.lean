import PlantManager.Feedback.TaskDelivery
import PlantManager.Transition.Runs

/-! # Workers on the outbox of owner tasks

A session is what a worker does with one claim, from `claim_due` to the end of
`process_claim`. Every transaction is one step, and so is every reading of Odoo; a call that
writes to Odoo runs from the renewal before it until it returns. What is read in Odoo is
arbitrary, but for the result notes, which only the workers post. A step may use any earlier
reading of the clock.
-/

namespace PlantManager.Feedback.TaskWorker

open PlantManager.Transition

structure Snapshot where
  behavior : Behavior
  status : Status
  projectionVersion : ℕ
  resolutionNote : Option String
  hasBeforeImage : Bool
deriving DecidableEq

def loadSnapshot (record : Record) (hasBeforeImage : Bool) : Snapshot where
  behavior := record.behavior
  status := record.status
  projectionVersion := record.projectionVersion
  resolutionNote := record.resolutionNote
  hasBeforeImage := hasBeforeImage

/-! ## The owner task in Odoo -/

def taskStageFor : Status → String
  | .requested => "New"
  | .inProgress => "In Progress"
  | .completed => "Done"
  | .declined => "Done"

def taskStateFor : Status → String
  | .requested => "01_in_progress"
  | .inProgress => "01_in_progress"
  | .completed => "1_done"
  | .declined => "1_canceled"

def closedTaskStates : List String := ["1_done", "1_canceled"]

/-- A finished request needs the exact closed state, an open one needs an open one. -/
def TaskStateMatches (status : Status) (remoteState : String) : Prop :=
  if taskStateFor status ∈ closedTaskStates then remoteState = taskStateFor status
  else remoteState ∉ closedTaskStates

instance (status : Status) (remoteState : String) :
    Decidable (TaskStateMatches status remoteState) :=
  inferInstanceAs (Decidable (if taskStateFor status ∈ closedTaskStates then
    remoteState = taskStateFor status else remoteState ∉ closedTaskStates))

/-- What a worker reads of the task; `identity` tells whether it is the feedback's own. -/
structure TaskRead where
  identity : Bool
  stageId : ℕ
  stageName : String
  state : String
deriving DecidableEq

/-- The task is where the status wants it, in the stage that was looked up. -/
def TaskRead.Agrees (remote : TaskRead) (status : Status) (stageId : ℕ) : Prop :=
  remote.stageId = stageId ∧ remote.stageName = taskStageFor status ∧
    TaskStateMatches status remote.state

instance (remote : TaskRead) (status : Status) (stageId : ℕ) :
    Decidable (remote.Agrees status stageId) :=
  inferInstanceAs (Decidable (_ ∧ _ ∧ _))

/-! ## Sessions -/

/-- Where a session is. -/
inductive Phase where
  | idle
  | claimed (claim : TaskDeliveryClaim)
  | finding (claim : TaskDeliveryClaim) (snapshot : Snapshot)
  | creating (claim : TaskDeliveryClaim) (snapshot : Snapshot)
  | created (claim : TaskDeliveryClaim) (snapshot : Snapshot)
  | attaching (claim : TaskDeliveryClaim) (snapshot : Snapshot)
  | uploading (claim : TaskDeliveryClaim) (snapshot : Snapshot)
  | uploaded (claim : TaskDeliveryClaim) (snapshot : Snapshot)
  | reconciling (claim : TaskDeliveryClaim) (snapshot : Snapshot)
  | checked (claim : TaskDeliveryClaim) (snapshot : Snapshot)
  | outdated (claim : TaskDeliveryClaim) (snapshot : Snapshot) (stageId : ℕ)
  | updating (claim : TaskDeliveryClaim) (snapshot : Snapshot) (stageId : ℕ)
  | searching (claim : TaskDeliveryClaim) (snapshot : Snapshot) (stageId : ℕ)
  | noteMissing (claim : TaskDeliveryClaim) (snapshot : Snapshot) (stageId : ℕ)
  | posting (claim : TaskDeliveryClaim) (snapshot : Snapshot) (stageId : ℕ) (landed : Bool)
  | recovering (claim : TaskDeliveryClaim) (snapshot : Snapshot) (stageId : ℕ)
  | verifying (claim : TaskDeliveryClaim) (snapshot : Snapshot) (stageId : ℕ)
  | verified (claim : TaskDeliveryClaim) (snapshot : Snapshot)
  /-- About to retry or block, or crashed. -/
  | failed (claim : TaskDeliveryClaim)
deriving DecidableEq

def Phase.claim : Phase → Option TaskDeliveryClaim
  | .idle => none
  | .claimed claim => some claim
  | .finding claim _ => some claim
  | .creating claim _ => some claim
  | .created claim _ => some claim
  | .attaching claim _ => some claim
  | .uploading claim _ => some claim
  | .uploaded claim _ => some claim
  | .reconciling claim _ => some claim
  | .checked claim _ => some claim
  | .outdated claim _ _ => some claim
  | .updating claim _ _ => some claim
  | .searching claim _ _ => some claim
  | .noteMissing claim _ _ => some claim
  | .posting claim _ _ _ => some claim
  | .recovering claim _ _ => some claim
  | .verifying claim _ _ => some claim
  | .verified claim _ => some claim
  | .failed claim => some claim

/-- A call that writes to Odoo is running. -/
def Phase.Calling : Phase → Prop
  | .creating _ _ => True
  | .uploading _ _ => True
  | .updating _ _ _ => True
  | .posting _ _ _ _ => True
  | _ => False

instance : ∀ phase : Phase, Decidable phase.Calling
  | .creating _ _ => isTrue trivial
  | .uploading _ _ => isTrue trivial
  | .updating _ _ _ => isTrue trivial
  | .posting _ _ _ _ => isTrue trivial
  | .idle => isFalse id
  | .claimed _ => isFalse id
  | .finding _ _ => isFalse id
  | .created _ _ => isFalse id
  | .attaching _ _ => isFalse id
  | .uploaded _ _ => isFalse id
  | .reconciling _ _ => isFalse id
  | .checked _ _ => isFalse id
  | .outdated _ _ _ => isFalse id
  | .searching _ _ _ => isFalse id
  | .noteMissing _ _ _ => isFalse id
  | .recovering _ _ _ => isFalse id
  | .verifying _ _ _ => isFalse id
  | .verified _ _ => isFalse id
  | .failed _ => isFalse id

inductive Event (S : Type*) where
  | claimed (session : S) (now : ℤ)
  | retried (dueAt : ℤ)
  /-- A newer lifecycle or contract version arrived. -/
  | arrived
  /-- The task was read back as the status of the version wants it. -/
  | verified (version : ℕ) (status : Status) (stageId : ℕ) (remote : TaskRead)
  /-- The task and its reference in Odoo were found linked. -/
  | linked (version : ℕ) (status : Status)
  | adopted (version : ℕ) (status : Status)
deriving DecidableEq

/-- The result notes are pairs of a task and a version; the history is latest first. -/
structure State (S : Type*) where
  clock : ℤ
  record : Record
  hasBeforeImage : Bool
  row : DeliveryRow
  nextToken : ℕ
  sessions : S → Phase
  notes : List (ℕ × ℕ)
  history : List (Event S)

def State.initial (S : Type*) (behavior : Behavior) (hasBeforeImage : Bool) (now : ℤ) :
    State S where
  clock := now
  record := createSubmission behavior
  hasBeforeImage := hasBeforeImage
  row := enqueueSubmission now
  nextToken := 0
  sessions _ := .idle
  notes := []
  history := []

inductive Action (S : Type*) where
  | tick (now : ℤ)
  | transition (change : Change) (now : ℤ)
  | adopt (taskId : ℕ) (status : Status) (version : ℕ) (review : Review)
  | queueExisting
  | claim (session : S) (owner : String) (now : ℤ)
  | load (session : S)
  /-- The task of the claim is there. -/
  | findTask (session : S)
  | recordTask (session : S) (taskId : ℕ)
  | passAttachment (session : S)
  | recordAttachment (session : S) (attachmentId : ℕ)
  | check (session : S)
  | link (session : S)
  | readTask (session : S) (stageId : ℕ) (remote : TaskRead)
  | searchNote (session : S)
  | verify (session : S) (remote : TaskRead)
  /-- Renew the lease and begin the call that writes to Odoo. -/
  | renew (session : S) (now : ℤ)
  | lands (session : S)
  | returns (session : S) (ok : Bool)
  | mark (session : S) (now : ℤ)
  | retry (session : S) (now : ℤ)
  | block (session : S) (reason : String)
  | fail (session : S)
deriving DecidableEq

section Step

variable {S : Type*} [DecidableEq S]

def State.become (state : State S) (session : S) (phase : Phase) : State S :=
  { state with sessions := Function.update state.sessions session phase }

/-- A statement that updates the claim of a session. -/
def State.update (state : State S) (session : S) (result : Option (TaskDeliveryClaim × DeliveryRow))
    (phase : TaskDeliveryClaim → Phase) : Option (State S) :=
  result.map fun (claim, row) => { state.become session (phase claim) with row := row }

/-- A statement that ends the claim of a session. -/
def State.release (state : State S) (session : S) (result : Option DeliveryRow) :
    Option (State S) :=
  result.map fun row => { state.become session .idle with row := row }

/-- After the fields agree, a finished request still needs its result note. -/
def afterFields (claim : TaskDeliveryClaim) (snapshot : Snapshot) (stageId : ℕ) : Phase :=
  if snapshot.status.Terminal then .searching claim snapshot stageId
  else .verifying claim snapshot stageId

/-- How many result notes of the version a search on the task of the claim finds. -/
def State.found (state : State S) (claim : TaskDeliveryClaim) (snapshot : Snapshot) : ℕ :=
  state.notes.countP fun note =>
    some note.1 = claim.taskId ∧ note.2 = snapshot.projectionVersion

def step (state : State S) : Action S → Option (State S)
  | .tick now => if state.clock ≤ now then some { state with clock := now } else none
  | .transition change now =>
      if now ≤ state.clock then
        (state.record.transition change now).bind fun record =>
          (enqueueLifecycle record.projectionVersion record.status now state.row).map fun row =>
            { state with record := record, row := row, history := .arrived :: state.history }
      else none
  | .adopt taskId status version review =>
      (state.record.adopt status version review).bind fun record =>
        (adoptDelivery taskId record state.row).map fun row =>
          { state with
            record := record
            row := row
            history := .adopted record.projectionVersion record.status :: state.history }
  | .queueExisting =>
      (queueExistingLifecycleMismatches state.record state.clock state.row).map fun row =>
        { state with
          row := row
          history :=
            if state.row.desiredVersion < row.desiredVersion ∨
              state.row.desiredContractVersion < row.desiredContractVersion then
                .arrived :: state.history
            else state.history }
  | .claim session owner now =>
      if now ≤ state.clock ∧ state.sessions session = .idle then
        (claimDue now owner state.nextToken state.row).map fun (claim, row) =>
          { state.become session (.claimed claim) with
            row := row
            nextToken := state.nextToken + 1
            history := .claimed session now :: state.history }
      else none
  | .load session =>
      match state.sessions session with
      | .claimed claim =>
          some (state.become session
            (.finding claim (loadSnapshot state.record state.hasBeforeImage)))
      | _ => none
  | .findTask session =>
      match state.sessions session with
      | .finding claim snapshot =>
          if claim.taskId.isSome then some (state.become session (.attaching claim snapshot))
          else none
      | _ => none
  | .recordTask session taskId =>
      match state.sessions session with
      | .finding claim snapshot =>
          if claim.taskId.isSome then none
          else state.update session (recordTaskId claim taskId state.row) (.attaching · snapshot)
      | .created claim snapshot =>
          state.update session (recordTaskId claim taskId state.row) (.attaching · snapshot)
      | _ => none
  | .passAttachment session =>
      match state.sessions session with
      | .attaching claim snapshot =>
          if snapshot.hasBeforeImage = false ∨ claim.beforeAttachmentId.isSome then
            some (state.become session (.reconciling claim snapshot))
          else none
      | _ => none
  | .recordAttachment session attachmentId =>
      match state.sessions session with
      | .attaching claim snapshot =>
          if snapshot.hasBeforeImage = false ∨ claim.beforeAttachmentId.isSome then none
          else state.update session (recordBeforeAttachment claim attachmentId state.row)
            (.reconciling · snapshot)
      | .uploaded claim snapshot =>
          state.update session (recordBeforeAttachment claim attachmentId state.row)
            (.reconciling · snapshot)
      | _ => none
  | .check session =>
      match state.sessions session with
      | .reconciling claim snapshot =>
          if snapshot.behavior = .review then none
          else if claim.desiredVersion = snapshot.projectionVersion ∧
              claim.desiredStatus = snapshot.status then
            some (state.become session (.checked claim snapshot))
          else some (state.become session (.failed claim))
      | _ => none
  | .link session =>
      match state.sessions session with
      | .reconciling claim snapshot =>
          if snapshot.behavior = .review then some
            { state.become session (.verified claim snapshot) with
              history := .linked snapshot.projectionVersion snapshot.status :: state.history }
          else none
      | _ => none
  | .readTask session stageId remote =>
      match state.sessions session with
      | .checked claim snapshot =>
          if remote.identity = false then some (state.become session (.failed claim))
          else if remote.Agrees snapshot.status stageId then
            some (state.become session (afterFields claim snapshot stageId))
          else some (state.become session (.outdated claim snapshot stageId))
      | _ => none
  | .searchNote session =>
      match state.sessions session with
      | .searching claim snapshot stageId =>
          match state.found claim snapshot with
          | 0 => some (state.become session (.noteMissing claim snapshot stageId))
          | 1 => some (state.become session (.verifying claim snapshot stageId))
          | _ => some (state.become session (.failed claim))
      | .recovering claim snapshot stageId =>
          match state.found claim snapshot with
          | 1 => some (state.become session (.verifying claim snapshot stageId))
          | _ => some (state.become session (.failed claim))
      | _ => none
  | .verify session remote =>
      match state.sessions session with
      | .verifying claim snapshot stageId =>
          if remote.identity ∧ remote.Agrees snapshot.status stageId ∧
              (snapshot.status.Terminal → state.found claim snapshot = 1) then some
            { state.become session (.verified claim snapshot) with
              history := .verified snapshot.projectionVersion snapshot.status stageId remote ::
                state.history }
          else some (state.become session (.failed claim))
      | _ => none
  | .renew session now =>
      if now ≤ state.clock then
        match state.sessions session with
        | .finding claim snapshot =>
            if claim.taskId.isSome then none
            else state.update session (renewClaim claim now state.row) (.creating · snapshot)
        | .attaching claim snapshot =>
            if snapshot.hasBeforeImage = false ∨ claim.beforeAttachmentId.isSome then none
            else state.update session (renewClaim claim now state.row) (.uploading · snapshot)
        | .outdated claim snapshot stageId =>
            state.update session (renewClaim claim now state.row) (.updating · snapshot stageId)
        | .noteMissing claim snapshot stageId =>
            state.update session (renewClaim claim now state.row)
              (.posting · snapshot stageId false)
        | _ => none
      else none
  | .lands session =>
      match state.sessions session with
      | .posting claim snapshot stageId false =>
          claim.taskId.map fun taskId =>
            { state.become session (.posting claim snapshot stageId true) with
              notes := (taskId, snapshot.projectionVersion) :: state.notes }
      | _ => none
  | .returns session ok =>
      match state.sessions session with
      | .creating claim snapshot => some (state.become session (.created claim snapshot))
      | .uploading claim snapshot => some (state.become session (.uploaded claim snapshot))
      | .updating claim snapshot stageId =>
          if ok then some (state.become session (afterFields claim snapshot stageId))
          else some (state.become session (.failed claim))
      | .posting claim snapshot stageId landed =>
          if ok ∧ landed then some (state.become session (.verifying claim snapshot stageId))
          else if ok then none
          else some (state.become session (.recovering claim snapshot stageId))
      | _ => none
  | .mark session now =>
      match state.sessions session with
      | .verified claim _ =>
          if now ≤ state.clock then
            state.release session (markDelivered claim state.hasBeforeImage now state.row)
          else none
      | _ => none
  | .retry session now =>
      if now ≤ state.clock ∧ ¬(state.sessions session).Calling then
        (state.sessions session).claim.bind fun claim =>
          (scheduleRetry claim now state.row).map fun row =>
            { state.become session .idle with
              row := row
              history := .retried row.dueAt :: state.history }
      else none
  | .block session reason =>
      if (state.sessions session).Calling then none
      else (state.sessions session).claim.bind fun claim =>
        state.release session (block claim reason state.row)
  | .fail session =>
      if (state.sessions session).Calling then none
      else (state.sessions session).claim.map fun claim => state.become session (.failed claim)

end Step

end PlantManager.Feedback.TaskWorker

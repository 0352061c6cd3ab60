import PlantManager.Feedback.SyncStore
import PlantManager.Transition.Runs

/-! # Workers on the outbox of Odoo improvements

A session is what a worker does with one claim, or a reconciler with one review; it may stop
anywhere. Every transaction is one step, and so is every reading of Odoo and every call. What
is read in Odoo is arbitrary; a call that creates a record takes effect once, at any time after
it was sent, unless it was refused. Nothing is assumed of the clocks.
-/

namespace PlantManager.Feedback.Sync

open PlantManager.Transition

/-- Where a session is. -/
inductive Phase where
  | idle
  | claimed (claim : Claim)
  | unprepared (claim : Claim)
  | projected (claim : Claim) (behavior : Behavior) (review : Review)
  | preparing (claim : Claim) (kind : MutationKind) (remoteId : Option ℕ) (manifest : Manifest)
  | recovering (claim : Claim) (attempt : Attempt)
  | prepared (claim : Claim) (attempt : Attempt)
  | revalidated (claim : Claim) (attempt : Attempt)
  | marked (claim : Claim) (attempt : Attempt)
  | sent (claim : Claim) (attempt : Attempt)
  | faulted (claim : Claim) (attempt : Attempt)
  | ambiguous (claim : Claim) (attempt : Attempt)
  | acknowledged (claim : Claim) (attempt : Attempt) (remoteId : ℕ)
  | verifying (claim : Claim) (attempt : Attempt) (remoteId : ℕ)
  | readBack (claim : Claim) (attempt : Attempt) (remoteId : ℕ)
  | reviewRead (candidate : ReviewCandidate)
  | reviewing (candidate : ReviewCandidate)
deriving DecidableEq

/-- What a session may give up: its claim, and the attempt if there is one. -/
def Phase.work : Phase → Option (Claim × Option Attempt)
  | .unprepared claim => some (claim, none)
  | .projected claim _ _ => some (claim, none)
  | .recovering claim attempt => some (claim, some attempt)
  | .prepared claim attempt => some (claim, some attempt)
  | .revalidated claim attempt => some (claim, some attempt)
  | .sent claim attempt => some (claim, some attempt)
  | .ambiguous claim attempt => some (claim, some attempt)
  | .acknowledged claim attempt _ => some (claim, some attempt)
  | .verifying claim attempt _ => some (claim, some attempt)
  | _ => none

inductive Event (S : Type*) where
  | claimed (session : S)
  | quarantined
  /-- An operator, or a verified review, cleared the quarantine. -/
  | cleared
  | marked (attemptId : ℕ)
  | sent (attemptId : ℕ)
  | faulted (attemptId : ℕ)
  | failed (attemptId : ℕ)
  | expired (attemptId : ℕ)
  | superseded (attemptId : ℕ)
  | verified (version : ℕ) (manifest : Manifest)
  | adopted (version : ℕ) (review : Review)
deriving DecidableEq

/-- `created` are the attempts whose record exists in Odoo; the history is latest first. -/
structure State (S : Type*) where
  record : Record
  store : Store
  nextToken : ℕ
  nextAttempt : ℕ
  sessions : S → Phase
  created : List ℕ
  history : List (Event S)

def State.initial (S : Type*) (behavior : Behavior) (now : ℤ) : State S where
  record := createSubmission behavior
  store := ⟨createRow now, fun _ => none⟩
  nextToken := 0
  nextAttempt := 0
  sessions _ := .idle
  created := []
  history := []

inductive Action (S : Type*) where
  | transition (change : Change) (now : ℤ)
  | claim (session : S) (owner : String) (now : ℤ)
  | load (session : S)
  | snapshot (session : S)
  | releaseStale (session : S) (now : ℤ)
  | deferRead (session : S) (errorClass : String) (now : ℤ)
  | identify (session : S) (found : Option ℕ) (fields : List (String × String))
  | prepare (session : S)
  | resume (session : S)
  | deferGate (session : S) (now : ℤ)
  | revalidate (session : S) (found : Option ℕ)
  | mark (session : S)
  | closeGate (session : S)
  | send (session : S)
  | lands (attemptId : ℕ)
  | acknowledge (session : S) (remoteId : ℕ)
  | fault (session : S)
  | lose (session : S)
  | resolve (session : S) (remoteId : ℕ)
  | succeed (session : S)
  | readBack (session : S) (manifest : Manifest)
  | scheduleReadback (session : S) (now : ℤ)
  | settle (session : S) (now : ℤ)
  | failDefinitely (session : S) (errorClass : String) (now : ℤ)
  | quarantine (session : S) (reason : String) (now : ℤ)
  | recover (now : ℤ)
  | dispose (attemptId : ℕ) (disposition : Disposition) (confirmed : Bool) (now : ℤ)
  | preAttemptRelease (now : ℤ)
  | reviewRead (session : S) (taskId : ℕ)
  | reviewClaim (session : S) (owner : String) (expiresAt : ℤ) (now : ℤ)
  | reviewRelease (session : S)
  | reviewAttention (session : S) (code : String) (now : ℤ)
  | adopt (session : S) (review : Review)
deriving DecidableEq

section Step

variable {S : Type*} [DecidableEq S]

def State.become (state : State S) (session : S) (phase : Phase) : State S :=
  { state with sessions := Function.update state.sessions session phase }

/-- A transaction of a session on the row alone. -/
def State.writeRow (state : State S) (session : S) (phase : Phase) (row : Option SyncRow)
    (events : List (Event S)) : Option (State S) :=
  row.map fun row =>
    { state.become session phase with
      store := { state.store with row := row }
      history := events ++ state.history }

/-- A transaction of a session on the row and its attempts. -/
def State.write (state : State S) (session : S) (phase : Phase) (store : Option Store)
    (events : List (Event S)) : Option (State S) :=
  store.map fun store =>
    { state.become session phase with store := store, history := events ++ state.history }

/-- The identity that a search must find before the attempt is dispatched. -/
def Attempt.expectedIdentity (attempt : Attempt) : Option ℕ :=
  match attempt.mutationKind with
  | .create => none
  | .update => attempt.remoteId

/-- What the recovery of an expired claim tells. -/
def recoveryEvents (store : Store) : List (Event S) :=
  match store.row.activeAttemptId with
  | none => []
  | some attemptId =>
      if (store.attempts attemptId).map Attempt.state = some .dispatchMarked then
        [.quarantined, .expired attemptId]
      else []

def dispositionEvents (attemptId : ℕ) : Disposition → List (Event S)
  | .keep => []
  | .releaseDefinitive => [.cleared]
  | .supersedeAndRetry => [.cleared, .superseded attemptId]

def step (state : State S) : Action S → Option (State S)
  | .transition change now =>
      (state.record.transition change now).map fun record =>
        { state with
          record := record
          store :=
            { state.store with
              row := enqueueTransition record.projectionVersion now state.store.row } }
  | .claim session owner now =>
      if state.sessions session = .idle then
        (claimDue now owner state.nextToken state.store.row).map fun (claim, row) =>
          { state.become session (.claimed claim) with
            store := { state.store with row := row }
            nextToken := state.nextToken + 1
            history := .claimed session :: state.history }
      else none
  | .load session =>
      match state.sessions session with
      | .claimed claim =>
          (loadActiveAttempt claim state.store).map fun active =>
            match active with
            | none => state.become session (.unprepared claim)
            | some attempt => state.become session (.recovering claim attempt)
      | _ => none
  | .snapshot session =>
      match state.sessions session with
      | .unprepared claim =>
          if state.record.projectionVersion = claim.desiredVersion then
            some (state.become session
              (.projected claim state.record.behavior state.record.review))
          else none
      | _ => none
  | .releaseStale session now =>
      match state.sessions session with
      | .unprepared claim =>
          state.writeRow session .idle (releaseStaleUnpreparedClaim claim now state.store.row) []
      | .preparing claim _ _ _ =>
          state.writeRow session .idle (releaseStaleUnpreparedClaim claim now state.store.row) []
      | _ => none
  | .deferRead session errorClass now =>
      match state.sessions session with
      | .projected claim _ _ =>
          state.writeRow session .idle
            (deferUnpreparedReadFailure claim errorClass now state.store.row) []
      | .preparing claim _ _ _ =>
          state.writeRow session .idle
            (deferUnpreparedReadFailure claim errorClass now state.store.row) []
      | _ => none
  | .identify session found fields =>
      match state.sessions session with
      | .projected claim behavior review =>
          let manifest : Manifest := ⟨behavior, review, fields⟩
          match claim.odooImprovementId, found with
          | some saved, _ =>
              if found = some saved then
                some (state.become session (.preparing claim .update (some saved) manifest))
              else none
          | none, some remoteId =>
              some (state.become session (.preparing claim .update (some remoteId) manifest))
          | none, none => some (state.become session (.preparing claim .create none manifest))
      | _ => none
  | .prepare session =>
      match state.sessions session with
      | .preparing claim kind remoteId manifest =>
          (prepareAttempt claim state.nextAttempt kind remoteId manifest state.store).map
            fun (saved, store) =>
              { state.become session (.prepared claim saved) with
                store := store
                nextAttempt := state.nextAttempt + 1 }
      | _ => none
  | .resume session =>
      match state.sessions session with
      | .recovering claim attempt =>
          match attempt.state with
          | .prepared => some (state.become session (.prepared claim attempt))
          | .rpcSucceeded =>
              attempt.remoteId.map fun remoteId =>
                state.become session (.verifying claim attempt remoteId)
          | _ => none
      | _ => none
  | .deferGate session now =>
      match state.sessions session with
      | .prepared claim attempt =>
          state.write session .idle (deferPreparedForClosedGate claim attempt now state.store) []
      | _ => none
  | .revalidate session found =>
      match state.sessions session with
      | .prepared claim attempt =>
          if found = attempt.expectedIdentity then
            some (state.become session (.revalidated claim attempt))
          else none
      | _ => none
  | .mark session =>
      match state.sessions session with
      | .revalidated claim attempt =>
          (markDispatch claim attempt state.store).map fun (marked, store) =>
            { state.become session (.marked claim marked) with
              store := store
              history := .marked attempt.attemptId :: state.history }
      | _ => none
  | .closeGate session =>
      match state.sessions session with
      | .marked claim attempt =>
          some
            { state.become session (.faulted claim attempt) with
              history := .faulted attempt.attemptId :: state.history }
      | _ => none
  | .send session =>
      match state.sessions session with
      | .marked claim attempt =>
          -- A review that exists belongs to Odoo: nothing is sent.
          if attempt.mutationKind = .update ∧ attempt.manifest.behavior = .review then
            attempt.remoteId.map fun remoteId =>
              state.become session (.acknowledged claim attempt remoteId)
          else some
            { state.become session (.sent claim attempt) with
              history := .sent attempt.attemptId :: state.history }
      | _ => none
  | .lands attemptId =>
      if .sent attemptId ∈ state.history ∧ .faulted attemptId ∉ state.history ∧
          attemptId ∉ state.created ∧
          (state.store.attempts attemptId).map Attempt.mutationKind = some .create then
        some { state with created := attemptId :: state.created }
      else none
  | .acknowledge session remoteId =>
      match state.sessions session with
      | .sent claim attempt =>
          if (attempt.mutationKind = .create ∧ attempt.attemptId ∈ state.created) ∨
              (attempt.mutationKind = .update ∧ attempt.remoteId = some remoteId) then
            some (state.become session (.acknowledged claim attempt remoteId))
          else none
      | _ => none
  | .fault session =>
      match state.sessions session with
      | .sent claim attempt =>
          if attempt.attemptId ∈ state.created then none
          else some
            { state.become session (.faulted claim attempt) with
              history := .faulted attempt.attemptId :: state.history }
      | _ => none
  | .lose session =>
      match state.sessions session with
      | .sent claim attempt => some (state.become session (.ambiguous claim attempt))
      | _ => none
  | .resolve session remoteId =>
      match state.sessions session with
      | .ambiguous claim attempt =>
          if attempt.mutationKind = .create ∨ attempt.remoteId = some remoteId then
            some (state.become session (.acknowledged claim attempt remoteId))
          else none
      | _ => none
  | .succeed session =>
      match state.sessions session with
      | .acknowledged claim attempt remoteId =>
          (markRpcSucceeded claim attempt remoteId state.store).map fun (succeeded, store) =>
            { state.become session (.verifying claim succeeded remoteId) with store := store }
      | _ => none
  | .readBack session manifest =>
      match state.sessions session with
      | .verifying claim attempt remoteId =>
          if manifest = attempt.manifest then some
            { state.become session (.readBack claim attempt remoteId) with
              history := .verified attempt.projectionVersion manifest :: state.history }
          else none
      | _ => none
  | .scheduleReadback session now =>
      match state.sessions session with
      | .verifying claim attempt _ =>
          state.write session .idle (scheduleReadback claim attempt now state.store) []
      | _ => none
  | .settle session now =>
      match state.sessions session with
      | .readBack claim attempt remoteId =>
          state.write session .idle (settleVerified claim attempt remoteId now state.store) []
      | _ => none
  | .failDefinitely session errorClass now =>
      match state.sessions session with
      | .prepared claim attempt =>
          state.write session .idle
            (recordDefinitiveFailure claim attempt errorClass now state.store)
            (if maxMutationAttempts ≤ claim.attemptCount + 1 then
              [.quarantined, .failed attempt.attemptId] else [.failed attempt.attemptId])
      | .faulted claim attempt =>
          state.write session .idle
            (recordDefinitiveFailure claim attempt errorClass now state.store)
            (if maxMutationAttempts ≤ claim.attemptCount + 1 then
              [.quarantined, .failed attempt.attemptId] else [.failed attempt.attemptId])
      | _ => none
  | .quarantine session reason now =>
      (state.sessions session).work.bind fun (claim, attempt) =>
        state.write session .idle (quarantine claim reason now attempt state.store) [.quarantined]
  | .recover now =>
      (recoverExpiredClaims now state.store).map fun store =>
        { state with store := store, history := recoveryEvents state.store ++ state.history }
  | .dispose attemptId disposition confirmed now =>
      (applyQuarantineDisposition attemptId disposition confirmed now state.record
        state.store).map fun (record, store) =>
          { state with
            record := record
            store := store
            history := dispositionEvents attemptId disposition ++ state.history }
  | .preAttemptRelease now =>
      (releasePreAttemptQuarantine now state.record state.store.row).map fun row =>
        { state with
          store := { state.store with row := row }
          history := .cleared :: state.history }
  | .reviewRead session taskId =>
      if state.sessions session = .idle ∧ state.record.behavior = .review ∧
          state.store.row.state.lease = none ∧ state.store.row.activeAttemptId = none then
        state.store.row.odooImprovementId.map fun remoteId =>
          state.become session (.reviewRead
            ⟨state.record.status, state.record.projectionVersion, taskId, remoteId, none⟩)
      else none
  | .reviewClaim session owner expiresAt now =>
      match state.sessions session with
      | .reviewRead candidate =>
          (claimReviewCandidate candidate ⟨owner, state.nextToken, expiresAt⟩ now
            state.store.row).map fun (claimed, row) =>
              { state.become session (.reviewing claimed) with
                store := { state.store with row := row }
                nextToken := state.nextToken + 1 }
      | _ => none
  | .reviewRelease session =>
      match state.sessions session with
      | .reviewing candidate =>
          state.writeRow session .idle (releaseReviewCandidate candidate state.store.row) []
      | _ => none
  | .reviewAttention session code now =>
      match state.sessions session with
      | .reviewing candidate =>
          state.writeRow session .idle (recordReviewAttention candidate code now state.store.row)
            [.quarantined]
      | _ => none
  | .adopt session review =>
      match state.sessions session with
      | .reviewing candidate =>
          (state.record.adopt candidate.status candidate.projectionVersion review).bind
            fun record =>
              (adoptSync candidate record state.store.row).map fun row =>
                { state.become session .idle with
                  record := record
                  store := { state.store with row := row }
                  history :=
                    .cleared :: .adopted record.projectionVersion record.review :: state.history }
      | _ => none

end Step

end PlantManager.Feedback.Sync

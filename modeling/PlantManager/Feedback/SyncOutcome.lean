import PlantManager.Feedback.SyncWorker

/-! # What a step of the outbox of Odoo improvements does

`Feedback.Sync.step_outcome` reads a step as one of a few outcomes. Most steps only
move one session (`Feedback.Sync.Moves`); those that give a claim back without
touching its attempt are told as one.
-/

namespace PlantManager.Feedback.Sync

open PlantManager.Transition

variable {S : Type*}

/-- The claim that a worker's session holds. -/
def Phase.claim : Phase → Option Claim
  | .claimed claim => some claim
  | .unprepared claim => some claim
  | .projected claim _ _ => some claim
  | .preparing claim _ _ _ => some claim
  | .recovering claim _ => some claim
  | .prepared claim _ => some claim
  | .revalidated claim _ => some claim
  | .marked claim _ => some claim
  | .sent claim _ => some claim
  | .faulted claim _ => some claim
  | .ambiguous claim _ => some claim
  | .acknowledged claim _ _ => some claim
  | .verifying claim _ _ => some claim
  | .readBack claim _ _ => some claim
  | _ => none

/-- The attempt that a worker's session carries. -/
def Phase.attempt : Phase → Option Attempt
  | .recovering _ attempt => some attempt
  | .prepared _ attempt => some attempt
  | .revalidated _ attempt => some attempt
  | .marked _ attempt => some attempt
  | .sent _ attempt => some attempt
  | .faulted _ attempt => some attempt
  | .ambiguous _ attempt => some attempt
  | .acknowledged _ attempt _ => some attempt
  | .verifying _ attempt _ => some attempt
  | .readBack _ attempt _ => some attempt
  | _ => none

/-- A step of a session that leaves the record and the row alone. -/
inductive Moves (state : State S) : Phase → Phase → List (Event S) → Prop
  | load {claim : Claim} (loaded : loadActiveAttempt claim state.store = some none) :
      Moves state (.claimed claim) (.unprepared claim) []
  | loadActive {claim : Claim} {attempt : Attempt}
      (loaded : loadActiveAttempt claim state.store = some (some attempt)) :
      Moves state (.claimed claim) (.recovering claim attempt) []
  | snapshot {claim : Claim} (same : state.record.projectionVersion = claim.desiredVersion) :
      Moves state (.unprepared claim)
        (.projected claim state.record.behavior state.record.review) []
  | identify {claim : Claim} {behavior : Behavior} {review : Review} {kind : MutationKind}
      {remoteId : Option ℕ} {fields : List (String × String)}
      (saved : claim.odooImprovementId.isSome → kind = .update) :
      Moves state (.projected claim behavior review)
        (.preparing claim kind remoteId ⟨behavior, review, fields⟩) []
  | resume {claim : Claim} {attempt : Attempt} (prepared : attempt.state = .prepared) :
      Moves state (.recovering claim attempt) (.prepared claim attempt) []
  | resumeRead {claim : Claim} {attempt : Attempt} {remoteId : ℕ}
      (succeeded : attempt.state = .rpcSucceeded) :
      Moves state (.recovering claim attempt) (.verifying claim attempt remoteId) []
  | revalidate {claim : Claim} {attempt : Attempt} :
      Moves state (.prepared claim attempt) (.revalidated claim attempt) []
  | closeGate {claim : Claim} {attempt : Attempt} :
      Moves state (.marked claim attempt) (.faulted claim attempt) [.faulted attempt.attemptId]
  | keepReview {claim : Claim} {attempt : Attempt} {remoteId : ℕ}
      (update : attempt.mutationKind = .update) :
      Moves state (.marked claim attempt) (.acknowledged claim attempt remoteId) []
  | send {claim : Claim} {attempt : Attempt} :
      Moves state (.marked claim attempt) (.sent claim attempt) [.sent attempt.attemptId]
  | acknowledge {claim : Claim} {attempt : Attempt} {remoteId : ℕ} :
      Moves state (.sent claim attempt) (.acknowledged claim attempt remoteId) []
  | fault {claim : Claim} {attempt : Attempt} (unseen : attempt.attemptId ∉ state.created) :
      Moves state (.sent claim attempt) (.faulted claim attempt) [.faulted attempt.attemptId]
  | lose {claim : Claim} {attempt : Attempt} :
      Moves state (.sent claim attempt) (.ambiguous claim attempt) []
  | resolve {claim : Claim} {attempt : Attempt} {remoteId : ℕ} :
      Moves state (.ambiguous claim attempt) (.acknowledged claim attempt remoteId) []
  | readBack {claim : Claim} {attempt : Attempt} {remoteId : ℕ} :
      Moves state (.verifying claim attempt remoteId) (.readBack claim attempt remoteId)
        [.verified attempt.projectionVersion attempt.manifest]
  | reviewRead {status : Status} {version taskId remoteId : ℕ}
      (followed : state.record.behavior = .review) :
      Moves state .idle (.reviewRead ⟨status, version, taskId, remoteId, none⟩) []

section Step

variable [DecidableEq S]

/-- What a step from this state does. -/
inductive Outcome (state : State S) : Action S → State S → Prop
  | transition {change : Change} {now : ℤ} {record : Record}
      (moved : state.record.transition change now = some record) :
      Outcome state (.transition change now)
        { state with
          record := record
          store :=
            { state.store with
              row := enqueueTransition record.projectionVersion now state.store.row } }
  | claim {session : S} {owner : String} {now : ℤ} {claim : Claim} {row : SyncRow}
      (idle : state.sessions session = .idle)
      (claimed : claimDue now owner state.nextToken state.store.row = some (claim, row)) :
      Outcome state (.claim session owner now)
        { state.become session (.claimed claim) with
          store := { state.store with row := row }
          nextToken := state.nextToken + 1
          history := .claimed session :: state.history }
  | move {action : Action S} {session : S} {phase : Phase} {events : List (Event S)}
      (moves : Moves state (state.sessions session) phase events) :
      Outcome state action
        { state.become session phase with history := events ++ state.history }
  | lands {attemptId : ℕ} (sent : .sent attemptId ∈ state.history)
      (unrefused : .faulted attemptId ∉ state.history) (unseen : attemptId ∉ state.created)
      (create : (state.store.attempts attemptId).map Attempt.mutationKind = some .create) :
      Outcome state (.lands attemptId) { state with created := attemptId :: state.created }
  | release {action : Action S} {session : S} {claim : Claim} {row : SyncRow}
      (held : (state.sessions session).claim = some claim) (holds : claim.Holds state.store.row)
      (idle : row.state = .idle) (keeps : state.store.row.Keeps row) :
      Outcome state action
        { state.become session .idle with store := { state.store with row := row } }
  | prepare {session : S} {claim : Claim} {kind : MutationKind} {remoteId : Option ℕ}
      {manifest : Manifest} {saved : Attempt} {store : Store}
      (preparing : state.sessions session = .preparing claim kind remoteId manifest)
      (prepared : prepareAttempt claim state.nextAttempt kind remoteId manifest state.store =
        some (saved, store)) :
      Outcome state (.prepare session)
        { state.become session (.prepared claim saved) with
          store := store
          nextAttempt := state.nextAttempt + 1 }
  | mark {session : S} {claim : Claim} {attempt marked : Attempt} {store : Store}
      (revalidated : state.sessions session = .revalidated claim attempt)
      (dispatched : markDispatch claim attempt state.store = some (marked, store)) :
      Outcome state (.mark session)
        { state.become session (.marked claim marked) with
          store := store
          history := .marked attempt.attemptId :: state.history }
  | succeed {session : S} {claim : Claim} {attempt succeeded : Attempt} {remoteId : ℕ}
      {store : Store}
      (acknowledged : state.sessions session = .acknowledged claim attempt remoteId)
      (recorded : markRpcSucceeded claim attempt remoteId state.store = some (succeeded, store)) :
      Outcome state (.succeed session)
        { state.become session (.verifying claim succeeded remoteId) with store := store }
  | settle {session : S} {now : ℤ} {claim : Claim} {attempt : Attempt} {remoteId : ℕ}
      {store : Store} (read : state.sessions session = .readBack claim attempt remoteId)
      (settled : settleVerified claim attempt remoteId now state.store = some store) :
      Outcome state (.settle session now) { state.become session .idle with store := store }
  | fail {session : S} {errorClass : String} {now : ℤ} {claim : Claim} {attempt : Attempt}
      {store : Store}
      (refused : state.sessions session = .prepared claim attempt ∨
        state.sessions session = .faulted claim attempt)
      (failed : recordDefinitiveFailure claim attempt errorClass now state.store = some store) :
      Outcome state (.failDefinitely session errorClass now)
        { state.become session .idle with
          store := store
          history :=
            (if maxMutationAttempts ≤ claim.attemptCount + 1 then
              [.quarantined, .failed attempt.attemptId] else [.failed attempt.attemptId]) ++
              state.history }
  | quarantine {session : S} {reason : String} {now : ℤ} {claim : Claim}
      {attempt : Option Attempt} {store : Store}
      (held : (state.sessions session).claim = some claim)
      (carried : (state.sessions session).work = some (claim, attempt))
      (stopped : Sync.quarantine claim reason now attempt state.store = some store) :
      Outcome state (.quarantine session reason now)
        { state.become session .idle with
          store := store
          history := .quarantined :: state.history }
  | recover {now : ℤ} {store : Store}
      (recovered : recoverExpiredClaims now state.store = some store) :
      Outcome state (.recover now)
        { state with store := store, history := recoveryEvents state.store ++ state.history }
  | dispose {attemptId : ℕ} {disposition : Disposition} {confirmed : Bool} {now : ℤ}
      {record : Record} {store : Store}
      (disposed : applyQuarantineDisposition attemptId disposition confirmed now state.record
        state.store = some (record, store)) :
      Outcome state (.dispose attemptId disposition confirmed now)
        { state with
          record := record
          store := store
          history := dispositionEvents attemptId disposition ++ state.history }
  | preAttemptRelease {now : ℤ} {row : SyncRow}
      (released : releasePreAttemptQuarantine now state.record state.store.row = some row) :
      Outcome state (.preAttemptRelease now)
        { state with
          store := { state.store with row := row }
          history := .cleared :: state.history }
  | reviewClaim {session : S} {owner : String} {expiresAt now : ℤ}
      {candidate claimed : ReviewCandidate} {row : SyncRow}
      (read : state.sessions session = .reviewRead candidate)
      (borrowed : claimReviewCandidate candidate ⟨owner, state.nextToken, expiresAt⟩ now
        state.store.row = some (claimed, row)) :
      Outcome state (.reviewClaim session owner expiresAt now)
        { state.become session (.reviewing claimed) with
          store := { state.store with row := row }
          nextToken := state.nextToken + 1 }
  | reviewRelease {session : S} {candidate : ReviewCandidate} {row : SyncRow}
      (reviewing : state.sessions session = .reviewing candidate)
      (released : releaseReviewCandidate candidate state.store.row = some row) :
      Outcome state (.reviewRelease session)
        { state.become session .idle with store := { state.store with row := row } }
  | reviewAttention {session : S} {code : String} {now : ℤ} {candidate : ReviewCandidate}
      {row : SyncRow} (reviewing : state.sessions session = .reviewing candidate)
      (recorded : recordReviewAttention candidate code now state.store.row = some row) :
      Outcome state (.reviewAttention session code now)
        { state.become session .idle with
          store := { state.store with row := row }
          history := .quarantined :: state.history }
  | adopt {session : S} {review : Review} {candidate : ReviewCandidate} {record : Record}
      {row : SyncRow} (reviewing : state.sessions session = .reviewing candidate)
      (moved : state.record.adopt candidate.status candidate.projectionVersion review =
        some record)
      (adopted : adoptSync candidate record state.store.row = some row) :
      Outcome state (.adopt session review)
        { state.become session .idle with
          record := record
          store := { state.store with row := row }
          history := .cleared :: .adopted record.projectionVersion record.review ::
            state.history }

variable {state next : State S} {action : Action S}

theorem Outcome.moved {session : S} {phase later : Phase} {events : List (Event S)}
    (at_ : state.sessions session = phase) (moves : Moves state phase later events) :
    Outcome state action { state.become session later with history := events ++ state.history } :=
  .move (at_ ▸ moves)

variable {claim : Claim}

theorem Phase.claim_of_work {phase : Phase} {attempt : Option Attempt}
    (carried : phase.work = some (claim, attempt)) : phase.claim = some claim := by
  cases phase <;> cases carried <;> rfl

/-- A statement on the row alone that gives the claim back. -/
theorem Outcome.writeRow {session : S} {row : Option SyncRow}
    (held : (state.sessions session).claim = some claim)
    (gives : ∀ after ∈ row, claim.Holds state.store.row ∧ after.state = .idle ∧
      state.store.row.Keeps after) (written : state.writeRow session .idle row [] = some next) :
    Outcome state action next := by
  obtain ⟨after, same, rfl⟩ := Option.map_eq_some_iff.mp written
  obtain ⟨holds, idle, keeps⟩ := gives after same
  exact .release held holds idle keeps

/-- A transaction that gives the claim back and keeps the attempts. -/
theorem Outcome.write {session : S} {store : Option Store}
    (held : (state.sessions session).claim = some claim)
    (gives : ∀ after ∈ store, claim.Holds state.store.row ∧ after.row.state = .idle ∧
      state.store.row.Keeps after.row ∧ after.attempts = state.store.attempts)
    (written : state.write session .idle store [] = some next) : Outcome state action next := by
  obtain ⟨⟨row, attempts⟩, same, rfl⟩ := Option.map_eq_some_iff.mp written
  obtain ⟨holds, idle, keeps, rfl⟩ := gives _ same
  exact .release held holds idle keeps

theorem step_outcome (taken : step state action = some next) : Outcome state action next := by
  cases action with
  | transition change now =>
      obtain ⟨record, moved, rfl⟩ := Option.map_eq_some_iff.mp taken
      exact .transition moved
  | claim session owner now =>
      obtain ⟨idle, stepped⟩ := Option.ite_none_right_eq_some.mp taken
      obtain ⟨⟨claim, row⟩, claimed, rfl⟩ := Option.map_eq_some_iff.mp stepped
      exact .claim idle claimed
  | load session =>
      simp only [step] at taken
      split at taken
      · rename_i at_
        obtain ⟨active, loaded, same⟩ := Option.map_eq_some_iff.mp taken
        cases active with
        | none => exact same ▸ .moved at_ (.load loaded)
        | some attempt => exact same ▸ .moved at_ (.loadActive loaded)
      · cases taken
  | snapshot session =>
      simp only [step] at taken
      split at taken
      · rename_i at_
        obtain ⟨same, stepped⟩ := Option.ite_none_right_eq_some.mp taken
        exact Option.some.inj stepped ▸ .moved at_ (.snapshot same)
      · cases taken
  | releaseStale session now =>
      simp only [step] at taken
      split at taken
      · rename_i at_
        exact .writeRow (at_ ▸ rfl) (fun _ => releaseStaleUnpreparedClaim_eq_some) taken
      · rename_i at_
        exact .writeRow (at_ ▸ rfl) (fun _ => releaseStaleUnpreparedClaim_eq_some) taken
      · cases taken
  | deferRead session errorClass now =>
      simp only [step] at taken
      split at taken
      · rename_i at_
        exact .writeRow (at_ ▸ rfl) (fun _ => deferUnpreparedReadFailure_eq_some) taken
      · rename_i at_
        exact .writeRow (at_ ▸ rfl) (fun _ => deferUnpreparedReadFailure_eq_some) taken
      · cases taken
  | identify session found fields =>
      simp only [step] at taken
      split at taken
      · rename_i at_
        split at taken
        · obtain ⟨-, stepped⟩ := Option.ite_none_right_eq_some.mp taken
          exact Option.some.inj stepped ▸ .moved at_ (.identify fun _ => rfl)
        · exact Option.some.inj taken ▸ .moved at_ (.identify fun _ => rfl)
        · rename_i unsaved
          exact Option.some.inj taken ▸ .moved at_ (.identify fun saved => by
            rw [unsaved] at saved
            cases saved)
      · cases taken
  | prepare session =>
      simp only [step] at taken
      split at taken
      · rename_i at_
        obtain ⟨⟨saved, store⟩, prepared, rfl⟩ := Option.map_eq_some_iff.mp taken
        exact .prepare at_ prepared
      · cases taken
  | resume session =>
      simp only [step] at taken
      split at taken
      · rename_i at_
        split at taken
        · rename_i prepared
          exact Option.some.inj taken ▸ .moved at_ (.resume prepared)
        · rename_i succeeded
          obtain ⟨remoteId, -, same⟩ := Option.map_eq_some_iff.mp taken
          exact same ▸ .moved at_ (.resumeRead succeeded)
        · cases taken
      · cases taken
  | deferGate session now =>
      simp only [step] at taken
      split at taken
      · rename_i at_
        exact .write (at_ ▸ rfl) (fun _ => deferPreparedForClosedGate_eq_some) taken
      · cases taken
  | revalidate session found =>
      simp only [step] at taken
      split at taken
      · rename_i at_
        obtain ⟨-, stepped⟩ := Option.ite_none_right_eq_some.mp taken
        exact Option.some.inj stepped ▸ .moved at_ .revalidate
      · cases taken
  | mark session =>
      simp only [step] at taken
      split at taken
      · rename_i at_
        obtain ⟨⟨marked, store⟩, dispatched, rfl⟩ := Option.map_eq_some_iff.mp taken
        exact .mark at_ dispatched
      · cases taken
  | closeGate session =>
      simp only [step] at taken
      split at taken
      · rename_i at_
        exact Option.some.inj taken ▸ .moved at_ .closeGate
      · cases taken
  | send session =>
      simp only [step] at taken
      split at taken
      · rename_i at_
        split at taken
        · rename_i review
          obtain ⟨remoteId, -, same⟩ := Option.map_eq_some_iff.mp taken
          exact same ▸ .moved at_ (.keepReview review.1)
        · exact Option.some.inj taken ▸ .moved at_ .send
      · cases taken
  | lands attemptId =>
      obtain ⟨⟨sent, unrefused, unseen, create⟩, stepped⟩ :=
        Option.ite_none_right_eq_some.mp taken
      exact Option.some.inj stepped ▸ .lands sent unrefused unseen create
  | acknowledge session remoteId =>
      simp only [step] at taken
      split at taken
      · rename_i at_
        obtain ⟨-, stepped⟩ := Option.ite_none_right_eq_some.mp taken
        exact Option.some.inj stepped ▸ .moved at_ .acknowledge
      · cases taken
  | fault session =>
      simp only [step] at taken
      split at taken
      · rename_i at_
        obtain ⟨unseen, stepped⟩ := Option.ite_none_left_eq_some.mp taken
        exact Option.some.inj stepped ▸ .moved at_ (.fault unseen)
      · cases taken
  | lose session =>
      simp only [step] at taken
      split at taken
      · rename_i at_
        exact Option.some.inj taken ▸ .moved at_ .lose
      · cases taken
  | resolve session remoteId =>
      simp only [step] at taken
      split at taken
      · rename_i at_
        obtain ⟨-, stepped⟩ := Option.ite_none_right_eq_some.mp taken
        exact Option.some.inj stepped ▸ .moved at_ .resolve
      · cases taken
  | succeed session =>
      simp only [step] at taken
      split at taken
      · rename_i at_
        obtain ⟨⟨succeeded, store⟩, recorded, rfl⟩ := Option.map_eq_some_iff.mp taken
        exact .succeed at_ recorded
      · cases taken
  | readBack session manifest =>
      simp only [step] at taken
      split at taken
      · rename_i at_
        obtain ⟨rfl, stepped⟩ := Option.ite_none_right_eq_some.mp taken
        exact Option.some.inj stepped ▸ .moved at_ .readBack
      · cases taken
  | scheduleReadback session now =>
      simp only [step] at taken
      split at taken
      · rename_i at_
        exact .write (at_ ▸ rfl) (fun _ => scheduleReadback_eq_some) taken
      · cases taken
  | settle session now =>
      simp only [step] at taken
      split at taken
      · rename_i at_
        obtain ⟨store, settled, rfl⟩ := Option.map_eq_some_iff.mp taken
        exact .settle at_ settled
      · cases taken
  | failDefinitely session errorClass now =>
      simp only [step] at taken
      split at taken
      · rename_i at_
        obtain ⟨store, failed, rfl⟩ := Option.map_eq_some_iff.mp taken
        exact .fail (.inl at_) failed
      · rename_i at_
        obtain ⟨store, failed, rfl⟩ := Option.map_eq_some_iff.mp taken
        exact .fail (.inr at_) failed
      · cases taken
  | quarantine session reason now =>
      obtain ⟨⟨claim, attempt⟩, carried, stepped⟩ := Option.bind_eq_some_iff.mp taken
      obtain ⟨store, stopped, rfl⟩ := Option.map_eq_some_iff.mp stepped
      exact .quarantine (Phase.claim_of_work carried) carried stopped
  | recover now =>
      obtain ⟨store, recovered, rfl⟩ := Option.map_eq_some_iff.mp taken
      exact .recover recovered
  | dispose attemptId disposition confirmed now =>
      obtain ⟨⟨record, store⟩, disposed, rfl⟩ := Option.map_eq_some_iff.mp taken
      exact .dispose disposed
  | preAttemptRelease now =>
      obtain ⟨row, released, rfl⟩ := Option.map_eq_some_iff.mp taken
      exact .preAttemptRelease released
  | reviewRead session taskId =>
      obtain ⟨⟨idle, followed, -⟩, stepped⟩ := Option.ite_none_right_eq_some.mp taken
      obtain ⟨remoteId, -, same⟩ := Option.map_eq_some_iff.mp stepped
      exact same ▸ .moved idle (.reviewRead followed)
  | reviewClaim session owner expiresAt now =>
      simp only [step] at taken
      split at taken
      · rename_i at_
        obtain ⟨⟨claimed, row⟩, borrowed, rfl⟩ := Option.map_eq_some_iff.mp taken
        exact .reviewClaim at_ borrowed
      · cases taken
  | reviewRelease session =>
      simp only [step] at taken
      split at taken
      · rename_i at_
        obtain ⟨row, released, rfl⟩ := Option.map_eq_some_iff.mp taken
        exact .reviewRelease at_ released
      · cases taken
  | reviewAttention session code now =>
      simp only [step] at taken
      split at taken
      · rename_i at_
        obtain ⟨row, recorded, rfl⟩ := Option.map_eq_some_iff.mp taken
        exact .reviewAttention at_ recorded
      · cases taken
  | adopt session review =>
      simp only [step] at taken
      split at taken
      · rename_i at_
        obtain ⟨record, moved, stepped⟩ := Option.bind_eq_some_iff.mp taken
        obtain ⟨row, adopted, rfl⟩ := Option.map_eq_some_iff.mp stepped
        exact .adopt at_ moved adopted
      · cases taken

end Step

end PlantManager.Feedback.Sync

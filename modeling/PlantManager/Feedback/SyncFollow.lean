import PlantManager.Feedback.SyncOutcome

/-! # The outbox of Odoo improvements follows the record

`Feedback.Sync.Mirrored` says that the row wants the version of the record, and that
a settled version was read back from Odoo, or adopted, as it is. Every step keeps it but the
operator's that asks for a new version of the outbox alone
(`Feedback.Sync.Mirrored.step`).
-/

namespace PlantManager.Feedback.Sync

open PlantManager.Transition

variable {S : Type*}

/-- What a version says of the lifecycle. -/
structure Content where
  version : ℕ
  behavior : Behavior
  review : Review

def Attempt.content (attempt : Attempt) : Content :=
  ⟨attempt.projectionVersion, attempt.manifest.behavior, attempt.manifest.review⟩

/-- What a session is about to send, or has sent. -/
def Phase.content : Phase → Option Content
  | .projected claim behavior review => some ⟨claim.desiredVersion, behavior, review⟩
  | .preparing claim _ _ manifest =>
      some ⟨claim.desiredVersion, manifest.behavior, manifest.review⟩
  | phase => phase.attempt.map Attempt.content

/-- The attempt of a session that read it back. -/
def Phase.confirmed : Phase → Option Attempt
  | .readBack _ attempt _ => some attempt
  | _ => none

/-- The session works on a review. -/
def Phase.reviews : Phase → Bool
  | .reviewRead _ => true
  | .reviewing _ => true
  | _ => false

/-- The content was read from the record. -/
def Content.Samples (content : Content) (record : Record) : Prop :=
  content.version ≤ record.projectionVersion ∧ (content.version = record.projectionVersion →
    content.behavior = record.behavior ∧ content.review = record.review)

theorem Content.Samples.mono {content : Content} {record changed : Record}
    (samples : content.Samples record) (precedes : record.Precedes changed) :
    content.Samples changed := by
  obtain ⟨-, rfl | later⟩ := precedes
  · exact samples
  · exact ⟨Nat.le_of_lt (Nat.lt_of_le_of_lt samples.1 later), fun same =>
      absurd (same ▸ samples.1) (Nat.not_le_of_lt later)⟩

/-- The version of the record was read back from Odoo, or adopted, with this content. -/
def Shown (history : List (Event S)) (record : Record) : Prop :=
  (∃ manifest, .verified record.projectionVersion manifest ∈ history ∧
    manifest.behavior = record.behavior ∧ manifest.review = record.review) ∨
  .adopted record.projectionVersion record.review ∈ history

theorem Shown.mono {history later : List (Event S)} {record : Record}
    (shown : Shown history record) (kept : ∀ event ∈ history, event ∈ later) :
    Shown later record := by
  rcases shown with ⟨manifest, member, same⟩ | member
  · exact .inl ⟨manifest, kept _ member, same⟩
  · exact .inr (kept _ member)

/-- What a session knows of the record. -/
structure Phase.Mirrors (record : Record) (history : List (Event S)) (phase : Phase) : Prop where
  claims : ∀ claim, phase.claim = some claim → claim.desiredVersion ≤ record.projectionVersion
  carried : ∀ content, phase.content = some content → content.Samples record
  told : ∀ attempt, phase.confirmed = some attempt →
    .verified attempt.projectionVersion attempt.manifest ∈ history
  followed : phase.reviews → record.behavior = .review

def Store.Samples (store : Store) (record : Record) : Prop :=
  ∀ attemptId attempt, store.attempts attemptId = some attempt → attempt.content.Samples record

theorem Store.Samples.mark {store : Store} {record : Record} {attempt : Attempt}
    (samples : store.Samples record) (own : attempt.content.Samples record) :
    (store.mark attempt).Samples record := by
  intro attemptId saved found
  by_cases same : attemptId = attempt.attemptId
  · rw [same, store.mark_attempts_self] at found
    exact Option.some.inj found ▸ own
  · rw [store.mark_attempts_of_ne _ same] at found
    exact samples attemptId saved found

theorem Store.Samples.congr {store other : Store} {record : Record} (samples : other.Samples record)
    (attempts : store.attempts = other.attempts) : store.Samples record :=
  fun attemptId attempt found => samples attemptId attempt (attempts ▸ found)

structure Mirrored (state : State S) : Prop where
  desired : state.store.row.desiredVersion = state.record.projectionVersion
  synced : state.store.row.lastSyncedVersion ≤ state.store.row.desiredVersion
  settled : state.store.row.lastSyncedVersion = state.store.row.desiredVersion →
    Shown state.history state.record
  saved : state.store.Samples state.record
  sessions : ∀ session, (state.sessions session).Mirrors state.record state.history

theorem mirrored_initial (behavior : Behavior) (now : ℤ) :
    Mirrored (State.initial S behavior now) := by
  refine ⟨rfl, Nat.zero_le _, fun same => absurd same Nat.zero_ne_one, ?_, fun session => ?_⟩
  · intro attemptId attempt found
    cases found
  constructor <;>
    simp [State.initial, Phase.claim, Phase.content, Phase.attempt, Phase.confirmed, Phase.reviews]

namespace Phase.Mirrors

variable {record changed : Record} {history later : List (Event S)} {phase : Phase}

theorem mono (mirrors : phase.Mirrors record history) (precedes : record.Precedes changed)
    (kept : ∀ event ∈ history, event ∈ later) : phase.Mirrors changed later where
  claims claim held := Nat.le_trans (mirrors.claims claim held) precedes.le
  carried content same := (mirrors.carried content same).mono precedes
  told attempt confirmed := kept _ (mirrors.told attempt confirmed)
  followed reviews := precedes.1.trans (mirrors.followed reviews)

theorem idle : Phase.idle.Mirrors record history := by
  constructor <;>
    simp [Phase.claim, Phase.content, Phase.attempt, Phase.confirmed, Phase.reviews]

/-- A session that keeps its claim and learns nothing new of the record. -/
theorem pass (mirrors : phase.Mirrors record history) {next : Phase}
    (claim : next.claim = phase.claim)
    (content : next.content = none ∨ next.content = phase.content)
    (confirmed : next.confirmed = none) (reviews : next.reviews = false) :
    next.Mirrors record history where
  claims held same := mirrors.claims held (claim ▸ same)
  carried read same := by
    rcases content with none | kept
    · rw [none] at same
      cases same
    · exact mirrors.carried read (kept ▸ same)
  told attempt same := by
    rw [confirmed] at same
    cases same
  followed same := by
    rw [reviews] at same
    cases same

end Phase.Mirrors

/-- What a session knows after a step that leaves the record and the row alone. -/
theorem Moves.mirrors {state : State S} {phase later : Phase} {events : List (Event S)}
    (moves : Moves state phase later events) (saved : state.store.Samples state.record)
    (mirrors : phase.Mirrors state.record state.history) :
    later.Mirrors state.record (events ++ state.history) := by
  have kept : phase.Mirrors state.record (events ++ state.history) :=
    mirrors.mono ⟨rfl, .inl rfl⟩ fun _ => List.mem_append_right _
  cases moves with
  | load loaded => exact kept.pass rfl (.inl rfl) rfl rfl
  | @loadActive claim attempt loaded =>
      obtain ⟨-, -, ⟨same, -⟩ | ⟨attemptId, loaded, same, -, found⟩⟩ :=
        loadActiveAttempt_eq_some loaded
      · cases same
      · obtain rfl := Option.some.inj same
        exact {
          claims := kept.claims
          carried := by
            rintro _ ⟨⟩
            exact saved attemptId attempt found
          told := fun _ same => by cases same
          followed := fun same => by cases same }
  | snapshot same =>
      exact {
        claims := kept.claims
        carried := by
          rintro _ ⟨⟩
          exact ⟨Nat.le_of_eq same.symm, fun _ => ⟨rfl, rfl⟩⟩
        told := fun _ same => by cases same
        followed := fun same => by cases same }
  | identify saved | resume prepared | resumeRead succeeded | revalidate | closeGate
  | keepReview update | send | acknowledge | fault unseen | lose
  | resolve => exact kept.pass rfl (.inr rfl) rfl rfl
  | readBack =>
      exact {
        claims := kept.claims
        carried := kept.carried
        told := by
          rintro _ ⟨⟩
          exact List.mem_cons_self
        followed := fun same => by cases same }
  | reviewRead followed =>
      exact {
        claims := fun _ same => by cases same
        carried := fun _ same => by cases same
        told := fun _ same => by cases same
        followed := fun _ => followed }

/-! ## Steps -/

section Step

variable [DecidableEq S] {state next : State S} {action : Action S}

theorem forall_become {session : S} {phase : Phase} {holds : Phase → Prop} (own : holds phase)
    (others : ∀ other, holds (state.sessions other)) (other : S) :
    holds ((state.become session phase).sessions other) :=
  (Function.forall_update_iff state.sessions fun _ => holds).mpr
    ⟨own, fun other _ => others other⟩ other

/-- An operator asks for a new version of the outbox alone. -/
def Action.supersedes : Action S → Bool
  | .dispose _ .supersedeAndRetry _ _ => true
  | _ => false

namespace Mirrored

omit [DecidableEq S] in
/-- A step that leaves the record and the versions of the row alone. -/
theorem keep (mirrored : Mirrored state) (record : next.record = state.record)
    (desired : next.store.row.desiredVersion = state.store.row.desiredVersion)
    (synced : next.store.row.lastSyncedVersion = state.store.row.lastSyncedVersion)
    (history : ∀ event ∈ state.history, event ∈ next.history)
    (saved : next.store.Samples state.record)
    (sessions : ∀ session, (next.sessions session).Mirrors state.record next.history) :
    Mirrored next where
  desired := by rw [desired, record, mirrored.desired]
  synced := by
    rw [desired, synced]
    exact mirrored.synced
  settled := by
    rw [desired, synced, record]
    exact fun same => (mirrored.settled same).mono history
  saved := record ▸ saved
  sessions := record ▸ sessions

omit [DecidableEq S] in
theorem others (mirrored : Mirrored state) {history : List (Event S)}
    (kept : ∀ event ∈ state.history, event ∈ history) (session : S) :
    (state.sessions session).Mirrors state.record history :=
  (mirrored.sessions session).mono ⟨rfl, .inl rfl⟩ kept

omit [DecidableEq S] in
theorem locked (mirrored : Mirrored state) {claim : Claim} {attempt locked : Attempt}
    {expected : List AttemptState}
    (owned : lockOwnedAttempt claim attempt expected state.store = some locked) :
    locked.content.Samples state.record :=
  mirrored.saved attempt.attemptId locked (lockOwnedAttempt_eq_some owned).1

omit [DecidableEq S] in
/-- Another state of an attempt does not change what it says. -/
theorem mark (mirrored : Mirrored state) {claim : Claim} {attempt locked changed : Attempt}
    {expected : List AttemptState}
    (owned : lockOwnedAttempt claim attempt expected state.store = some locked)
    (same : changed.content = locked.content) :
    (state.store.mark changed).Samples state.record :=
  mirrored.saved.mark (same ▸ mirrored.locked owned)

omit [DecidableEq S] in
/-- A step to another version of the record, which the row wants. -/
theorem advance (mirrored : Mirrored state) (precedes : state.record.Precedes next.record)
    (desired : next.store.row.desiredVersion = next.record.projectionVersion)
    (synced : next.store.row.lastSyncedVersion ≤ next.store.row.desiredVersion)
    (settled : next.store.row.lastSyncedVersion = next.store.row.desiredVersion →
      Shown next.history next.record)
    (attempts : next.store.attempts = state.store.attempts)
    (history : ∀ event ∈ state.history, event ∈ next.history)
    (sessions : ∀ session, next.sessions session = state.sessions session ∨
      next.sessions session = .idle) : Mirrored next where
  desired := desired
  synced := synced
  settled := settled
  saved attemptId attempt found :=
    (mirrored.saved attemptId attempt (attempts ▸ found)).mono precedes
  sessions session := by
    rcases sessions session with same | idle
    · rw [same]
      exact (mirrored.sessions session).mono precedes history
    · rw [idle]
      exact .idle

theorem step (mirrored : Mirrored state) (alone : action.supersedes = false)
    (taken : step state action = some next) : Mirrored next := by
  cases step_outcome taken with
  | @transition change now record moved =>
      have version := (Record.transition_eq moved).2.2.2
      have behind : state.store.row.lastSyncedVersion < record.projectionVersion := by
        rw [version]
        exact Nat.lt_succ_of_le (mirrored.desired ▸ mirrored.synced)
      exact mirrored.advance (Record.precedes_transition moved) rfl (Nat.le_of_lt behind)
        (fun same => absurd same (Nat.ne_of_lt behind)) rfl (fun _ => id) fun _ => .inl rfl
  | claim idle claimed =>
      obtain ⟨-, rfl, rfl⟩ := claimDue_eq_some claimed
      refine mirrored.keep rfl rfl rfl (fun _ => List.mem_cons_of_mem _) mirrored.saved ?_
      refine forall_become ?_ (mirrored.others fun _ => List.mem_cons_of_mem _)
      exact {
        claims := by
          rintro _ ⟨⟩
          exact Nat.le_of_eq mirrored.desired
        carried := fun _ same => by cases same
        told := fun _ same => by cases same
        followed := fun same => by cases same }
  | @move _ session phase events moves =>
      refine mirrored.keep rfl rfl rfl (fun _ => List.mem_append_right _) mirrored.saved ?_
      exact forall_become (moves.mirrors mirrored.saved (mirrored.sessions session))
        (mirrored.others fun _ => List.mem_append_right _)
  | lands =>
      exact mirrored.keep rfl rfl rfl (fun _ => id) mirrored.saved (mirrored.others fun _ => id)
  | release held holds idle keeps =>
      exact mirrored.keep rfl keeps.desired keeps.synced (fun _ => id) mirrored.saved
        (forall_become .idle (mirrored.others fun _ => id))
  | @prepare session claim kind remoteId manifest saved store preparing prepared =>
      obtain ⟨-, -, rfl, rfl⟩ := prepareAttempt_eq_some prepared
      have mirrors := mirrored.sessions session
      rw [preparing] at mirrors
      have own := mirrors.carried _ rfl
      refine mirrored.keep rfl rfl rfl (fun _ => id) (mirrored.saved.mark own) ?_
      refine forall_become ?_ (mirrored.others fun _ => id)
      exact {
        claims := mirrors.claims
        carried := by
          rintro _ ⟨⟩
          exact own
        told := fun _ same => by cases same
        followed := fun same => by cases same }
  | @mark session claim attempt marked store revalidated dispatched =>
      obtain ⟨locked, owned, rfl, rfl⟩ := markDispatch_eq_some dispatched
      have mirrors := mirrored.sessions session
      rw [revalidated] at mirrors
      have said := mirrored.locked owned
      refine mirrored.keep rfl rfl rfl (fun _ => List.mem_cons_of_mem _)
        (mirrored.mark owned rfl) ?_
      refine forall_become ?_ (mirrored.others fun _ => List.mem_cons_of_mem _)
      exact {
        claims := mirrors.claims
        carried := by
          rintro _ ⟨⟩
          exact said
        told := fun _ same => by cases same
        followed := fun same => by cases same }
  | @succeed session claim attempt succeeded remoteId store acknowledged recorded =>
      obtain ⟨locked, owned, rfl, rfl⟩ := markRpcSucceeded_eq_some recorded
      have mirrors := mirrored.sessions session
      rw [acknowledged] at mirrors
      have said := mirrored.locked owned
      refine mirrored.keep rfl rfl rfl (fun _ => id) (mirrored.mark owned rfl) ?_
      refine forall_become ?_ (mirrored.others fun _ => id)
      exact {
        claims := mirrors.claims
        carried := by
          rintro _ ⟨⟩
          exact said
        told := fun _ same => by cases same
        followed := fun same => by cases same }
  | @settle session now claim attempt remoteId store read settled =>
      obtain ⟨locked, row, owned, rfl, -, synced, desired, -⟩ := settleVerified_eq_some settled
      have mirrors := mirrored.sessions session
      rw [read] at mirrors
      have sampled := mirrors.carried _ rfl
      exact {
        desired := desired.trans mirrored.desired
        synced := by
          rw [synced, desired, mirrored.desired]
          exact sampled.1
        settled := fun same => by
          have version : attempt.projectionVersion = state.record.projectionVersion :=
            synced.symm.trans (same.trans (desired.trans mirrored.desired))
          exact .inl ⟨attempt.manifest, version ▸ mirrors.told attempt rfl, sampled.2 version⟩
        saved := mirrored.mark owned rfl
        sessions := forall_become .idle (mirrored.others fun _ => id) }
  | @fail session errorClass now claim attempt store refused failed =>
      obtain ⟨locked, row, owned, rfl, synced, desired, -⟩ := recordDefinitiveFailure_eq_some failed
      refine mirrored.keep rfl desired synced (fun _ => List.mem_append_right _)
        (mirrored.mark owned rfl) ?_
      exact forall_become .idle (mirrored.others fun _ => List.mem_append_right _)
  | @quarantine session reason now claim attempt store held carried stopped =>
      obtain ⟨-, -, keeps, attempts⟩ := quarantine_eq_some stopped
      have saved : store.Samples state.record := by
        rcases attempts with ⟨-, same⟩ | ⟨held, locked, -, owned, same⟩
        · exact mirrored.saved.congr same
        · refine Store.Samples.congr ?_ same
          exact mirrored.mark owned rfl
      exact mirrored.keep rfl keeps.desired keeps.synced (fun _ => List.mem_cons_of_mem _) saved
        (forall_become .idle (mirrored.others fun _ => List.mem_cons_of_mem _))
  | @recover now store recovered =>
      obtain ⟨-, -, -, keeps, attempts⟩ := recoverExpiredClaims_eq_some recovered
      have saved : store.Samples state.record := by
        rcases attempts with ⟨-, same, -⟩ | ⟨attemptId, attempt, -, found, -, -, same⟩
        · exact mirrored.saved.congr same
        · refine Store.Samples.congr ?_ same
          have own := mirrored.saved attemptId attempt found
          exact mirrored.saved.mark own
      exact mirrored.keep rfl keeps.desired keeps.synced (fun _ => List.mem_append_right _) saved
        (mirrored.others fun _ => List.mem_append_right _)
  | @dispose attemptId disposition confirmed now record store disposed =>
      obtain ⟨-, -, attempts, ⟨-, rfl, rfl⟩ | ⟨-, rfl, same, -⟩ | ⟨rfl, -⟩⟩ :=
        applyQuarantineDisposition_eq_some disposed
      · exact mirrored.keep rfl rfl rfl (fun _ => List.mem_append_right _) mirrored.saved
          (mirrored.others fun _ => List.mem_append_right _)
      · refine mirrored.keep rfl (by rw [same]; rfl) (by rw [same]; rfl)
          (fun _ => List.mem_append_right _) ?_ (mirrored.others fun _ => List.mem_append_right _)
        exact mirrored.saved.congr attempts
      · cases alone
  | preAttemptRelease released =>
      obtain ⟨-, -, -, keeps⟩ := releasePreAttemptQuarantine_eq_some released
      exact mirrored.keep rfl keeps.desired keeps.synced (fun _ => List.mem_cons_of_mem _)
        mirrored.saved (mirrored.others fun _ => List.mem_cons_of_mem _)
  | @reviewClaim session owner expiresAt now candidate claimed row read borrowed =>
      obtain ⟨-, -, rfl, rfl⟩ := claimReviewCandidate_eq_some borrowed
      have mirrors := mirrored.sessions session
      rw [read] at mirrors
      refine mirrored.keep rfl rfl rfl (fun _ => id) mirrored.saved ?_
      refine forall_become ?_ (mirrored.others fun _ => id)
      exact {
        claims := fun _ same => by cases same
        carried := fun _ same => by cases same
        told := fun _ same => by cases same
        followed := fun _ => mirrors.followed rfl }
  | reviewRelease reviewing released =>
      obtain ⟨-, -, -, -, rfl⟩ := releaseReviewCandidate_eq_some released
      exact mirrored.keep rfl rfl rfl (fun _ => id) mirrored.saved
        (forall_become .idle (mirrored.others fun _ => id))
  | reviewAttention reviewing recorded =>
      obtain ⟨-, -, keeps⟩ := recordReviewAttention_eq_some recorded
      exact mirrored.keep rfl keeps.desired keeps.synced (fun _ => List.mem_cons_of_mem _)
        mirrored.saved (forall_become .idle (mirrored.others fun _ => List.mem_cons_of_mem _))
  | @adopt session review candidate record row reviewing moved adopted =>
      obtain ⟨-, -, desired, synced, -⟩ := adoptSync_eq_some adopted
      refine mirrored.advance (Record.precedes_adopt moved) desired
        (Nat.le_of_eq (synced.trans desired.symm))
        (fun _ => .inr (List.mem_cons_of_mem _ List.mem_cons_self)) rfl
        (fun _ member => List.mem_cons_of_mem _ (List.mem_cons_of_mem _ member)) fun other => ?_
      by_cases own : other = session
      · exact .inr (own ▸ Function.update_self ..)
      · exact .inl (Function.update_of_ne own ..)

end Mirrored

end Step

end PlantManager.Feedback.Sync

import PlantManager.Feedback.TaskOutcome

/-! # The outbox of owner tasks follows the record

`Feedback.TaskWorker.Followed` says that the row wants the version of the record,
and that a settled version was verified, linked or adopted as it is. Every step keeps it
(`Feedback.TaskWorker.Followed.step`), as long as a worker that is about to write
the fields of a task finds no later version when it renews its claim.
-/

namespace PlantManager.Feedback.TaskWorker

open PlantManager.Transition

variable {S : Type*}

def Phase.snapshot : Phase → Option Snapshot
  | .finding _ snapshot => some snapshot
  | .creating _ snapshot => some snapshot
  | .created _ snapshot => some snapshot
  | .attaching _ snapshot => some snapshot
  | .uploading _ snapshot => some snapshot
  | .uploaded _ snapshot => some snapshot
  | .reconciling _ snapshot => some snapshot
  | .checked _ snapshot => some snapshot
  | .outdated _ snapshot _ => some snapshot
  | .updating _ snapshot _ => some snapshot
  | .searching _ snapshot _ => some snapshot
  | .noteMissing _ snapshot _ => some snapshot
  | .posting _ snapshot _ _ => some snapshot
  | .recovering _ snapshot _ => some snapshot
  | .verifying _ snapshot _ => some snapshot
  | .verified _ snapshot => some snapshot
  | _ => none

/-- A claim that was compared with its snapshot. -/
def Phase.compared : Phase → Option (TaskDeliveryClaim × Snapshot)
  | .checked claim snapshot => some (claim, snapshot)
  | .outdated claim snapshot _ => some (claim, snapshot)
  | .updating claim snapshot _ => some (claim, snapshot)
  | .searching claim snapshot _ => some (claim, snapshot)
  | .noteMissing claim snapshot _ => some (claim, snapshot)
  | .posting claim snapshot _ _ => some (claim, snapshot)
  | .recovering claim snapshot _ => some (claim, snapshot)
  | .verifying claim snapshot _ => some (claim, snapshot)
  | .verified claim snapshot => some (claim, snapshot)
  | _ => none

/-- The claim of a session that is about to write the fields of its task. -/
def Phase.outdatedClaim : Phase → Option TaskDeliveryClaim
  | .outdated claim _ _ => some claim
  | _ => none

/-- The snapshot of a session that looks for the result note. -/
def Phase.noting : Phase → Option Snapshot
  | .searching _ snapshot _ => some snapshot
  | .noteMissing _ snapshot _ => some snapshot
  | _ => none

/-- The snapshot of a session that found it in Odoo. -/
def Phase.found : Phase → Option Snapshot
  | .verified _ snapshot => some snapshot
  | _ => none

def Action.adopts : Action S → Bool
  | .adopt _ _ _ _ => true
  | _ => false

def Action.renewer : Action S → Option S
  | .renew session _ => some session
  | _ => none

/-- A worker that renews its claim to write the fields finds that the row still wants the version
of the claim. -/
def RenewsCompared (state : State S) (action : Action S) : Prop :=
  ∀ session ∈ action.renewer, ∀ claim ∈ (state.sessions session).outdatedClaim,
    state.row.desiredVersion = claim.desiredVersion

instance (state : State S) (action : Action S) : Decidable (RenewsCompared state action) :=
  inferInstanceAs (Decidable (∀ session ∈ action.renewer, _))

/-- The version was verified in Odoo, linked or adopted with this status. -/
def Told (history : List (Event S)) (version : ℕ) (status : Status) : Prop :=
  (∃ stageId remote, remote.Agrees status stageId ∧
    .verified version status stageId remote ∈ history) ∨
  .linked version status ∈ history ∨ .adopted version status ∈ history

theorem Told.mono {history later : List (Event S)} {version : ℕ} {status : Status}
    (told : Told history version status) (kept : ∀ event ∈ history, event ∈ later) :
    Told later version status := by
  rcases told with ⟨stageId, remote, agrees, member⟩ | member | member
  · exact .inl ⟨stageId, remote, agrees, kept _ member⟩
  · exact .inr (.inl (kept _ member))
  · exact .inr (.inr (kept _ member))

/-- The snapshot was read from the record. -/
structure Snapshot.Samples (snapshot : Snapshot) (record : Record) : Prop where
  behavior : snapshot.behavior = record.behavior
  past : snapshot.projectionVersion ≤ record.projectionVersion
  content : snapshot.projectionVersion = record.projectionVersion →
    snapshot.status = record.status
  final : snapshot.behavior = .coding → snapshot.status.Terminal →
    snapshot.projectionVersion = record.projectionVersion

theorem Snapshot.Samples.transition {snapshot : Snapshot} {record changed : Record}
    {change : Change} {now : ℤ} (samples : snapshot.Samples record)
    (moved : record.transition change now = some changed) : snapshot.Samples changed := by
  obtain ⟨-, behavior, -, version⟩ := Record.transition_eq moved
  exact {
    behavior := samples.behavior.trans behavior.symm
    past := by
      rw [version]
      exact Nat.le_succ_of_le samples.past
    content := fun same => by
      rw [version] at same
      exact absurd (same ▸ samples.past) (Nat.not_succ_le_self _)
    final := fun coding terminal => by
      have open_ := Record.transition_open moved
      rw [← samples.content (samples.final coding terminal)] at open_
      exact absurd terminal open_ }

theorem Snapshot.Samples.adopt {snapshot : Snapshot} {record changed : Record} {status : Status}
    {version : ℕ} {review : Review} (samples : snapshot.Samples record)
    (followed : record.behavior = .review)
    (moved : record.adopt status version review = some changed) : snapshot.Samples changed := by
  obtain ⟨behavior, -, rfl | version⟩ := Record.adopt_eq moved
  · exact samples
  · exact {
      behavior := samples.behavior.trans behavior.symm
      past := by
        rw [version]
        exact Nat.le_succ_of_le samples.past
      content := fun same => by
        rw [version] at same
        exact absurd (same ▸ samples.past) (Nat.not_succ_le_self _)
      final := fun coding => by
        rw [samples.behavior, followed] at coding
        cases coding }

/-- What a session knows of the record. -/
structure Phase.Follows (state : State S) (phase : Phase) : Prop where
  fresh : ∀ claim, phase.claim = some claim → claim.claimToken < state.nextToken
  sampled : ∀ snapshot, phase.snapshot = some snapshot → snapshot.Samples state.record
  compared : ∀ claim snapshot, phase.compared = some (claim, snapshot) →
    snapshot.behavior = .coding → claim.desiredVersion = snapshot.projectionVersion
  terminal : ∀ snapshot, phase.noting = some snapshot → snapshot.status.Terminal
  told : ∀ snapshot, phase.found = some snapshot →
    Told state.history snapshot.projectionVersion snapshot.status
  /-- A review does not move while its row is in flight. -/
  current : state.record.behavior = .review → ∀ claim lease, phase.claim = some claim →
    state.row.state = .inFlight lease → lease.token = claim.claimToken →
      claim.desiredVersion = state.record.projectionVersion ∧
      ∀ snapshot, phase.snapshot = some snapshot →
        snapshot.projectionVersion = state.record.projectionVersion

structure Followed (state : State S) : Prop where
  desired : state.row.desiredVersion = state.record.projectionVersion
  status : state.row.desiredStatus = state.record.status
  synced : state.row.lastSyncedVersion ≤ state.row.desiredVersion
  settled : state.row.lastSyncedVersion = state.row.desiredVersion →
    Told state.history state.record.projectionVersion state.record.status
  sessions : ∀ session, (state.sessions session).Follows state

theorem followed_initial (behavior : Behavior) (hasBeforeImage : Bool) (now : ℤ) :
    Followed (State.initial S behavior hasBeforeImage now) := by
  refine ⟨rfl, rfl, Nat.zero_le _, nofun, fun session => ?_⟩
  constructor <;> simp [State.initial, Phase.claim, Phase.snapshot, Phase.compared, Phase.noting,
    Phase.found]

/-! ## Sessions -/

namespace Phase.Follows

variable {state next : State S} {phase : Phase}

theorem frame (follows : phase.Follows state) (nextToken : state.nextToken ≤ next.nextToken)
    (record : ∀ snapshot : Snapshot, snapshot.Samples state.record →
      snapshot.Samples next.record)
    (history : ∀ event ∈ state.history, event ∈ next.history)
    (current : next.record.behavior = .review → ∀ claim lease, phase.claim = some claim →
      next.row.state = .inFlight lease → lease.token = claim.claimToken →
        next.record = state.record ∧
          ∃ before, state.row.state = .inFlight before ∧ before.token = claim.claimToken) :
    phase.Follows next where
  fresh claim held := Nat.lt_of_lt_of_le (follows.fresh claim held) nextToken
  sampled snapshot read := record snapshot (follows.sampled snapshot read)
  compared := follows.compared
  terminal := follows.terminal
  told snapshot found := (follows.told snapshot found).mono history
  current followed claim lease held flying token := by
    obtain ⟨same, before, flies, token⟩ := current followed claim lease held flying token
    rw [same] at followed ⊢
    exact follows.current followed claim before held flies token

theorem idle : Phase.idle.Follows state := by
  constructor <;> simp [Phase.claim, Phase.snapshot, Phase.compared, Phase.noting,
    Phase.found]

/-- A session that keeps its claim. -/
theorem move (follows : phase.Follows state) {later : Phase} (claim : later.claim = phase.claim)
    (snapshot : later.snapshot = none ∨ later.snapshot = phase.snapshot)
    (compared : ∀ claim snapshot, later.compared = some (claim, snapshot) →
      snapshot.behavior = .coding → claim.desiredVersion = snapshot.projectionVersion)
    (terminal : ∀ snapshot, later.noting = some snapshot → snapshot.status.Terminal)
    (told : ∀ snapshot, later.found = some snapshot →
      Told state.history snapshot.projectionVersion snapshot.status) : later.Follows state := by
  have read : ∀ read, later.snapshot = some read → phase.snapshot = some read := by
    intro read same
    rcases snapshot with none | kept
    · rw [none] at same
      cases same
    · exact kept ▸ same
  exact {
    fresh := fun held same => follows.fresh held (claim.symm.trans same)
    sampled := fun other same => follows.sampled other (read other same)
    compared := compared
    terminal := terminal
    told := told
    current := by
      intro followed held lease same flying token
      obtain ⟨version, known⟩ :=
        follows.current followed held lease (claim.symm.trans same) flying token
      exact ⟨version, fun other same => known other (read other same)⟩ }

/-- A session that learns nothing new of the record. -/
theorem pass (follows : phase.Follows state) {later : Phase} (claim : later.claim = phase.claim)
    (snapshot : later.snapshot = none ∨ later.snapshot = phase.snapshot)
    (compared : later.compared = none ∨ later.compared = phase.compared)
    (noting : later.noting = none ∨ later.noting = phase.noting) (found : later.found = none) :
    later.Follows state := by
  refine follows.move claim snapshot ?_ ?_ ?_
  · intro held read same
    rcases compared with none | kept
    · rw [none] at same
      cases same
    · exact follows.compared held read (kept ▸ same)
  · intro read same
    rcases noting with none | kept
    · rw [none] at same
      cases same
    · exact follows.terminal read (kept ▸ same)
  · intro read same
    rw [found] at same
    cases same

theorem afterFields {claim : TaskDeliveryClaim} {snapshot : Snapshot} {stageId : ℕ}
    (follows : phase.Follows state) (compared : phase.compared = some (claim, snapshot))
    (held : phase.claim = some claim) (read : phase.snapshot = some snapshot) :
    (afterFields claim snapshot stageId).Follows state := by
  unfold TaskWorker.afterFields
  split
  · rename_i terminal
    refine follows.move held.symm (.inr read.symm) ?_ ?_ ?_
    · rintro _ _ ⟨⟩
      exact follows.compared claim snapshot compared
    · rintro _ ⟨⟩
      exact terminal
    · intro _ found
      cases found
  · exact follows.pass held.symm (.inr read.symm) (.inr compared.symm) (.inl rfl) rfl

/-- Only the record, the row, the tokens and the history matter. -/
theorem same (follows : phase.Follows state) (nextToken : next.nextToken = state.nextToken)
    (record : next.record = state.record) (row : next.row = state.row)
    (history : next.history = state.history) : phase.Follows next :=
  follows.frame (Nat.le_of_eq nextToken.symm) (fun _ => record ▸ id) (fun _ => history ▸ id)
    fun _ _ lease _ flying token => ⟨record, lease, row ▸ flying, token⟩

/-- A session whose claim takes over what the row wants. -/
theorem save (follows : phase.Follows state)
    (desired : state.row.desiredVersion = state.record.projectionVersion)
    {claim saved : TaskDeliveryClaim} {lease : Lease} {later : Phase} (record : next.record = state.record)
    (nextToken : next.nextToken = state.nextToken) (held : phase.claim = some claim)
    (flying : state.row.state = .inFlight lease) (token : lease.token = claim.claimToken)
    (kept : later.claim = some saved) (savedToken : saved.claimToken = claim.claimToken)
    (version : saved.desiredVersion = state.row.desiredVersion)
    (snapshot : later.snapshot = phase.snapshot)
    (compared : ∀ snapshot, later.compared = some (saved, snapshot) →
      snapshot.behavior = .coding → saved.desiredVersion = snapshot.projectionVersion)
    (noting : later.noting = none) (found : later.found = none)
    (carried : ∀ claim snapshot, later.compared = some (claim, snapshot) → claim = saved) :
    later.Follows next where
  fresh other same := by
    obtain rfl := Option.some.inj (kept.symm.trans same)
    rw [savedToken, nextToken]
    exact follows.fresh claim held
  sampled read same := record ▸ follows.sampled read (snapshot ▸ same)
  compared other read same := by
    obtain rfl := carried other read same
    exact compared read same
  terminal read same := by
    rw [noting] at same
    cases same
  told read same := by
    rw [found] at same
    cases same
  current followed other _ same _ _ := by
    obtain rfl := Option.some.inj (kept.symm.trans same)
    rw [record] at followed ⊢
    exact ⟨version.trans desired, fun read same =>
      (follows.current followed claim lease held flying token).2 read (snapshot ▸ same)⟩

end Phase.Follows

theorem Snapshot.samples_load (record : Record) (hasBeforeImage : Bool) :
    (loadSnapshot record hasBeforeImage).Samples record :=
  ⟨rfl, Nat.le_refl _, fun _ => rfl, fun _ _ => rfl⟩

/-- What a session knows after a step that leaves the record and the row alone. -/
theorem Moves.follows {state : State S} {phase later : Phase} {events : List (Event S)}
    (moves : Moves state phase later events) (follows : phase.Follows state) :
    later.Follows { state with history := events ++ state.history } := by
  have kept : phase.Follows { state with history := events ++ state.history } :=
    follows.frame (Nat.le_refl _) (fun _ => id) (fun _ => List.mem_append_right _)
      fun _ claim lease _ flying token => ⟨rfl, lease, flying, token⟩
  cases moves with
  | load =>
      exact {
        fresh := kept.fresh
        sampled := by
          rintro _ ⟨⟩
          exact Snapshot.samples_load _ _
        compared := fun _ _ same => by cases same
        terminal := fun _ same => by cases same
        told := fun _ same => by cases same
        current := by
          intro followed claim lease held flying token
          refine ⟨(kept.current followed claim lease held flying token).1, ?_⟩
          rintro _ ⟨⟩
          rfl }
  | findTask | passAttachment | created
  | uploaded => exact kept.pass rfl (.inr rfl) (.inl rfl) (.inl rfl) rfl
  | check same =>
      refine kept.move rfl (.inr rfl) ?_ (fun _ noting => by cases noting)
        fun _ found => by cases found
      rintro _ _ ⟨⟩ -
      exact same
  | link review =>
      refine kept.move rfl (.inr rfl) ?_ (fun _ noting => by cases noting) ?_
      · rintro _ _ ⟨⟩ coding
        rw [review] at coding
        cases coding
      · rintro _ ⟨⟩
        exact .inr (.inl List.mem_cons_self)
  | agrees | updated => exact kept.afterFields rfl rfl rfl
  | outdated | noteFound | recovered | posted
  | unsure => exact kept.pass rfl (.inr rfl) (.inr rfl) (.inl rfl) rfl
  | noteMissing missing => exact kept.pass rfl (.inr rfl) (.inr rfl) (.inr rfl) rfl
  | @verify claim snapshot stageId remote agrees =>
      refine kept.move rfl (.inr rfl) kept.compared (fun _ noting => by cases noting) ?_
      rintro _ ⟨⟩
      exact .inl ⟨stageId, remote, agrees, List.mem_cons_self⟩
  | fail held => exact kept.pass held.symm (.inl rfl) (.inl rfl) (.inl rfl) rfl

theorem Finds.snapshot {phase : Phase} {claim : TaskDeliveryClaim} {snapshot : Snapshot}
    (finds : Finds phase claim snapshot) : phase.snapshot = some snapshot := by
  cases finds <;> rfl

theorem Attaches.snapshot {phase : Phase} {claim : TaskDeliveryClaim} {snapshot : Snapshot}
    (attaches : Attaches phase claim snapshot) : phase.snapshot = some snapshot := by
  cases attaches <;> rfl

/-- What a session knows after it renewed its claim. A result is not moved any more, so a worker
that is about to post the note of one finds the version that it compared. -/
theorem Renews.follows {state next : State S} {phase : Phase} {claim saved : TaskDeliveryClaim}
    {later : TaskDeliveryClaim → Phase} {lease : Lease} (renews : Renews phase claim later)
    (follows : phase.Follows state)
    (desired : state.row.desiredVersion = state.record.projectionVersion)
    (compared : phase.outdatedClaim = some claim →
      state.row.desiredVersion = claim.desiredVersion)
    (record : next.record = state.record) (nextToken : next.nextToken = state.nextToken)
    (flying : state.row.state = .inFlight lease) (token : lease.token = claim.claimToken)
    (savedToken : saved.claimToken = claim.claimToken)
    (version : saved.desiredVersion = state.row.desiredVersion) : (later saved).Follows next := by
  cases renews with
  | creating untold | uploading =>
      exact follows.save desired record nextToken rfl flying token rfl savedToken version rfl
        (fun _ same => by cases same) rfl rfl (fun _ _ same => by cases same)
  | @updating _ snapshot =>
      refine follows.save desired record nextToken rfl flying token rfl savedToken version rfl
        ?_ rfl rfl ?_
      · rintro _ ⟨⟩ coding
        exact version.trans ((compared rfl).trans (follows.compared claim snapshot rfl coding))
      · rintro _ _ ⟨⟩
        rfl
  | @posting _ snapshot =>
      refine follows.save desired record nextToken rfl flying token rfl savedToken version rfl
        ?_ rfl rfl ?_
      · rintro _ ⟨⟩ coding
        have final := (follows.sampled snapshot rfl).final coding (follows.terminal snapshot rfl)
        exact version.trans (desired.trans final.symm)
      · rintro _ _ ⟨⟩
        rfl

/-! ## Steps -/

section Step

variable [DecidableEq S] {state next : State S} {action : Action S}

/-- Where the phases of the sessions are looked up after one of them moved. -/
theorem forall_become {session : S} {phase : Phase} {holds : Phase → Prop} (own : holds phase)
    (others : ∀ other, holds (state.sessions other)) (other : S) :
    holds ((state.become session phase).sessions other) :=
  (Function.forall_update_iff state.sessions fun _ => holds).mpr
    ⟨own, fun other _ => others other⟩ other

namespace Followed

omit [DecidableEq S] in
/-- A step that leaves the record and the versions of the row alone. -/
theorem keep (followed : Followed state) (record : next.record = state.record)
    (desired : next.row.desiredVersion = state.row.desiredVersion)
    (status : next.row.desiredStatus = state.row.desiredStatus)
    (synced : next.row.lastSyncedVersion = state.row.lastSyncedVersion)
    (history : ∀ event ∈ state.history, event ∈ next.history)
    (sessions : ∀ session, (next.sessions session).Follows next) : Followed next where
  desired := by rw [desired, record, followed.desired]
  status := by rw [status, record, followed.status]
  synced := by
    rw [desired, synced]
    exact followed.synced
  settled := by
    rw [desired, synced, record]
    exact fun same => (followed.settled same).mono history
  sessions := sessions

omit [DecidableEq S] in
/-- The sessions after a step that leaves the record alone, and the row without a new claim. -/
theorem others (followed : Followed state) (record : next.record = state.record)
    (nextToken : state.nextToken ≤ next.nextToken)
    (history : ∀ event ∈ state.history, event ∈ next.history)
    (row : ∀ lease, next.row.state = .inFlight lease → lease.token < state.nextToken →
      ∃ before, state.row.state = .inFlight before ∧ before.token = lease.token) (session : S) :
    (state.sessions session).Follows next := by
  refine (followed.sessions session).frame nextToken (fun _ => record ▸ id) history ?_
  intro _ claim lease held flying token
  obtain ⟨before, flies, same⟩ :=
    row lease flying (token ▸ (followed.sessions session).fresh claim held)
  exact ⟨record, before, flies, same.trans token⟩

/-- A worker that ends its claim. -/
theorem release (followed : Followed state) (session : S) (row : DeliveryRow)
    (desired : row.desiredVersion = state.row.desiredVersion)
    (status : row.desiredStatus = state.row.desiredStatus)
    (synced : row.lastSyncedVersion = state.row.lastSyncedVersion)
    (released : ∀ lease, row.state ≠ .inFlight lease) (events : List (Event S)) :
    Followed { state.become session .idle with
      row := row
      history := events ++ state.history } := by
  refine followed.keep rfl desired status synced (fun _ => List.mem_append_right _) ?_
  exact forall_become .idle (followed.others rfl (Nat.le_refl _)
    (fun _ => List.mem_append_right _) fun lease flying => absurd flying (released lease))

/-- A worker that writes to the row under its claim. -/
theorem write (followed : Followed state) {session : S} {phase : Phase} {row : DeliveryRow}
    {before after : Lease} (desired : row.desiredVersion = state.row.desiredVersion)
    (status : row.desiredStatus = state.row.desiredStatus)
    (synced : row.lastSyncedVersion = state.row.lastSyncedVersion)
    (flying : state.row.state = .inFlight before) (flies : row.state = .inFlight after)
    (token : after.token = before.token)
    (own : phase.Follows { state.become session phase with row := row }) :
    Followed { state.become session phase with row := row } := by
  refine followed.keep rfl desired status synced (fun _ => id) ?_
  refine forall_become own (followed.others rfl (Nat.le_refl _) (fun _ => id) ?_)
  intro lease same _
  obtain rfl := DeliveryState.inFlight.inj (flies.symm.trans same)
  exact ⟨before, flying, token.symm⟩

omit [DecidableEq S] in
/-- A worker settles the version of its snapshot. -/
theorem settles (followed : Followed state) {session : S} {claim : TaskDeliveryClaim}
    {snapshot : Snapshot} {lease : Lease}
    (verified : state.sessions session = .verified claim snapshot)
    (flying : state.row.state = .inFlight lease) (token : lease.token = claim.claimToken) :
    claim.desiredVersion = snapshot.projectionVersion := by
  have follows := followed.sessions session
  rw [verified] at follows
  cases behavior : snapshot.behavior with
  | coding => exact follows.compared claim snapshot rfl behavior
  | review =>
      have reviewed := (follows.sampled snapshot rfl).behavior.symm.trans behavior
      obtain ⟨version, read⟩ := follows.current reviewed claim lease rfl flying token
      exact version.trans (read snapshot rfl).symm

/-- The steps keep the row at the version of the record, and settle what they verified. -/
theorem step (followed : Followed state) (compared : RenewsCompared state action)
    (reviews : action.adopts → state.record.behavior = .review)
    (taken : step state action = some next) : Followed next := by
  cases step_outcome taken with
  | tick later =>
      exact followed.keep rfl rfl rfl rfl (fun _ => id)
        (followed.others rfl (Nat.le_refl _) (fun _ => id) fun lease flying _ =>
          ⟨lease, flying, rfl⟩)
  | transition past moved queued =>
      obtain ⟨desired, status, synced, -⟩ := enqueueLifecycle_eq_some queued
      obtain ⟨coding, behavior, -, version⟩ := Record.transition_eq moved
      have behind : state.row.lastSyncedVersion < state.record.projectionVersion + 1 :=
        Nat.lt_succ_of_le (followed.desired ▸ followed.synced)
      exact {
        desired := desired
        status := status
        synced := by
          rw [desired, synced, version]
          exact Nat.le_of_lt behind
        settled := fun same => by
          rw [desired, synced, version] at same
          exact absurd same (Nat.ne_of_lt behind)
        sessions := fun session => (followed.sessions session).frame (Nat.le_refl _)
          (fun _ samples => samples.transition moved) (fun _ => List.mem_cons_of_mem _)
          fun reviewed => by
            rw [behavior, coding] at reviewed
            cases reviewed }
  | adopt moved adopted =>
      obtain ⟨-, delivered, desired, synced, status, -⟩ := adoptDelivery_eq_some adopted
      exact {
        desired := desired
        status := status
        synced := Nat.le_of_eq (synced.trans desired.symm)
        settled := fun _ => .inr (.inr List.mem_cons_self)
        sessions := fun session => (followed.sessions session).frame (Nat.le_refl _)
          (fun _ samples => samples.adopt (reviews rfl) moved) (fun _ => List.mem_cons_of_mem _)
          fun _ claim lease _ flying => by
            rw [delivered] at flying
            cases flying }
  | @queue row queued =>
      obtain ⟨-, pending, -, desired, status, -, synced, -⟩ :=
        queueExistingLifecycleMismatches_eq_some queued
      have history : ∀ event ∈ state.history, event ∈ (if state.row.desiredVersion <
          row.desiredVersion ∨ state.row.desiredContractVersion < row.desiredContractVersion then
            .arrived :: state.history else state.history) := by
        intro event member
        split
        · exact List.mem_cons_of_mem _ member
        · exact member
      refine followed.keep rfl (desired.trans followed.desired.symm)
        (status.trans followed.status.symm) synced history ?_
      exact followed.others rfl (Nat.le_refl _) history fun lease flying => by
        rw [pending] at flying
        cases flying
  | claim past idle claimed =>
      obtain ⟨-, rfl, rfl⟩ := claimDue_eq_some claimed
      refine followed.keep rfl rfl rfl rfl (fun _ => List.mem_cons_of_mem _) ?_
      refine forall_become ?_ (followed.others rfl (Nat.le_succ _)
        (fun _ => List.mem_cons_of_mem _) ?_)
      · exact {
          fresh := by
            rintro _ ⟨⟩
            exact Nat.lt_succ_self _
          sampled := fun _ same => by cases same
          compared := fun _ _ same => by cases same
          terminal := fun _ same => by cases same
          told := fun _ same => by cases same
          current := by
            rintro - _ lease ⟨⟩ - -
            exact ⟨followed.desired, fun _ same => by cases same⟩ }
      · intro lease flying earlier
        obtain rfl := DeliveryState.inFlight.inj flying
        exact absurd earlier (Nat.lt_irrefl _)
  | @move _ session phase events moves =>
      refine followed.keep rfl rfl rfl rfl (fun _ => List.mem_append_right _) ?_
      refine forall_become ((moves.follows (followed.sessions session)).same rfl rfl rfl rfl) ?_
      exact followed.others rfl (Nat.le_refl _) (fun _ => List.mem_append_right _)
        fun lease flying _ => ⟨lease, flying, rfl⟩
  | @recordTask session claim saved snapshot taskId row finds recorded =>
      obtain ⟨lease, flying, token, -, rfl, rfl⟩ := recordTaskId_eq_some recorded
      refine followed.write rfl rfl rfl flying flying rfl ?_
      refine (followed.sessions session).save followed.desired rfl rfl finds.claim flying token rfl
        token rfl finds.snapshot.symm (fun _ same => by cases same) rfl rfl
        (fun _ _ same => by cases same)
  | @recordAttachment session claim saved snapshot attachmentId row attaches recorded =>
      obtain ⟨lease, flying, token, -, rfl, rfl⟩ := recordBeforeAttachment_eq_some recorded
      refine followed.write rfl rfl rfl flying flying rfl ?_
      exact (followed.sessions session).save followed.desired rfl rfl attaches.claim flying token
        rfl token rfl attaches.snapshot.symm (fun _ same => by cases same) rfl rfl
        (fun _ _ same => by cases same)
  | @renew session now claim renewed phase row past renews extended =>
      obtain ⟨lease, flying, token, -, rfl, rfl⟩ := renewClaim_eq_some extended
      refine followed.write rfl rfl rfl flying rfl rfl ?_
      exact renews.follows (followed.sessions session) followed.desired
        (compared session rfl claim) rfl rfl flying token token rfl
  | @lands session claim snapshot stageId taskId posting task =>
      refine followed.keep rfl rfl rfl rfl (fun _ => id) ?_
      refine forall_become ?_ (followed.others rfl (Nat.le_refl _) (fun _ => id)
        fun lease flying _ => ⟨lease, flying, rfl⟩)
      have follows := followed.sessions session
      rw [posting] at follows
      have later : (Phase.posting claim snapshot stageId true).Follows state :=
        follows.pass rfl (.inr rfl) (.inr rfl) (.inl rfl) rfl
      exact later.same rfl rfl rfl rfl
  | @mark session now claim snapshot row past verified marked =>
      obtain ⟨⟨lease, flying, token⟩, ahead, synced, desired, status, -, settled, -⟩ :=
        markDelivered_eq_some marked
      have version := followed.settles verified flying token
      have follows := followed.sessions session
      rw [verified] at follows
      have released : ∀ lease, row.state ≠ .inFlight lease := by
        rintro lease flies
        rcases settled with ⟨settled, -⟩ | settled <;> rw [settled] at flies <;> cases flies
      exact {
        desired := desired.trans followed.desired
        status := status.trans followed.status
        synced := by
          rw [desired, synced]
          exact ahead
        settled := fun same => by
          rw [desired, synced, version, followed.desired] at same
          have content := (follows.sampled snapshot rfl).content same
          exact same ▸ content ▸ follows.told snapshot rfl
        sessions := forall_become .idle (followed.others rfl (Nat.le_refl _) (fun _ => id)
          fun lease flies => absurd flies (released lease)) }
  | @retry session now claim row past held scheduled =>
      obtain ⟨-, same⟩ := scheduleRetry_eq_some scheduled
      refine followed.release session row (by rw [same]) (by rw [same]) (by rw [same]) ?_
        [.retried row.dueAt]
      intro _ flies
      rw [same] at flies
      cases flies
  | @block session reason claim row held blocked =>
      obtain ⟨-, same⟩ := block_eq_some blocked
      refine followed.release session row (by rw [same]) (by rw [same]) (by rw [same]) ?_ []
      intro _ flies
      rw [same] at flies
      cases flies

end Followed

end Step

end PlantManager.Feedback.TaskWorker

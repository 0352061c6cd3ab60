import PlantManager.Feedback.SyncFollow
import PlantManager.Feedback.TaskFollow

/-! # A lifecycle and its two outboxes

`Feedback.Lifecycle.nothing_lost`: as long as a worker that is about to write the
fields of a task finds no later version when it renews its claim, both outboxes want the version
of the record, and settle a version only as it was verified or adopted.
`Feedback.Lifecycle.change_lost` is a run in which a change is settled that nobody
delivered.
-/

namespace PlantManager.Feedback.Lifecycle

open PlantManager.Transition

/-- The two outboxes of one feedback; each half keeps the record. -/
structure State (S T : Type*) where
  task : TaskWorker.State S
  sync : Sync.State T

def State.initial (S T : Type*) (behavior : Behavior) (hasBeforeImage : Bool) (now : ℤ) :
    State S T where
  task := .initial S behavior hasBeforeImage now
  sync := .initial T behavior now

inductive Action (S T : Type*) where
  | transition (change : Change) (now : ℤ)
  | adopt (session : T) (review : Review)
  | task (action : TaskWorker.Action S)
  | sync (action : Sync.Action T)
deriving DecidableEq

end PlantManager.Feedback.Lifecycle

namespace PlantManager.Feedback

variable {S : Type*}

def TaskWorker.Action.changesRecord : TaskWorker.Action S → Bool
  | .transition _ _ => true
  | .adopt _ _ _ _ => true
  | _ => false

def Sync.Action.changesRecord : Sync.Action S → Bool
  | .transition _ _ => true
  | .adopt _ _ => true
  | .dispose _ .supersedeAndRetry _ _ => true
  | _ => false

end PlantManager.Feedback

namespace PlantManager.Feedback.Lifecycle

open PlantManager.Transition

variable {S T : Type*}

section Step

variable [DecidableEq S] [DecidableEq T]

/-- A change of the record is one transaction with both outboxes. -/
def step (state : State S T) : Action S T → Option (State S T)
  | .transition change now =>
      (TaskWorker.step state.task (.transition change now)).bind fun task =>
        (Sync.step state.sync (.transition change now)).map fun sync => ⟨task, sync⟩
  | .adopt session review =>
      match state.sync.sessions session with
      | .reviewing candidate =>
          (TaskWorker.step state.task (.adopt candidate.odooTaskId candidate.status
            candidate.projectionVersion review)).bind fun task =>
              (Sync.step state.sync (.adopt session review)).map fun sync => ⟨task, sync⟩
      | _ => none
  | .task action =>
      if action.changesRecord then none
      else (TaskWorker.step state.task action).map fun task => { state with task := task }
  | .sync action =>
      if action.changesRecord then none
      else (Sync.step state.sync action).map fun sync => { state with sync := sync }

/-- A worker that renews its claim to write the fields of a task finds that the row still wants
the version of the claim. -/
def RenewsCompared (state : State S T) : Action S T → Prop
  | .task action => TaskWorker.RenewsCompared state.task action
  | _ => True

instance (state : State S T) : ∀ action, Decidable (RenewsCompared state action)
  | .transition _ _ => isTrue trivial
  | .adopt _ _ => isTrue trivial
  | .task action => inferInstanceAs (Decidable (TaskWorker.RenewsCompared state.task action))
  | .sync _ => isTrue trivial

/-- No change of the lifecycle is lost. -/
structure NothingLost (state : State S T) : Prop where
  record : state.sync.record = state.task.record
  taskDesired : state.task.row.desiredVersion = state.task.record.projectionVersion
  taskStatus : state.task.row.desiredStatus = state.task.record.status
  taskSynced : state.task.row.lastSyncedVersion ≤ state.task.row.desiredVersion
  taskSettled : state.task.row.lastSyncedVersion = state.task.row.desiredVersion →
    TaskWorker.Told state.task.history state.task.record.projectionVersion
      state.task.record.status
  syncDesired : state.sync.store.row.desiredVersion = state.task.record.projectionVersion
  syncSynced : state.sync.store.row.lastSyncedVersion ≤ state.sync.store.row.desiredVersion
  syncSettled : state.sync.store.row.lastSyncedVersion = state.sync.store.row.desiredVersion →
    Sync.Shown state.sync.history state.task.record
  /-- A change that came while the task was delivered leaves it due. -/
  taskDue : ∀ session claim snapshot now next,
    state.task.sessions session = .verified claim snapshot →
      snapshot.projectionVersion < state.task.record.projectionVersion →
        step state (.task (.mark session now)) = some next →
          next.task.row.state = .pending ∧ next.task.row.dueAt = now
  /-- A change that came while the improvement was sent leaves it due. -/
  syncDue : ∀ session claim attempt remoteId now next,
    state.sync.sessions session = .readBack claim attempt remoteId →
      attempt.projectionVersion < state.task.record.projectionVersion →
        step state (.sync (.settle session now)) = some next → next.sync.store.row.Due now

/-! ## Both halves -/

omit [DecidableEq T] in
theorem task_record {task next : TaskWorker.State S} {action : TaskWorker.Action S}
    (alone : action.changesRecord = false) (taken : TaskWorker.step task action = some next) :
    next.record = task.record := by
  cases TaskWorker.step_outcome taken with
  | transition => cases alone
  | adopt => cases alone
  | _ => rfl

omit [DecidableEq S] in
theorem sync_record {sync next : Sync.State T} {action : Sync.Action T}
    (alone : action.changesRecord = false) (taken : Sync.step sync action = some next) :
    next.record = sync.record := by
  cases Sync.step_outcome taken with
  | transition => cases alone
  | adopt => cases alone
  | dispose disposed =>
      obtain ⟨-, -, -, ⟨-, same, -⟩ | ⟨-, same, -⟩ | ⟨rfl, -⟩⟩ :=
        Sync.applyQuarantineDisposition_eq_some disposed
      · exact same
      · exact same
      · cases alone
  | _ => rfl

omit [DecidableEq S] [DecidableEq T] in
theorem task_adopts {action : TaskWorker.Action S} (alone : action.changesRecord = false) :
    action.adopts = false := by
  cases action <;> first | rfl | cases alone

omit [DecidableEq S] [DecidableEq T] in
theorem sync_supersedes {action : Sync.Action T} (alone : action.changesRecord = false) :
    action.supersedes = false := by
  unfold Sync.Action.supersedes
  split
  · cases alone
  · rfl

omit [DecidableEq T] in
theorem task_transition {task next : TaskWorker.State S} {change : Change} {now : ℤ}
    (taken : TaskWorker.step task (.transition change now) = some next) :
    task.record.transition change now = some next.record := by
  obtain ⟨-, taken⟩ := Option.ite_none_right_eq_some.mp taken
  obtain ⟨record, moved, taken⟩ := Option.bind_eq_some_iff.mp taken
  obtain ⟨row, -, rfl⟩ := Option.map_eq_some_iff.mp taken
  exact moved

omit [DecidableEq T] in
theorem task_adopt {task next : TaskWorker.State S} {taskId version : ℕ} {status : Status}
    {review : Review} (taken : TaskWorker.step task (.adopt taskId status version review) =
      some next) : task.record.adopt status version review = some next.record := by
  obtain ⟨record, moved, taken⟩ := Option.bind_eq_some_iff.mp taken
  obtain ⟨row, -, rfl⟩ := Option.map_eq_some_iff.mp taken
  exact moved

omit [DecidableEq S] in
theorem sync_transition {sync next : Sync.State T} {change : Change} {now : ℤ}
    (taken : Sync.step sync (.transition change now) = some next) :
    sync.record.transition change now = some next.record := by
  obtain ⟨record, moved, rfl⟩ := Option.map_eq_some_iff.mp taken
  exact moved

omit [DecidableEq S] in
theorem sync_adopt {sync next : Sync.State T} {session : T} {candidate : Sync.ReviewCandidate}
    {review : Review} (reviewing : sync.sessions session = .reviewing candidate)
    (taken : Sync.step sync (.adopt session review) = some next) :
    sync.record.adopt candidate.status candidate.projectionVersion review =
      some next.record := by
  simp only [Sync.step, reviewing] at taken
  obtain ⟨record, moved, taken⟩ := Option.bind_eq_some_iff.mp taken
  obtain ⟨row, -, rfl⟩ := Option.map_eq_some_iff.mp taken
  exact moved

theorem step_task {state next : State S T} {action : TaskWorker.Action S}
    (taken : step state (.task action) = some next) : action.changesRecord = false ∧
      TaskWorker.step state.task action = some next.task ∧ next.sync = state.sync := by
  obtain ⟨alone, taken⟩ := Option.ite_none_left_eq_some.mp taken
  obtain ⟨task, stepped, rfl⟩ := Option.map_eq_some_iff.mp taken
  exact ⟨Bool.eq_false_iff.mpr alone, stepped, rfl⟩

theorem step_sync {state next : State S T} {action : Sync.Action T}
    (taken : step state (.sync action) = some next) : action.changesRecord = false ∧
      Sync.step state.sync action = some next.sync ∧ next.task = state.task := by
  obtain ⟨alone, taken⟩ := Option.ite_none_left_eq_some.mp taken
  obtain ⟨sync, stepped, rfl⟩ := Option.map_eq_some_iff.mp taken
  exact ⟨Bool.eq_false_iff.mpr alone, stepped, rfl⟩

structure Kept (state : State S T) : Prop where
  record : state.sync.record = state.task.record
  task : TaskWorker.Followed state.task
  sync : Sync.Mirrored state.sync

omit [DecidableEq S] [DecidableEq T] in
theorem kept_initial (behavior : Behavior) (hasBeforeImage : Bool) (now : ℤ) :
    Kept (State.initial S T behavior hasBeforeImage now) :=
  ⟨rfl, TaskWorker.followed_initial behavior hasBeforeImage now,
    Sync.mirrored_initial behavior now⟩

variable {state next : State S T} {action : Action S T}

theorem Kept.step (kept : Kept state) (compared : RenewsCompared state action)
    (taken : step state action = some next) : Kept next := by
  cases action with
  | transition change now =>
      obtain ⟨task, stepped, taken⟩ := Option.bind_eq_some_iff.mp taken
      obtain ⟨sync, mirrored, rfl⟩ := Option.map_eq_some_iff.mp taken
      have first := task_transition stepped
      have second := sync_transition mirrored
      rw [kept.record, first] at second
      exact {
        record := (Option.some.inj second).symm
        task := kept.task.step (fun _ same => by cases same) (fun same => by cases same) stepped
        sync := kept.sync.step rfl mirrored }
  | adopt session review =>
      simp only [step] at taken
      split at taken
      · rename_i candidate reviewing
        obtain ⟨task, stepped, taken⟩ := Option.bind_eq_some_iff.mp taken
        obtain ⟨sync, mirrored, rfl⟩ := Option.map_eq_some_iff.mp taken
        have first := task_adopt stepped
        have second := sync_adopt reviewing mirrored
        have followed := (kept.sync.sessions session).followed (by rw [reviewing]; rfl)
        rw [kept.record] at second followed
        exact {
          record := Option.some.inj (second.symm.trans first)
          task := kept.task.step (fun _ same => by cases same) (fun _ => followed) stepped
          sync := kept.sync.step rfl mirrored }
      · cases taken
  | task action =>
      obtain ⟨alone, stepped, same⟩ := step_task taken
      exact {
        record := by rw [same, kept.record, task_record alone stepped]
        task := kept.task.step compared
          (fun adopts => by rw [task_adopts alone] at adopts; cases adopts) stepped
        sync := same ▸ kept.sync }
  | sync action =>
      obtain ⟨alone, mirrored, same⟩ := step_sync taken
      exact {
        record := by rw [same, sync_record alone mirrored, kept.record]
        task := same ▸ kept.task
        sync := kept.sync.step (sync_supersedes alone) mirrored }

theorem Kept.taskDue (kept : Kept state) {session : S} {claim : TaskDeliveryClaim}
    {snapshot : TaskWorker.Snapshot} {now : ℤ}
    (verified : state.task.sessions session = .verified claim snapshot)
    (behind : snapshot.projectionVersion < state.task.record.projectionVersion)
    (taken : Lifecycle.step state (.task (.mark session now)) = some next) :
    next.task.row.state = .pending ∧ next.task.row.dueAt = now := by
  obtain ⟨-, stepped, -⟩ := step_task taken
  simp only [TaskWorker.step, verified] at stepped
  obtain ⟨-, stepped⟩ := Option.ite_none_right_eq_some.mp stepped
  obtain ⟨row, marked, same⟩ := Option.map_eq_some_iff.mp stepped
  rw [← same]
  obtain ⟨⟨lease, flying, token⟩, -, -, -, -, -, -, due⟩ := markDelivered_eq_some marked
  have version := kept.task.settles verified flying token
  exact due (by rwa [version, kept.task.desired])

theorem Kept.syncDue (kept : Kept state) {session : T} {claim : Sync.Claim}
    {attempt : Sync.Attempt} {remoteId : ℕ} {now : ℤ}
    (read : state.sync.sessions session = .readBack claim attempt remoteId)
    (behind : attempt.projectionVersion < state.task.record.projectionVersion)
    (taken : Lifecycle.step state (.sync (.settle session now)) = some next) :
    next.sync.store.row.Due now := by
  obtain ⟨-, stepped, -⟩ := step_sync taken
  simp only [Sync.step, read] at stepped
  obtain ⟨store, settled, same⟩ := Option.map_eq_some_iff.mp stepped
  rw [← same]
  obtain ⟨locked, row, -, rfl, idle, synced, desired, -, -, due⟩ :=
    Sync.settleVerified_eq_some settled
  have wanted := kept.sync.desired
  rw [kept.record] at wanted
  rw [← wanted] at behind
  refine ⟨idle, Int.le_of_eq (due behind), ?_⟩
  rwa [synced, desired]

/-- In a run whose workers find no later version when they renew a claim to write fields, no
change of the lifecycle is lost. -/
theorem nothing_lost {behavior : Behavior} {hasBeforeImage : Bool} {now : ℤ}
    (reachable : Reachable (State.initial S T behavior hasBeforeImage now) step RenewsCompared
      state) : NothingLost state := by
  have kept : Kept state := reachable.invariant (kept_initial behavior hasBeforeImage now)
    fun _ _ _ kept compared taken => kept.step compared taken
  exact {
    record := kept.record
    taskDesired := kept.task.desired
    taskStatus := kept.task.status
    taskSynced := kept.task.synced
    taskSettled := kept.task.settled
    syncDesired := kept.record ▸ kept.sync.desired
    syncSynced := kept.sync.synced
    syncSettled := kept.record ▸ kept.sync.settled
    taskDue := fun _ _ _ _ _ => kept.taskDue
    syncDue := fun _ _ _ _ _ _ => kept.syncDue }

end Step

/-- A worker compares its claim with what it read, before the request is taken up. -/
def compareRequested (stageName : String) : List (Action Bool Bool) :=
  [.task (.claim false "web" 0), .task (.load false), .task (.recordTask false 7),
    .task (.passAttachment false), .task (.check false),
    .task (.readTask false 3 ⟨true, 3, stageName, "01_in_progress"⟩),
    .transition ⟨.inProgress, "ana", "", false⟩ 0]

/-- The worker verifies and settles what it delivered. -/
def settleRequested : List (Action Bool Bool) :=
  [.task (.verify false ⟨true, 3, "New", "01_in_progress"⟩), .task (.mark false 0)]

theorem nothing_lost_compareRequested : ∃ state : State Bool Bool,
    state.task.row.lastSyncedVersion = 1 ∧ state.task.row.state = .pending ∧
      NothingLost state := by
  have outcome : (run step (State.initial Bool Bool .coding false 0)
      (compareRequested "New" ++ settleRequested)).map
        (fun state => (state.task.row.lastSyncedVersion, state.task.row.state)) =
          some (1, .pending) := by decide
  obtain ⟨state, ran, fields⟩ := Option.map_eq_some_iff.mp outcome
  obtain ⟨synced, pending⟩ := Prod.mk.inj fields
  have compared : Permitted step RenewsCompared (State.initial Bool Bool .coding false 0)
      (compareRequested "New" ++ settleRequested) := by decide
  exact ⟨state, synced, pending, nothing_lost (Reachable.initial.run_permitted compared ran)⟩

/-- In some run the row settles a version that nobody wrote to the task. -/
theorem change_lost : ¬∀ state : State Bool Bool,
    Reachable (State.initial Bool Bool .coding false 0) step (fun _ _ => True) state →
      NothingLost state := by
  intro kept
  have outcome : (run step (State.initial Bool Bool .coding false 0)
      (compareRequested "Done" ++ [.task (.renew false 0), .task (.returns false true)] ++
        settleRequested)).map
        (fun state => (state.task.row, state.task.record.projectionVersion,
          state.task.record.status, state.task.history)) =
      some (⟨.delivered, 0, 1, some 7, none, 2, 2, .inProgress, 2, 2, none, none⟩, 2, .inProgress,
        [.verified 1 .requested 3 ⟨true, 3, "New", "01_in_progress"⟩, .arrived,
          .claimed false 0]) := by decide
  obtain ⟨state, ran, fields⟩ := Option.map_eq_some_iff.mp outcome
  obtain ⟨row, fields⟩ := Prod.mk.inj fields
  obtain ⟨version, fields⟩ := Prod.mk.inj fields
  obtain ⟨status, history⟩ := Prod.mk.inj fields
  have told := (kept state (Reachable.initial.run (fun _ _ _ => trivial) ran)).taskSettled
    (by rw [row])
  rw [version, status, history] at told
  simp [TaskWorker.Told] at told

end PlantManager.Feedback.Lifecycle

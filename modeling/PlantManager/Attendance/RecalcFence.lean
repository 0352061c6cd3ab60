import PlantManager.Attendance.RecalcQueue

/-! # The fence of the recalculation queue

`Attendance.Recalc.recalc_nothingLost`: as long as no recorded failure writes a
retry time that another worker holds as its lease, with the same attempt number, a completed
day was claimed after its latest enqueue and overtaken workers change nothing.
`Attendance.Recalc.recalc_loses_enqueue` is a run in which they do.
-/

namespace PlantManager.Attendance.Recalc

open PlantManager.Transition

variable {W : Type*}

/-! ## What the history tells -/

/-- Enqueues and claims overtake the claims before them. -/
def Event.overtakes : Event W → Bool
  | .enqueued => true
  | .claimed _ _ => true
  | _ => false

/-- Enqueues and completions decide whether the day is completed. -/
def Event.turns : Event W → Bool
  | .enqueued => true
  | .completed _ _ _ => true
  | _ => false

def Event.isEnqueued : Event W → Bool
  | .enqueued => true
  | _ => false

/-- Neither an enqueue nor a claim came after the worker's claim. -/
def Current (history : List (Event W)) (worker : W) (claim : RecalcClaim) : Prop :=
  history.find? Event.overtakes = some (.claimed worker claim)

/-- An enqueue or a claim came after the worker's claim. -/
def Overtaken (history : List (Event W)) (worker : W) (claim : RecalcClaim) : Prop :=
  ¬Current history worker claim

/-- The day is completed by a claim that was taken after the latest enqueue. -/
def CompletedSinceEnqueue (history : List (Event W)) (completedAt : ℤ) : Prop :=
  ∃ worker claim, history.find? Event.turns = some (.completed worker claim completedAt) ∧
    .claimed worker claim ∈ history.takeWhile fun event => !event.isEnqueued

/-- The refresh began after the completion that it is for, the latest one, and no enqueue
came since. -/
def BeganSinceCompletion (history : List (Event W)) (worker : W) (refresh : CacheRefreshClaim) :
    Prop :=
  (∃ other claim, history.find? Event.turns = some (.completed other claim refresh.completedAt)) ∧
    .refreshBegan worker refresh ∈ history.takeWhile fun event => !event.turns

variable {history : List (Event W)}

theorem Current.mem_takeWhile {worker : W} {claim : RecalcClaim}
    (current : Current history worker claim) :
    .claimed worker claim ∈ history.takeWhile fun event => !event.isEnqueued := by
  induction history with
  | nil => cases current
  | cons event rest ih =>
      rw [Current, List.find?_cons] at current
      cases event with
      | enqueued => cases current
      | claimed other taken =>
          obtain ⟨rfl, rfl⟩ : other = worker ∧ taken = claim := by
            simpa [Event.overtakes] using current
          exact List.mem_cons_self
      | completed other taken completedAt => exact List.mem_cons_of_mem _ (ih current)
      | refreshBegan other refresh => exact List.mem_cons_of_mem _ (ih current)

theorem CompletedSinceEnqueue.refreshBegan {completedAt : ℤ}
    (completed : CompletedSinceEnqueue history completedAt) (worker : W)
    (refresh : CacheRefreshClaim) :
    CompletedSinceEnqueue (.refreshBegan worker refresh :: history) completedAt := by
  obtain ⟨other, claim, latest, taken⟩ := completed
  exact ⟨other, claim, latest, List.mem_cons_of_mem _ taken⟩

theorem BeganSinceCompletion.refreshBegan {worker : W} {refresh : CacheRefreshClaim}
    (began : BeganSinceCompletion history worker refresh) (other : W) (later : CacheRefreshClaim) :
    BeganSinceCompletion (.refreshBegan other later :: history) worker refresh :=
  ⟨began.1, List.mem_cons_of_mem _ began.2⟩

theorem CompletedSinceEnqueue.began {refresh : CacheRefreshClaim}
    (completed : CompletedSinceEnqueue history refresh.completedAt) (worker : W) :
    BeganSinceCompletion (.refreshBegan worker refresh :: history) worker refresh := by
  obtain ⟨other, claim, latest, _⟩ := completed
  exact ⟨⟨other, claim, latest⟩, List.mem_cons_self⟩

/-! ## What holds in every state of a run -/

/-- The reading of the clock that a worker's claims come from. -/
def Worker.reading : Worker → Option ℤ
  | .began now => some now
  | .searching now => some now
  | .preparing claim => some (claim.leaseUntil - claimLease)
  | .completing claim _ => some (claim.leaseUntil - claimLease)
  | .failing claim _ => some (claim.leaseUntil - claimLease)
  | _ => none

/-- The completion time that a worker is about to write. -/
def Worker.completion : Worker → Option ℤ
  | .completing _ completedAt => some completedAt
  | _ => none

theorem Worker.reading_of_claim {phase : Worker} {claim : RecalcClaim}
    (held : phase.claim = some claim) : phase.reading = some (claim.leaseUntil - claimLease) := by
  cases phase <;> cases held <;> rfl

structure Fenced (state : State W) : Prop where
  readings : ∀ worker, ∀ now ∈ (state.workers worker).reading, now ≤ state.clock
  readingsApart : ∀ first second, first ≠ second → ∀ now ∈ (state.workers first).reading,
    now ∉ (state.workers second).reading
  completions : ∀ worker, ∀ completedAt ∈ (state.workers worker).completion,
    completedAt ≤ state.clock
  completionsApart : ∀ first second, first ≠ second →
    ∀ completedAt ∈ (state.workers first).completion,
      completedAt ∉ (state.workers second).completion
  past : ∀ worker claim completedAt, .completed worker claim completedAt ∈ state.history →
    completedAt ≤ state.clock
  completionsFresh : ∀ worker, ∀ completedAt ∈ (state.workers worker).completion,
    ∀ other claim, .completed other claim completedAt ∉ state.history
  /-- Whoever fits the row has a claim that nothing overtook. -/
  current : ∀ worker claim, (state.workers worker).claim = some claim →
    ∀ row, state.row = some row → row.Holds claim → Current state.history worker claim
  completed : ∀ row completedAt, state.row = some row → row.completedAt = some completedAt →
    CompletedSinceEnqueue state.history completedAt
  refreshOf : ∀ worker refresh, (state.workers worker).refresh = some refresh →
    ∃ other claim, .completed other claim refresh.completedAt ∈ state.history
  refreshes : ∀ worker refresh, (state.workers worker).refresh = some refresh →
    ∀ row, state.row = some row → row.completedAt = some refresh.completedAt →
      BeganSinceCompletion state.history worker refresh

theorem fenced_initial (clock : ℤ) : Fenced (State.initial W clock) := by
  constructor <;> intros <;> simp_all [State.initial, Worker.reading, Worker.completion,
    Worker.claim, Worker.refresh]

section Step

variable [DecidableEq W] {state : State W} {worker : W}

@[simp] theorem workers_become_self (phase : Worker) :
    (state.become worker phase).workers worker = phase := Function.update_self ..

theorem workers_become_of_ne {other : W} (different : other ≠ worker) (phase : Worker) :
    (state.become worker phase).workers other = state.workers other :=
  Function.update_of_ne different ..

/-- A phase that keeps some of the data of another. -/
structure Worker.Descends (later earlier : Worker) : Prop where
  reading : ∀ now ∈ later.reading, now ∈ earlier.reading
  completion : ∀ completedAt ∈ later.completion, completedAt ∈ earlier.completion
  claim : ∀ claim, later.claim = some claim → earlier.claim = some claim
  refresh : ∀ refresh, later.refresh = some refresh → earlier.refresh = some refresh

theorem idle_descends (earlier : Worker) : Worker.Descends .idle earlier := by
  constructor <;> intro _ impossible <;> cases impossible

namespace Fenced

variable {phase : Worker}

/-- A worker that only lets go of data keeps the fence. -/
theorem become (fenced : Fenced state) (worker : W)
    (descends : phase.Descends (state.workers worker)) : Fenced (state.become worker phase) := by
  have from_ : ∀ other, ((state.become worker phase).workers other).Descends
      (state.workers other) := by
    intro other
    by_cases same : other = worker
    · subst same
      rw [workers_become_self]
      exact descends
    · rw [workers_become_of_ne same]
      exact ⟨fun _ => id, fun _ => id, fun _ => id, fun _ => id⟩
  exact {
    readings := fun other now member => fenced.readings other now ((from_ other).reading now member)
    readingsApart := fun first second different now member also =>
      fenced.readingsApart first second different now ((from_ first).reading now member)
        ((from_ second).reading now also)
    completions := fun other completedAt member =>
      fenced.completions other completedAt ((from_ other).completion completedAt member)
    completionsApart := fun first second different completedAt member also =>
      fenced.completionsApart first second different completedAt
        ((from_ first).completion completedAt member) ((from_ second).completion completedAt also)
    past := fenced.past
    completionsFresh := fun other completedAt member =>
      fenced.completionsFresh other completedAt ((from_ other).completion completedAt member)
    current := fun other claim held => fenced.current other claim ((from_ other).claim claim held)
    completed := fenced.completed
    refreshOf := fun other refresh held =>
      fenced.refreshOf other refresh ((from_ other).refresh refresh held)
    refreshes := fun other refresh held =>
      fenced.refreshes other refresh ((from_ other).refresh refresh held) }

/-- Reading the clock keeps the fence, also when the reading is to be written. -/
theorem read (fenced : Fenced state) {now : ℤ} {next : State W}
    (taken : state.read now worker phase = some next)
    (reading : ∀ at_ ∈ phase.reading, at_ = now ∨ at_ ∈ (state.workers worker).reading)
    (completion : ∀ completedAt ∈ phase.completion, completedAt = now)
    (claim : ∀ claim, phase.claim = some claim → (state.workers worker).claim = some claim)
    (refresh : ∀ refresh, phase.refresh = some refresh →
      (state.workers worker).refresh = some refresh) : Fenced next := by
  obtain ⟨later, rfl⟩ := Option.ite_some_none_eq_some.mp taken
  have others : ∀ other, other ≠ worker →
      ({ state.become worker phase with clock := now } : State W).workers other =
        state.workers other := fun other different => workers_become_of_ne different phase
  have own : ({ state.become worker phase with clock := now } : State W).workers worker =
      phase := workers_become_self phase
  have old : ∀ other, ∀ at_ ∈ (state.workers other).reading, at_ ≠ now := fun other at_ member =>
    (lt_of_le_of_lt (fenced.readings other at_ member) later).ne
  exact {
    readings := by
      intro other at_ member
      by_cases same : other = worker
      · subst same
        rw [own] at member
        rcases reading at_ member with rfl | before
        · exact le_rfl
        · exact (fenced.readings other at_ before).trans later.le
      · rw [others other same] at member
        exact (fenced.readings other at_ member).trans later.le
    readingsApart := by
      intro first second different at_ member also
      by_cases isFirst : first = worker
      · subst isFirst
        rw [own] at member
        rw [others second (Ne.symm different)] at also
        rcases reading at_ member with rfl | before
        · exact old second _ also rfl
        · exact fenced.readingsApart first second different at_ before also
      · rw [others first isFirst] at member
        by_cases isSecond : second = worker
        · subst isSecond
          rw [own] at also
          rcases reading at_ also with rfl | before
          · exact old first _ member rfl
          · exact fenced.readingsApart first second different at_ member before
        · rw [others second isSecond] at also
          exact fenced.readingsApart first second different at_ member also
    completions := by
      intro other completedAt member
      by_cases same : other = worker
      · subst same
        rw [own] at member
        exact (completion completedAt member).le
      · rw [others other same] at member
        exact (fenced.completions other completedAt member).trans later.le
    completionsApart := by
      intro first second different completedAt member also
      by_cases isFirst : first = worker
      · subst isFirst
        rw [own] at member
        rw [others second (Ne.symm different)] at also
        obtain rfl := completion completedAt member
        exact absurd (fenced.completions second _ also) (not_le.mpr later)
      · rw [others first isFirst] at member
        by_cases isSecond : second = worker
        · subst isSecond
          rw [own] at also
          obtain rfl := completion completedAt also
          exact absurd (fenced.completions first _ member) (not_le.mpr later)
        · rw [others second isSecond] at also
          exact fenced.completionsApart first second different completedAt member also
    past := fun author taken completedAt happened =>
      (fenced.past author taken completedAt happened).trans later.le
    completionsFresh := by
      intro other completedAt member author finished happened
      by_cases same : other = worker
      · subst same
        rw [own] at member
        obtain rfl := completion completedAt member
        exact absurd (fenced.past author finished _ happened) (not_le.mpr later)
      · rw [others other same] at member
        exact fenced.completionsFresh other completedAt member author finished happened
    current := by
      intro other held holds
      by_cases same : other = worker
      · subst same
        rw [own] at holds
        exact fenced.current other held (claim held holds)
      · rw [others other same] at holds
        exact fenced.current other held holds
    completed := fenced.completed
    refreshOf := by
      intro other held holds
      by_cases same : other = worker
      · subst same
        rw [own] at holds
        exact fenced.refreshOf other held (refresh held holds)
      · rw [others other same] at holds
        exact fenced.refreshOf other held holds
    refreshes := by
      intro other held holds
      by_cases same : other = worker
      · subst same
        rw [own] at holds
        exact fenced.refreshes other held (refresh held holds)
      · rw [others other same] at holds
        exact fenced.refreshes other held holds }

omit [DecidableEq W] in
/-- A row that fits no new claim and is completed at the same time keeps the fence. -/
theorem changeRow (fenced : Fenced state) {row changed : QueueRow} (stored : state.row = some row)
    (holds : ∀ worker claim, (state.workers worker).claim = some claim → changed.Holds claim →
      row.Holds claim)
    (completedAt : ∀ at_, changed.completedAt = some at_ → row.completedAt = some at_) :
    Fenced { state with row := some changed } where
  readings := fenced.readings
  readingsApart := fenced.readingsApart
  completions := fenced.completions
  completionsApart := fenced.completionsApart
  past := fenced.past
  completionsFresh := fenced.completionsFresh
  current worker claim held other equal fits := by
    obtain rfl := Option.some.inj equal
    exact fenced.current worker claim held row stored (holds worker claim held fits)
  completed other at_ equal reached := by
    obtain rfl := Option.some.inj equal
    exact fenced.completed row at_ stored (completedAt at_ reached)
  refreshOf := fenced.refreshOf
  refreshes worker refresh held other equal reached := by
    obtain rfl := Option.some.inj equal
    exact fenced.refreshes worker refresh held row stored (completedAt _ reached)

omit [DecidableEq W] in
theorem enqueue (fenced : Fenced state) (reason : String) (requestedAt : ℤ) :
    Fenced { state with
      row := some (enqueueRecalc reason requestedAt state.row)
      history := .enqueued :: state.history } := by
  have cleared : (enqueueRecalc reason requestedAt state.row).startedAt = none ∧
      (enqueueRecalc reason requestedAt state.row).completedAt = none := by
    cases state.row <;> exact ⟨rfl, rfl⟩
  exact {
    readings := fenced.readings
    readingsApart := fenced.readingsApart
    completions := fenced.completions
    completionsApart := fenced.completionsApart
    past := fun author claim completedAt happened =>
      fenced.past author claim completedAt ((List.mem_cons.mp happened).resolve_left nofun)
    completionsFresh := fun other completedAt member author claim happened =>
      fenced.completionsFresh other completedAt member author claim
        ((List.mem_cons.mp happened).resolve_left nofun)
    current := by
      intro other claim held row equal fits
      obtain rfl := Option.some.inj equal
      rw [QueueRow.Holds, cleared.1] at fits
      cases fits.2.2
    completed := by
      intro row completedAt equal reached
      obtain rfl := Option.some.inj equal
      rw [cleared.2] at reached
      cases reached
    refreshOf := by
      intro other refresh held
      obtain ⟨author, claim, happened⟩ := fenced.refreshOf other refresh held
      exact ⟨author, claim, List.mem_cons_of_mem _ happened⟩
    refreshes := by
      intro other refresh held row equal reached
      obtain rfl := Option.some.inj equal
      rw [cleared.2] at reached
      cases reached }

/-- A new claim fits the row, and no other claim does. -/
theorem claimed (fenced : Fenced state) {now : ℤ} (searching : state.workers worker = .searching now)
    {row changed : QueueRow} {claim : RecalcClaim} (taken : claimNext now row = some (claim, changed)) :
    Fenced { state.become worker (.preparing claim) with
      row := some changed
      history := .claimed worker claim :: state.history } := by
  obtain ⟨eligible, taken⟩ := Option.ite_none_right_eq_some.mp taken
  obtain ⟨rfl, rfl⟩ := Prod.mk.inj (Option.some.inj taken)
  have reading : (Worker.preparing ⟨row.attemptCount + 1, now + claimLease⟩).reading =
      (state.workers worker).reading := by
    rw [searching]
    exact congrArg some (add_sub_cancel_right now claimLease)
  have others : ∀ other, other ≠ worker →
      (state.become worker (.preparing ⟨row.attemptCount + 1, now + claimLease⟩)).workers other =
        state.workers other := fun other different => workers_become_of_ne different _
  have readings : ∀ other,
      ((state.become worker (.preparing ⟨row.attemptCount + 1, now + claimLease⟩)).workers
        other).reading = (state.workers other).reading := by
    intro other
    by_cases same : other = worker
    · rw [same, workers_become_self, reading]
    · rw [others other same]
  have idle := fenced.become worker (idle_descends _)
  have rest : ∀ other,
      ((state.become worker (.preparing ⟨row.attemptCount + 1, now + claimLease⟩)).workers
        other).completion = ((state.become worker .idle).workers other).completion ∧
      ((state.become worker (.preparing ⟨row.attemptCount + 1, now + claimLease⟩)).workers
        other).refresh = ((state.become worker .idle).workers other).refresh := by
    intro other
    by_cases same : other = worker
    · rw [same, workers_become_self, workers_become_self]
      exact ⟨rfl, rfl⟩
    · rw [others other same, workers_become_of_ne same]
      exact ⟨rfl, rfl⟩
  exact {
    readings := fun other at_ member => fenced.readings other at_ (readings other ▸ member)
    readingsApart := fun first second different at_ member also =>
      fenced.readingsApart first second different at_ (readings first ▸ member)
        (readings second ▸ also)
    completions := fun other completedAt member =>
      idle.completions other completedAt ((rest other).1 ▸ member)
    completionsApart := fun first second different completedAt member also =>
      idle.completionsApart first second different completedAt ((rest first).1 ▸ member)
        ((rest second).1 ▸ also)
    past := fun author taken completedAt happened =>
      fenced.past author taken completedAt ((List.mem_cons.mp happened).resolve_left nofun)
    completionsFresh := fun other completedAt member author taken happened =>
      idle.completionsFresh other completedAt ((rest other).1 ▸ member) author taken
        ((List.mem_cons.mp happened).resolve_left nofun)
    current := by
      intro other held holds changed equal fits
      obtain rfl := Option.some.inj equal
      by_cases same : other = worker
      · subst same
        have own : Worker.preparing ⟨row.attemptCount + 1, now + claimLease⟩ =
            (state.become other (.preparing ⟨row.attemptCount + 1, now + claimLease⟩)).workers
              other := (workers_become_self _).symm
        rw [← own] at holds
        exact Option.some.inj holds ▸ rfl
      · -- another claim with this lease would come from the same reading of the clock
        rw [others other same] at holds
        have lease : now + claimLease = held.leaseUntil := Option.some.inj fits.2.2
        have theirs := Worker.reading_of_claim holds
        refine absurd ?_ (fenced.readingsApart other worker same now ?_)
        · rw [searching]
          rfl
        · rw [theirs, ← lease, add_sub_cancel_right]
          rfl
    completed := by
      intro changed completedAt equal reached
      obtain rfl := Option.some.inj equal
      exact absurd (eligible.1.symm.trans reached) nofun
    refreshOf := by
      intro other refresh held
      obtain ⟨author, claim, happened⟩ := idle.refreshOf other refresh ((rest other).2 ▸ held)
      exact ⟨author, claim, List.mem_cons_of_mem _ happened⟩
    refreshes := by
      intro other refresh held changed equal reached
      obtain rfl := Option.some.inj equal
      exact absurd (eligible.1.symm.trans reached) nofun }

/-- Completing a claim that fits the row: nothing had overtaken it. The worker goes on to a
phase that writes no completion. -/
theorem complete (fenced : Fenced state) {claim : RecalcClaim} {completedAt : ℤ}
    (completing : state.workers worker = .completing claim completedAt) {row changed : QueueRow}
    (stored : state.row = some row) (done : completeClaim claim completedAt row = some changed)
    (descends : phase.Descends (state.workers worker)) (silent : phase.completion = none) :
    changed.completedAt = some completedAt ∧
      Fenced { state.become worker phase with
        row := some changed
        history := .completed worker claim completedAt :: state.history } := by
  obtain ⟨fits, rfl⟩ := Option.ite_some_none_eq_some.mp done
  have held : (state.workers worker).claim = some claim := by rw [completing]; rfl
  have writes : completedAt ∈ (state.workers worker).completion := by rw [completing]; rfl
  have current := fenced.current worker claim held row stored fits
  have kept := fenced.become worker descends
  exact ⟨rfl, {
    readings := kept.readings
    readingsApart := kept.readingsApart
    completions := kept.completions
    completionsApart := kept.completionsApart
    past := by
      intro author taken at_ happened
      rcases List.mem_cons.mp happened with now | before
      · obtain ⟨-, -, rfl⟩ := Event.completed.inj now
        exact fenced.completions worker _ writes
      · exact fenced.past author taken at_ before
    completionsFresh := by
      intro other at_ member author taken happened
      rcases List.mem_cons.mp happened with now | before
      · obtain ⟨-, -, rfl⟩ := Event.completed.inj now
        by_cases same : other = worker
        · subst same
          rw [workers_become_self, silent] at member
          cases member
        · change _ ∈ ((state.become worker phase).workers other).completion at member
          rw [workers_become_of_ne same] at member
          exact fenced.completionsApart other worker same _ member writes
      · exact kept.completionsFresh other at_ member author taken before
    current := by
      intro other taken _ changed equal fits
      obtain rfl := Option.some.inj equal
      cases fits.1
    completed := by
      intro changed at_ equal reached
      obtain rfl := Option.some.inj equal
      obtain rfl := Option.some.inj reached
      exact ⟨worker, claim, rfl, List.mem_cons_of_mem _ current.mem_takeWhile⟩
    refreshOf := by
      intro other refresh holds
      obtain ⟨author, taken, happened⟩ := kept.refreshOf other refresh holds
      exact ⟨author, taken, List.mem_cons_of_mem _ happened⟩
    refreshes := by
      intro other refresh holds changed equal reached
      obtain rfl := Option.some.inj equal
      obtain ⟨author, taken, happened⟩ := kept.refreshOf other refresh holds
      rw [← Option.some.inj reached] at happened
      exact absurd happened (fenced.completionsFresh worker _ writes author taken) }⟩

/-- A refresh of the completion that the row holds begins. -/
theorem beginRefresh (fenced : Fenced state) (worker : W) (refresh : CacheRefreshClaim)
    {row : QueueRow} (stored : state.row = some row) (completed : row.completedAt = some refresh.completedAt) :
    Fenced { state.become worker (.refreshing refresh) with
      history := .refreshBegan worker refresh :: state.history } := by
  have latest := fenced.completed row _ stored completed
  have idle := fenced.become worker (idle_descends _)
  have others : ∀ other, other ≠ worker →
      (state.become worker (.refreshing refresh)).workers other = state.workers other :=
    fun other different => workers_become_of_ne different _
  have rest : ∀ other,
      ((state.become worker (.refreshing refresh)).workers other).reading =
        ((state.become worker .idle).workers other).reading ∧
      ((state.become worker (.refreshing refresh)).workers other).completion =
        ((state.become worker .idle).workers other).completion ∧
      ((state.become worker (.refreshing refresh)).workers other).claim =
        ((state.become worker .idle).workers other).claim := by
    intro other
    by_cases same : other = worker
    · rw [same, workers_become_self, workers_become_self]
      exact ⟨rfl, rfl, rfl⟩
    · rw [others other same, workers_become_of_ne same]
      exact ⟨rfl, rfl, rfl⟩
  have happenedBefore : ∀ {author claim completedAt},
      .completed author claim completedAt ∈ Event.refreshBegan worker refresh :: state.history →
        .completed author claim completedAt ∈ state.history := fun happened =>
    (List.mem_cons.mp happened).resolve_left nofun
  exact {
    readings := fun other at_ member => idle.readings other at_ ((rest other).1 ▸ member)
    readingsApart := fun first second different at_ member also =>
      idle.readingsApart first second different at_ ((rest first).1 ▸ member)
        ((rest second).1 ▸ also)
    completions := fun other completedAt member =>
      idle.completions other completedAt ((rest other).2.1 ▸ member)
    completionsApart := fun first second different completedAt member also =>
      idle.completionsApart first second different completedAt ((rest first).2.1 ▸ member)
        ((rest second).2.1 ▸ also)
    past := fun author claim completedAt happened =>
      fenced.past author claim completedAt (happenedBefore happened)
    completionsFresh := fun other completedAt member author claim happened =>
      idle.completionsFresh other completedAt ((rest other).2.1 ▸ member) author claim
        (happenedBefore happened)
    current := fun other claim held => idle.current other claim ((rest other).2.2 ▸ held)
    completed := fun other completedAt equal reached =>
      (fenced.completed other completedAt equal reached).refreshBegan worker refresh
    refreshOf := by
      intro other held holds
      by_cases same : other = worker
      · subst same
        have own : (state.become other (.refreshing refresh)).workers other = .refreshing refresh :=
          workers_become_self _
        rw [own] at holds
        obtain rfl := Option.some.inj holds
        obtain ⟨author, claim, found, _⟩ := latest
        exact ⟨author, claim, List.mem_cons_of_mem _ (List.mem_of_find?_eq_some found)⟩
      · change ((state.become worker (.refreshing refresh)).workers other).refresh = some held at holds
        rw [others other same] at holds
        obtain ⟨author, claim, happened⟩ := fenced.refreshOf other held holds
        exact ⟨author, claim, List.mem_cons_of_mem _ happened⟩
    refreshes := by
      intro other held holds current equal reached
      by_cases same : other = worker
      · subst same
        have own : (state.become other (.refreshing refresh)).workers other = .refreshing refresh :=
          workers_become_self _
        change ((state.become other (.refreshing refresh)).workers other).refresh = some held at holds
        rw [own] at holds
        obtain rfl := Option.some.inj holds
        exact latest.began other
      · change ((state.become worker (.refreshing refresh)).workers other).refresh = some held at holds
        rw [others other same] at holds
        exact (fenced.refreshes other held holds current equal reached).refreshBegan worker refresh }

end Fenced

/-- A recorded failure does not write, as its retry time, the lease that another worker
holds with the same attempt number. -/
def RetryApart (state : State W) (action : Action W) : Prop :=
  ∀ worker message typeName, action = .fail worker message typeName →
    ∀ claim failedAt, state.workers worker = .failing claim failedAt →
      ∀ row, state.row = some row → row.Holds claim →
        ∀ other, other ≠ worker → ∀ held, (state.workers other).claim = some held →
          held.attemptCount = claim.attemptCount →
            held.leaseUntil ≠ failedAt + retryDelay claim.attemptCount

theorem Fenced.leave (fenced : Fenced state) (worker : W) : Fenced (state.become worker .idle) :=
  fenced.become worker (idle_descends _)

variable {action : Action W} {next : State W}

/-- One step keeps the fence. -/
theorem fenced_step (fenced : Fenced state) (apart : RetryApart state action)
    (taken : step state action = some next) : Fenced next := by
  cases action with
  | enqueue reason requestedAt => exact Option.some.inj taken ▸ fenced.enqueue reason requestedAt
  | begin worker now =>
      simp only [step] at taken
      split at taken
      · exact fenced.read taken (fun at_ member => Or.inl (Option.some.inj member).symm)
          nofun nofun nofun
      · cases taken
  | claimCache worker =>
      simp only [step] at taken
      split at taken
      · rename_i now began
        obtain ⟨⟨refresh, changed⟩, claimed, rfl⟩ := Option.map_eq_some_iff.mp taken
        obtain ⟨row, stored, claimed⟩ := Option.bind_eq_some_iff.mp claimed
        rw [claimPendingCache] at claimed
        split at claimed
        · cases claimed
        · rename_i completedAt completed
          obtain ⟨-, claimed⟩ := Option.ite_none_right_eq_some.mp claimed
          obtain ⟨rfl, rfl⟩ := Prod.mk.inj (Option.some.inj claimed)
          have kept : Fenced { state with
              row := some { row with cacheStartedAt := some (now + claimLease) } } :=
            fenced.changeRow stored (fun _ _ _ => id) fun _ => id
          exact kept.beginRefresh worker ⟨row.attemptCount, completedAt, now + claimLease⟩ rfl
            completed
      · cases taken
  | passCache worker =>
      simp only [step] at taken
      split at taken
      · rename_i now began
        obtain rfl := Option.some.inj taken
        refine fenced.become worker ?_
        rw [began]
        exact ⟨fun _ => id, nofun, nofun, nofun⟩
      · cases taken
  | claim worker =>
      simp only [step] at taken
      split at taken
      · rename_i now searching
        obtain ⟨⟨claim, changed⟩, claimed, rfl⟩ := Option.map_eq_some_iff.mp taken
        obtain ⟨row, stored, claimed⟩ := Option.bind_eq_some_iff.mp claimed
        exact fenced.claimed searching claimed
      · cases taken
  | prepared worker completedAt =>
      simp only [step] at taken
      split at taken
      · rename_i claim preparing
        refine fenced.read taken ?_ (fun at_ member => (Option.some.inj member).symm) ?_ nofun
        · rw [preparing]
          exact fun at_ => Or.inr
        · rw [preparing]
          exact fun held => id
      · cases taken
  | raised worker failedAt =>
      simp only [step] at taken
      split at taken
      · rename_i claim preparing
        refine fenced.read taken ?_ nofun ?_ nofun
        · rw [preparing]
          exact fun at_ => Or.inr
        · rw [preparing]
          exact fun held => id
      · rename_i claim completedAt completing
        refine fenced.read taken ?_ nofun ?_ nofun
        · rw [completing]
          exact fun at_ => Or.inr
        · rw [completing]
          exact fun held => id
      · cases taken
  | complete worker =>
      simp only [step] at taken
      split at taken
      · rename_i claim completedAt completing
        split at taken
        · exact Option.some.inj taken ▸ fenced.leave worker
        · rename_i changed done
          obtain ⟨row, stored, done⟩ := Option.bind_eq_some_iff.mp done
          obtain ⟨completed, idle⟩ :=
            fenced.complete completing stored done (idle_descends _) rfl
          have refreshing :=
            idle.beginRefresh worker (ownRefresh claim completedAt) rfl completed
          rw [← Option.some.inj taken]
          exact Eq.subst (motive := fun workers => Fenced
            ({ state.become worker .idle with
                row := some changed
                workers := workers
                history := .refreshBegan worker (ownRefresh claim completedAt) ::
                  .completed worker claim completedAt :: state.history } : State W))
            (Function.update_idem ..) refreshing
      · cases taken
  | completeUnheard worker failedAt =>
      simp only [step] at taken
      split at taken
      · rename_i claim completedAt completing
        obtain ⟨changed, done, taken⟩ := Option.bind_eq_some_iff.mp taken
        obtain ⟨row, stored, done⟩ := Option.bind_eq_some_iff.mp done
        have descends : (Worker.preparing claim).Descends (state.workers worker) := by
          rw [completing]
          exact ⟨fun _ => id, nofun, fun _ => id, nofun⟩
        obtain ⟨completed, kept⟩ := fenced.complete completing stored done descends rfl
        have own : (state.become worker (.preparing claim)).workers worker = .preparing claim :=
          workers_become_self _
        have late : ({ state.become worker (.preparing claim) with
            row := some changed
            history := .completed worker claim completedAt :: state.history } : State W).read
              failedAt worker (.failing claim failedAt) = some next := by
          rw [← taken, State.read, State.read, State.become, State.become, State.become,
            Function.update_idem]
        refine kept.read late ?_ nofun ?_ nofun
        · exact fun at_ member => Or.inr (own.symm ▸ member)
        · exact fun held holds => own.symm ▸ holds
      · cases taken
  | fail worker message typeName =>
      simp only [step] at taken
      split at taken
      · rename_i claim failedAt failing
        split at taken
        · exact Option.some.inj taken ▸ fenced.leave worker
        · rename_i changed recorded
          obtain ⟨row, stored, recorded⟩ := Option.bind_eq_some_iff.mp recorded
          obtain ⟨fits, rfl⟩ := Option.ite_some_none_eq_some.mp recorded
          obtain rfl := Option.some.inj taken
          have idle : Fenced (state.become worker .idle) := fenced.leave worker
          refine idle.changeRow stored (fun other held holds refits => ?_) fun _ => id
          by_cases same : other = worker
          · subst same
            rw [workers_become_self] at holds
            cases holds
          · rw [workers_become_of_ne same] at holds
            exact absurd (Option.some.inj refits.2.2).symm
              (apart worker message typeName rfl claim failedAt failing row stored fits other same
                held holds (refits.2.1.symm.trans fits.2.1))
      · cases taken
  | refreshed worker readyAt =>
      simp only [step] at taken
      split at taken
      · rename_i refresh refreshing
        refine fenced.read taken nofun nofun nofun ?_
        rw [refreshing]
        exact fun held => id
      · cases taken
  | markReady worker =>
      simp only [step] at taken
      split at taken
      · split at taken
        · exact Option.some.inj taken ▸ fenced.leave worker
        · rename_i changed marked
          obtain ⟨row, stored, marked⟩ := Option.bind_eq_some_iff.mp marked
          obtain ⟨-, rfl⟩ := Option.ite_some_none_eq_some.mp marked
          obtain rfl := Option.some.inj taken
          have idle : Fenced (state.become worker .idle) := fenced.leave worker
          exact idle.changeRow stored (fun _ _ _ => id) fun _ => id
      · cases taken
  | leave worker => exact Option.some.inj taken ▸ fenced.leave worker

theorem Fenced.of_reachable {clock : ℤ}
    (reachable : Reachable (State.initial W clock) step RetryApart state) : Fenced state :=
  reachable.invariant (fenced_initial clock) fun _ _ _ fenced apart taken =>
    fenced_step fenced apart taken

/-! ## Nothing is lost -/

/-- A completed day was claimed after its latest enqueue, overtaken workers change nothing,
and the caches are ready only after a refresh that began after the completion. -/
structure NothingLost (state : State W) : Prop where
  completed : ∀ row completedAt, state.row = some row → row.completedAt = some completedAt →
    CompletedSinceEnqueue state.history completedAt
  overtaken : ∀ action next worker claim, step state action = some next →
    action.worker = some worker → (state.workers worker).claim = some claim →
      Overtaken state.history worker claim → next.row = state.row
  ready : ∀ action next row readyAt, step state action = some next → next.row = some row →
    row.cacheReadyAt = some readyAt → state.row.bind QueueRow.cacheReadyAt ≠ some readyAt →
      ∃ worker refresh, action = .markReady worker ∧
        state.workers worker = .marking refresh readyAt ∧
        row.completedAt = some refresh.completedAt ∧
        BeganSinceCompletion state.history worker refresh

theorem row_read {now : ℤ} {phase : Worker} (taken : state.read now worker phase = some next) :
    next.row = state.row := by
  obtain ⟨-, rfl⟩ := Option.ite_some_none_eq_some.mp taken
  rfl

/-- A worker whose claim was overtaken changes nothing. -/
theorem Fenced.overtaken (fenced : Fenced state) {claim : RecalcClaim}
    (taken : step state action = some next) (acts : action.worker = some worker)
    (held : (state.workers worker).claim = some claim)
    (overtaken : Overtaken state.history worker claim) : next.row = state.row := by
  have unfit : ∀ row, state.row = some row → ¬row.Holds claim := fun row stored fits =>
    overtaken (fenced.current worker claim held row stored fits)
  have superseded : ∀ completedAt, state.row.bind (completeClaim claim completedAt) = none := by
    intro completedAt
    rw [Option.bind_eq_none_iff]
    exact fun row stored => if_neg (unfit row stored)
  have unrecorded : ∀ message typeName failedAt,
      state.row.bind (recordFailure claim message typeName failedAt) = none := by
    intro message typeName failedAt
    rw [Option.bind_eq_none_iff]
    exact fun row stored => if_neg (unfit row stored)
  generalize phase : state.workers worker = at_ at held
  cases action with
  | enqueue reason requestedAt => cases acts
  | begin other now | claimCache other | passCache other | claim other | refreshed other now
  | markReady other =>
      obtain rfl := Option.some.inj acts
      cases at_ <;> cases held <;> simp only [step, phase] at taken <;> cases taken
  | prepared other completedAt | raised other failedAt =>
      obtain rfl := Option.some.inj acts
      cases at_ <;> cases held <;> simp only [step, phase] at taken <;>
        first
        | exact row_read taken
        | cases taken
  | complete other =>
      obtain rfl := Option.some.inj acts
      cases at_ <;> cases held <;> simp only [step, phase, superseded] at taken
      · cases taken
      · exact Option.some.inj taken ▸ rfl
      · cases taken
  | completeUnheard other failedAt =>
      obtain rfl := Option.some.inj acts
      cases at_ <;> cases held <;> simp only [step, phase, superseded] at taken <;> cases taken
  | fail other message typeName =>
      obtain rfl := Option.some.inj acts
      cases at_ <;> cases held <;> simp only [step, phase, unrecorded] at taken
      · cases taken
      · cases taken
      · exact Option.some.inj taken ▸ rfl
  | leave other => exact Option.some.inj taken ▸ rfl

/-- Only a refresh of the completion that the row holds makes the caches ready. -/
theorem Fenced.ready (fenced : Fenced state) {row : QueueRow} {readyAt : ℤ}
    (taken : step state action = some next) (stored : next.row = some row)
    (ready : row.cacheReadyAt = some readyAt)
    (fresh : state.row.bind QueueRow.cacheReadyAt ≠ some readyAt) :
    ∃ worker refresh, action = .markReady worker ∧
      state.workers worker = .marking refresh readyAt ∧
      row.completedAt = some refresh.completedAt ∧
      BeganSinceCompletion state.history worker refresh := by
  have unchanged : next.row ≠ state.row := fun same =>
    fresh (by rw [← same, stored, Option.bind_some, ready])
  cases action with
  | enqueue reason requestedAt =>
      obtain rfl := Option.some.inj taken
      obtain rfl := Option.some.inj stored
      have cleared : (enqueueRecalc reason requestedAt state.row).cacheReadyAt = none := by
        cases state.row <;> rfl
      exact absurd (cleared.symm.trans ready) nofun
  | begin worker now | prepared worker now | refreshed worker now =>
      simp only [step] at taken
      split at taken
      · exact absurd (row_read taken) unchanged
      · cases taken
  | raised worker now =>
      simp only [step] at taken
      split at taken
      · exact absurd (row_read taken) unchanged
      · exact absurd (row_read taken) unchanged
      · cases taken
  | passCache worker =>
      simp only [step] at taken
      split at taken
      · exact absurd (Option.some.inj taken ▸ rfl) unchanged
      · cases taken
  | leave worker => exact absurd (Option.some.inj taken ▸ rfl) unchanged
  | claimCache worker =>
      simp only [step] at taken
      split at taken
      · obtain ⟨⟨refresh, changed⟩, claimed, rfl⟩ := Option.map_eq_some_iff.mp taken
        obtain ⟨old, before, claimed⟩ := Option.bind_eq_some_iff.mp claimed
        rw [claimPendingCache] at claimed
        split at claimed
        · cases claimed
        · split at claimed
          · rename_i pending
            obtain ⟨rfl, rfl⟩ := Prod.mk.inj (Option.some.inj claimed)
            obtain rfl := Option.some.inj stored
            exact absurd (pending.1.symm.trans ready) nofun
          · cases claimed
      · cases taken
  | claim worker =>
      simp only [step] at taken
      split at taken
      · obtain ⟨⟨claim, changed⟩, claimed, rfl⟩ := Option.map_eq_some_iff.mp taken
        obtain ⟨old, before, claimed⟩ := Option.bind_eq_some_iff.mp claimed
        obtain ⟨-, claimed⟩ := Option.ite_none_right_eq_some.mp claimed
        obtain ⟨rfl, rfl⟩ := Prod.mk.inj (Option.some.inj claimed)
        obtain rfl := Option.some.inj stored
        exact absurd (by rw [before]; exact ready) fresh
      · cases taken
  | complete worker =>
      simp only [step] at taken
      split at taken
      · split at taken
        · exact absurd (Option.some.inj taken ▸ rfl) unchanged
        · rename_i changed done
          obtain ⟨old, before, done⟩ := Option.bind_eq_some_iff.mp done
          obtain rfl := Option.some.inj taken
          obtain rfl := Option.some.inj stored
          obtain ⟨-, done⟩ := Option.ite_none_right_eq_some.mp done
          exact absurd ((Option.some.inj done ▸ rfl : changed.cacheReadyAt = none).symm.trans
            ready) nofun
      · cases taken
  | completeUnheard worker failedAt =>
      simp only [step] at taken
      split at taken
      · obtain ⟨changed, done, taken⟩ := Option.bind_eq_some_iff.mp taken
        obtain ⟨old, before, done⟩ := Option.bind_eq_some_iff.mp done
        have same : some changed = some row := (row_read taken).symm.trans stored
        obtain rfl := Option.some.inj same
        obtain ⟨-, done⟩ := Option.ite_none_right_eq_some.mp done
        exact absurd ((Option.some.inj done ▸ rfl : changed.cacheReadyAt = none).symm.trans
          ready) nofun
      · cases taken
  | fail worker message typeName =>
      simp only [step] at taken
      split at taken
      · split at taken
        · exact absurd (Option.some.inj taken ▸ rfl) unchanged
        · rename_i changed recorded
          obtain ⟨old, before, recorded⟩ := Option.bind_eq_some_iff.mp recorded
          obtain rfl := Option.some.inj taken
          obtain rfl := Option.some.inj stored
          obtain ⟨-, rfl⟩ := Option.ite_some_none_eq_some.mp recorded
          exact absurd (by rw [before]; exact ready) fresh
      · cases taken
  | markReady worker =>
      simp only [step] at taken
      split at taken
      · rename_i refresh markedAt marking
        split at taken
        · exact absurd (Option.some.inj taken ▸ rfl) unchanged
        · rename_i changed marked
          obtain ⟨old, before, marked⟩ := Option.bind_eq_some_iff.mp marked
          obtain rfl := Option.some.inj taken
          obtain rfl := Option.some.inj stored
          obtain ⟨fits, rfl⟩ := Option.ite_some_none_eq_some.mp marked
          obtain rfl := Option.some.inj ready
          have held : (state.workers worker).refresh = some refresh := by rw [marking]; rfl
          exact ⟨worker, refresh, rfl, marking, fits.1,
            fenced.refreshes worker refresh held old before fits.1⟩
      · cases taken

/-- In a run in which recorded failures keep their retry times apart from the leases that
others hold, no recalculation is lost. -/
theorem recalc_nothingLost {clock : ℤ}
    (reachable : Reachable (State.initial W clock) step RetryApart state) : NothingLost state :=
  have fenced := Fenced.of_reachable reachable
  { completed := fenced.completed
    overtaken := fun _ _ _ _ taken acts held overtaken => fenced.overtaken taken acts held overtaken
    ready := fun _ _ _ _ taken stored ready fresh => fenced.ready taken stored ready fresh }

end Step

/-- A worker completes the day, after it was enqueued again while another worked on it. -/
def enqueuedWhilePreparing : List (Action ℕ) :=
  [.enqueue "attendance_changed" 0, .begin 1 1, .passCache 1, .claim 1,
    .enqueue "attendance_changed" 2, .begin 2 3, .passCache 2, .claim 2, .prepared 1 4, .complete 1,
    .prepared 2 5, .complete 2]

theorem recalc_nothingLost_enqueuedWhilePreparing : ∃ state : State ℕ,
    state.row.bind QueueRow.completedAt = some 5 ∧ NothingLost state := by
  have outcome : (run step (State.initial ℕ 0) enqueuedWhilePreparing).bind
      (fun state => state.row.bind QueueRow.completedAt) = some 5 := by decide
  obtain ⟨state, ran, completed⟩ := Option.bind_eq_some_iff.mp outcome
  refine ⟨state, completed,
    recalc_nothingLost (Reachable.initial.run ?_ ran)⟩
  intro action member state worker message typeName isFail
  subst isFail
  simp [enqueuedWhilePreparing] at member

/-- The first worker claims the day and takes long. The day is enqueued, claimed again,
completed and enqueued, which starts the attempts afresh. The third worker's failure then
writes the lease of the first as its retry time. -/
def retryMeetsLease : List (Action ℕ) :=
  [.enqueue "attendance_changed" 0, .begin 1 1000000, .passCache 1, .claim 1,
    .enqueue "attendance_changed" 1500000, .begin 2 2000000, .passCache 2, .claim 2,
    .prepared 2 3000000, .complete 2, .leave 2, .enqueue "attendance_changed" 3500000,
    .begin 3 4000000, .passCache 3, .claim 3, .raised 3 886000000,
    .fail 3 "meter offline" "RuntimeError", .prepared 1 887000000, .complete 1]

/-- In some run a claim from before two enqueues completes the day. -/
theorem recalc_loses_enqueue : ¬∀ state : State ℕ,
    Reachable (State.initial ℕ 0) step (fun _ _ => True) state → NothingLost state := by
  intro nothingLost
  have outcome : (run step (State.initial ℕ 0) retryMeetsLease).map (fun state =>
      (state.row.bind QueueRow.completedAt, state.history.find? Event.turns,
        state.history.takeWhile fun event => !event.isEnqueued)) =
      some (some 887000000, some (.completed 1 ⟨1, 901000000⟩ 887000000),
        [.refreshBegan 1 ⟨1, 887000000, 1787000000⟩, .completed 1 ⟨1, 901000000⟩ 887000000,
          .claimed 3 ⟨1, 904000000⟩]) := by decide
  obtain ⟨state, ran, fields⟩ := Option.map_eq_some_iff.mp outcome
  obtain ⟨completed, rest⟩ := Prod.mk.inj fields
  obtain ⟨turn, since⟩ := Prod.mk.inj rest
  have reachable := Reachable.initial.run (fun _ _ _ => trivial) ran
  obtain ⟨row, stored, at_⟩ := Option.bind_eq_some_iff.mp completed
  obtain ⟨worker, claim, latest, taken⟩ := (nothingLost state reachable).completed row _ stored at_
  obtain ⟨rfl, rfl, -⟩ := Event.completed.inj (Option.some.inj (turn.symm.trans latest))
  rw [since] at taken
  revert taken
  decide

end PlantManager.Attendance.Recalc

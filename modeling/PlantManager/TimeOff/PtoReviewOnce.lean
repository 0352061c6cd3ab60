import PlantManager.TimeOff.PtoReview

/-! # One task, closed once

Whatever the workers do, there is one active review task at most, one message at most, which is
posted for a settled request, and the task is archived after it. A request that the review approves
was verified twice by the same claim, and a settled request stays settled
(`TimeOff.PtoReview.one_task`).
-/

namespace PlantManager.TimeOff.PtoReview

open Transition

variable {site : Site} {shared next : Shared} {owner : ℕ} {worker : Worker} {answer : Answer}

/-! ## What it is for -/

/-- The claim read the one matching approved leave, linked it and read it again. -/
def Verified (site : Site) (owner : ℕ) (pto : ℤ) (log : List Event) : Prop :=
  ∃ first second, site.Validated pto first ∧ site.Validated pto second ∧
    [.searched owner [pto], .read owner (some first), .linked owner pto,
      .searched owner [pto], .read owner (some second)].Sublist log

structure OneTask (site : Site) (world : World) : Prop where
  active : ∀ first second : ℕ, world.shared.tasks[first]? = some true →
    world.shared.tasks[second]? = some true → first = second
  message : world.shared.messages.length ≤ 1
  messageSettled : world.shared.messages ≠ [] → world.shared.row.state.Terminal
  archived : ∀ task, world.shared.tasks[task]? = some false → task ∈ world.shared.messages
  posts : ∀ action after, step site world action = some after →
    after.shared.messages ≠ world.shared.messages → world.shared.row.state.Terminal
  archives : ∀ action after task, step site world action = some after →
    world.shared.tasks[task]? = some true → after.shared.tasks[task]? = some false →
      task ∈ world.shared.messages
  approves : ∀ claim answer after, step site world (.work claim answer) = some after →
    world.shared.row.state ≠ .approved → after.shared.row.state = .approved →
      ∃ pto, after.shared.row.ptoLeaveId = some pto ∧ Verified site claim pto world.shared.log
  settled : ∀ action after, step site world action = some after →
    world.shared.row.state.Terminal → after.shared.row.state = world.shared.row.state
  closed : ∀ action after, step site world action = some after →
    world.shared.row.resolutionStep = .closed → after.shared.row.resolutionStep = .closed

/-! ## What holds of the request -/

structure Global (shared : Shared) : Prop where
  active : ∀ first second : ℕ, shared.tasks[first]? = some true → shared.tasks[second]? = some true →
    first = second
  message : shared.messages.length ≤ 1
  owned : ∀ task ∈ shared.messages,
    shared.row.state.Terminal ∧ shared.row.odooTaskId = some task
  archived : ∀ task, shared.tasks[task]? = some false → task ∈ shared.messages
  saved : ∀ task ∈ shared.row.odooTaskId, task < shared.tasks.length
  marked : shared.row.resolutionStep = .messagePosted → shared.messages ≠ []
  unsettled : ¬shared.row.state.Terminal → shared.row.resolutionStep = .none

/-- What a step keeps. -/
structure Keeps (shared next : Shared) : Prop where
  posts : next.messages ≠ shared.messages → shared.row.state.Terminal
  archives : ∀ task, shared.tasks[task]? = some true → next.tasks[task]? = some false →
    task ∈ shared.messages
  settled : shared.row.state.Terminal → next.row.state = shared.row.state
  closed : shared.row.resolutionStep = .closed → next.row.resolutionStep = .closed

/-- There is no other active task. -/
def OnlyActive (shared : Shared) (task : ℕ) : Prop :=
  task < shared.tasks.length ∧ ∀ other : ℕ, shared.tasks[other]? = some true → other = task

def NoneActive (shared : Shared) : Prop := ∀ task : ℕ, shared.tasks[task]? ≠ some true

/-- The holder of the lease delivers the outcome of the request as it is. -/
def Delivers (shared : Shared) (worker : Worker) : Prop :=
  shared.row.state.Terminal ∧ worker.row.odooTaskId = shared.row.odooTaskId ∧
    worker.row.odooTaskId ≠ none ∧ (worker.row.resolutionStep = .messagePosted → shared.messages ≠ [])

/-- What the holder of the lease knows. -/
def Sane (shared : Shared) (worker : Worker) : Prop :=
  (∀ task ∈ worker.row.odooTaskId, task < shared.tasks.length) ∧
  match worker.phase with
  | .identifying task => NoneActive shared ∧ task < shared.tasks.length
  | .renewing (.create _) | .creating _ => NoneActive shared
  | .savingTask task | .renewing (.refresh _ task) | .refreshing _ task => OnlyActive shared task
  | .reopening => Delivers shared worker ∧ worker.row.resolutionStep ≠ .closed
  | .findingMessages _ | .findingAgain _ =>
      Delivers shared worker ∧ worker.row.resolutionStep = .none
  | .renewing (.post _) | .posting _ =>
      Delivers shared worker ∧ worker.row.resolutionStep = .none ∧ shared.messages = []
  | .checkpointing _ =>
      Delivers shared worker ∧ worker.row.resolutionStep = .none ∧ shared.messages ≠ []
  | .renewing .close | .closing | .readingClosed =>
      Delivers shared worker ∧ shared.messages ≠ []
  | _ => True

/-- What a claim has read so far. -/
def HasRead (site : Site) (log : List Event) (owner : ℕ) : Phase → Prop
  | .reading none candidate => [.searched owner [candidate]].Sublist log
  | .adopting pto => ∃ first, site.Validated pto first ∧
      [.searched owner [pto], .read owner (some first)].Sublist log
  | .renewing (.verify pto) | .matching (some pto) => ∃ first, site.Validated pto first ∧
      [.searched owner [pto], .read owner (some first), .linked owner pto].Sublist log
  | .reading (some pto) candidate => ∃ first, site.Validated pto first ∧
      [.searched owner [pto], .read owner (some first), .linked owner pto,
        .searched owner [candidate]].Sublist log
  | .finalizing pto => Verified site owner pto log
  | _ => True

theorem Keeps.refl (shared : Shared) : Keeps shared shared where
  posts := fun differs => absurd rfl differs
  archives := fun _ active archived => nomatch active.symm.trans archived
  settled := fun _ => rfl
  closed := fun closed => closed

theorem Keeps.frame (row : next.row = shared.row) (tasks : next.tasks = shared.tasks)
    (messages : next.messages = shared.messages) : Keeps shared next where
  posts := fun differs => absurd messages differs
  archives := by
    intro task active archived
    rw [tasks, active] at archived
    cases archived
  settled := fun _ => congrArg Row.state row
  closed := fun closed => row.symm ▸ closed

theorem Global.frame (sound : Global shared) (row : next.row = shared.row)
    (tasks : next.tasks = shared.tasks) (messages : next.messages = shared.messages) :
    Global next where
  active := tasks ▸ sound.active
  message := messages ▸ sound.message
  owned := by rw [messages, row]; exact sound.owned
  archived := by rw [tasks, messages]; exact sound.archived
  saved := by rw [tasks, row]; exact sound.saved
  marked := by rw [messages, row]; exact sound.marked
  unsettled := row ▸ sound.unsettled

theorem Sane.frame (sane : Sane shared worker) (row : next.row = shared.row)
    (tasks : next.tasks = shared.tasks) (messages : next.messages = shared.messages) :
    Sane next worker := by
  cases shared
  cases next
  cases row
  cases tasks
  cases messages
  exact sane

/-! ## Statements -/

/-- What an update may do with the row. -/
structure Updates (shared : Shared) (row : Row) : Prop where
  settled : shared.row.state.Terminal →
    row.state = shared.row.state ∧ row.odooTaskId = shared.row.odooTaskId
  closed : shared.row.resolutionStep = .closed → row.resolutionStep = .closed
  saved : ∀ task ∈ row.odooTaskId, task < shared.tasks.length
  marked : row.resolutionStep = .messagePosted → shared.messages ≠ []
  unsettled : ¬row.state.Terminal → row.resolutionStep = .none

theorem Updates.keeps {row : Row} (updates : Updates shared row) :
    Keeps shared { shared with row } where
  posts := fun differs => absurd rfl differs
  archives := fun _ active archived => nomatch active.symm.trans archived
  settled := fun terminal => (updates.settled terminal).1
  closed := updates.closed

theorem Global.update {row : Row} (sound : Global shared) (updates : Updates shared row) :
    Global { shared with row } where
  active := sound.active
  message := sound.message
  owned := by
    intro task posted
    obtain ⟨terminal, owned⟩ := sound.owned task posted
    obtain ⟨state, same⟩ := updates.settled terminal
    refine ⟨?_, same.trans owned⟩
    exact state ▸ terminal
  archived := sound.archived
  saved := updates.saved
  marked := updates.marked
  unsettled := updates.unsettled

theorem statement_cases (shared : Shared) (owner : ℕ) (answer : Answer)
    (update : Row → Option Row) :
    ((shared.statement owner answer update).1 = shared ∧
      ∀ row, (shared.statement owner answer update).2 ≠ .row row) ∨
    ∃ row, shared.Holds owner ∧ update shared.row = some row ∧
      (shared.statement owner answer update).1 = { shared with row } ∧
      ((shared.statement owner answer update).2 = .row row ∨
        ∀ row, (shared.statement owner answer update).2 ≠ .row row) := by
  unfold Shared.statement
  split
  · left
    refine ⟨rfl, fun row same => ?_⟩
    dsimp only at same
    split at same <;> cases same
  · rename_i row updated
    obtain ⟨holds, updated⟩ := Option.ite_none_right_eq_some.mp updated
    cases answer with
    | answers => exact .inr ⟨row, holds, updated, rfl, .inl rfl⟩
    | raises landed | faults landed | refuses landed =>
        cases landed with
        | false => exact .inl ⟨rfl, fun _ => nofun⟩
        | true => exact .inr ⟨row, holds, updated, rfl, .inr fun _ => nofun⟩

variable {done : Row → Phase} {failed : Result → Phase} {row after : Row} {current pto : ℤ}
  {phase : Phase} {attempts : ℕ} {nextAt : Option (WithTop ℤ)}

theorem follow_row :
    worker.follow done failed (.row row) = { worker with row, phase := done row } := rfl

theorem follow_failed {result : Result} (none : ∀ row, result ≠ .row row) :
    worker.follow done failed result = worker.to (failed result) := by
  cases result with
  | row row => exact absurd rfl (none row)
  | stale | raised => rfl

/-- A phase about which nothing need be known. -/
def Plain : Phase → Prop
  | .identifying _ | .renewing (.create _) | .creating _ | .savingTask _
  | .renewing (.refresh _ _) | .refreshing _ _ | .reopening | .findingMessages _
  | .findingAgain _ | .renewing (.post _) | .posting _ | .checkpointing _ | .renewing .close
  | .closing | .readingClosed => False
  | _ => True

theorem Plain.sane {kind : Kind} (plain : Plain phase)
    (saved : ∀ task ∈ row.odooTaskId, task < shared.tasks.length) :
    Sane shared ⟨kind, current, row, phase⟩ := by
  refine ⟨saved, ?_⟩
  cases phase with
  | renewing goal => cases goal <;> trivial
  | _ => trivial

theorem sane_of_plain (plain : Plain phase)
    (saved : ∀ task ∈ worker.row.odooTaskId, task < shared.tasks.length) :
    Sane shared (worker.to phase) :=
  plain.sane saved

/-- What a step of the holder of the lease leads to. -/
def Steps (shared : Shared) (taken : Option (Shared × Option Worker)) : Prop :=
  ∀ next after, taken = some (next, after) →
    Global next ∧ Keeps shared next ∧ ∀ later ∈ after, Sane next later

theorem Steps.read (sound : Global shared) {done failed : Phase}
    (sane : Sane shared (worker.to done)) (otherwise : Sane shared (worker.to failed)) :
    Steps shared (worker.read shared answer done failed) := by
  intro next after taken
  cases taken
  refine ⟨sound, .refl shared, fun later held => ?_⟩
  cases held
  split
  · exact sane
  · exact otherwise

theorem Steps.execute (sound : Global shared)
    (saved : ∀ task ∈ worker.row.odooTaskId, task < shared.tasks.length) {update : Row → Option Row}
    (updates : ∀ row, update shared.row = some row → Updates shared row)
    (sane : ∀ row, update shared.row = some row →
      Sane { shared with row } { worker with row, phase := done row })
    (plain : ∀ result, Plain (failed result)) :
    Steps shared (worker.execute shared owner answer update done failed) := by
  intro next after taken
  change some ((shared.statement owner answer update).1,
    some (worker.follow done failed (shared.statement owner answer update).2)) = _ at taken
  obtain ⟨rfl, rfl⟩ := Prod.mk.inj (Option.some.inj taken)
  obtain ⟨same, none⟩ | ⟨row, -, updated, same, returned | none⟩ :=
    statement_cases shared owner answer update
  · rw [same, follow_failed none]
    refine ⟨sound, .refl shared, fun later held => ?_⟩
    cases held
    exact sane_of_plain (plain _) saved
  · rw [same, returned, follow_row]
    refine ⟨sound.update (updates row updated), (updates row updated).keeps, fun later held => ?_⟩
    cases held
    exact sane row updated
  · rw [same, follow_failed none]
    refine ⟨sound.update (updates row updated), (updates row updated).keeps, fun later held => ?_⟩
    cases held
    exact sane_of_plain (plain _) saved

theorem Steps.change {changed : Shared} {done failed : Phase} (sound : Global shared)
    (after : Global changed) (keeps : Keeps shared changed)
    (sane : Sane changed (worker.to done)) (otherwise : Sane shared (worker.to failed))
    (landed : Sane changed (worker.to failed)) :
    Steps shared (worker.change shared owner answer changed done failed) := by
  intro next later taken
  obtain ⟨-, taken⟩ := Option.ite_none_right_eq_some.mp taken
  cases taken
  cases answer with
  | answers =>
      refine ⟨after, keeps, fun later held => ?_⟩
      cases held
      exact sane
  | raises known | faults known | refuses known =>
      cases known with
      | false =>
          refine ⟨sound, .refl shared, fun later held => ?_⟩
          cases held
          exact otherwise
      | true =>
          refine ⟨after, keeps, fun later held => ?_⟩
          cases held
          exact landed

/-! ## Updates -/

/-- A request that is not settled can be changed, and settled. -/
theorem Updates.of_open {row : Row} (sound : Global shared)
    (isOpen : ¬shared.row.state.Terminal)
    (resolution : row.resolutionStep = .none ∨
      row.state.Terminal ∧ row.resolutionStep ≠ .messagePosted)
    (saved : ∀ task ∈ row.odooTaskId, task < shared.tasks.length) : Updates shared row where
  settled := fun terminal => absurd terminal isOpen
  closed := fun closed => nomatch closed.symm.trans (sound.unsettled isOpen)
  saved := saved
  marked := by
    intro marked
    rcases resolution with none | ⟨-, other⟩
    · cases marked.symm.trans none
    · exact absurd marked other
  unsettled := fun unsettled => resolution.elim id fun settled => absurd settled.1 unsettled

theorem not_terminal_of_needsReview {state : State} (needsReview : state = .needsReview) :
    ¬state.Terminal := by
  rw [needsReview]
  decide

theorem updates_markNeedsReview (sound : Global shared)
    (updated : markNeedsReview current shared.row = some row) : Updates shared row := by
  obtain ⟨allowed, updated⟩ := Option.ite_none_right_eq_some.mp updated
  have isOpen : ¬shared.row.state.Terminal := by
    intro terminal
    rcases terminal with same | same <;> rw [same] at allowed <;> exact absurd allowed (by decide)
  obtain rfl := Option.some.inj updated
  exact .of_open sound isOpen (.inl (sound.unsettled isOpen)) sound.saved

theorem updates_saveTaskDelivery {task : Option ℕ} {nextAt : WithTop ℤ} (sound : Global shared)
    (saved : ∀ saved ∈ task, saved < shared.tasks.length)
    (updated : saveTaskDelivery task attempts nextAt shared.row = some row) :
    Updates shared row := by
  obtain ⟨needsReview, rfl⟩ := Option.ite_some_none_eq_some.mp updated
  have isOpen := not_terminal_of_needsReview needsReview
  exact .of_open sound isOpen (.inl (sound.unsettled isOpen)) saved

theorem updates_adoptExternalPto (sound : Global shared)
    (updated : adoptExternalPto pto shared.row = some row) : Updates shared row := by
  obtain ⟨needsReview, rfl⟩ := Option.ite_some_none_eq_some.mp updated
  have isOpen := not_terminal_of_needsReview needsReview
  exact .of_open sound isOpen (.inl (sound.unsettled isOpen)) sound.saved

theorem settle_resolution (row : Row) (state : State) (current : ℤ) :
    (row.settle state current).resolutionStep ≠ .messagePosted := by
  unfold Row.settle
  dsimp only
  split <;> decide

theorem finalizeApproved_eq (updated : finalizeApproved pto current shared.row = some row) :
    ¬shared.row.state.Terminal ∧
      row = { shared.row with ptoApproved := true }.settle .approved current ∧
      row.ptoLeaveId = some pto := by
  obtain ⟨allowed, rfl⟩ := Option.ite_some_none_eq_some.mp updated
  refine ⟨?_, rfl, allowed.2⟩
  rcases allowed.1 with ⟨converting, -⟩ | needsReview
  · rw [converting]
    decide
  · exact not_terminal_of_needsReview needsReview

theorem updates_finalizeApproved (sound : Global shared)
    (updated : finalizeApproved pto current shared.row = some row) : Updates shared row := by
  obtain ⟨isOpen, rfl, -⟩ := finalizeApproved_eq updated
  exact .of_open sound isOpen (.inr ⟨.inl rfl, settle_resolution _ _ _⟩) sound.saved

theorem updates_finalizeManual (sound : Global shared)
    (updated : finalizeManual current shared.row = some row) : Updates shared row := by
  obtain ⟨needsReview, rfl⟩ := Option.ite_some_none_eq_some.mp updated
  exact .of_open sound (not_terminal_of_needsReview needsReview)
    (.inr ⟨.inr rfl, settle_resolution _ _ _⟩) sound.saved

variable {expected : Resolution} {conversion : Conversion} {goal : Goal}

theorem updates_saveResolutionDelivery {step : Resolution} (sound : Global shared)
    (closed : expected = .closed → step = .closed)
    (marked : step = .messagePosted → shared.messages ≠ [])
    (updated : saveResolutionDelivery expected step attempts nextAt shared.row = some row) :
    Updates shared row := by
  obtain ⟨allowed, rfl⟩ := Option.ite_some_none_eq_some.mp updated
  exact
    { settled := fun _ => ⟨rfl, rfl⟩
      closed := fun held => closed (allowed.2.symm.trans held)
      saved := sound.saved
      marked := marked
      unsettled := fun unsettled => absurd allowed.1 unsettled }

theorem updates_conversion (sound : Global shared)
    (updated : conversion.update current shared.row = some row) : Updates shared row := by
  cases conversion with
  | renew | stop => cases updated
  | review => exact updates_markNeedsReview sound updated
  | approve pto => exact updates_finalizeApproved sound updated
  | step ptoLeaveId ptoApproved | restore =>
      obtain ⟨converting, rfl⟩ := Option.ite_some_none_eq_some.mp updated
      have isOpen : ¬shared.row.state.Terminal := by
        rw [converting]
        decide
      exact .of_open sound isOpen (.inl (sound.unsettled isOpen)) sound.saved

/-! ## Where a worker begins -/

theorem plain_syncStart (row : Row) : Plain (syncStart row) := by
  unfold syncStart
  split_ifs <;> trivial

theorem plain_notVerified (worker : Worker) : Plain (notVerified worker) := by
  unfold notVerified
  split
  · exact plain_syncStart _
  · trivial

theorem plain_undelivered (permanent : Bool) (result : Result) :
    Plain (undelivered permanent result) := by
  cases result <;> trivial

theorem sane_deliverStart (sound : Global shared) (kind : Kind) (current : ℤ) :
    Sane shared ⟨kind, current, shared.row, deliverStart shared.row⟩ := by
  unfold deliverStart
  split
  · exact Plain.sane trivial sound.saved
  · rename_i delivers
    split
    · exact Plain.sane trivial sound.saved
    · rename_i some
      refine ⟨sound.saved, ⟨?_, rfl, some, sound.marked⟩, fun closed => ?_⟩
      · exact not_not.mp fun unsettled => delivers (.inl unsettled)
      · exact delivers (.inr (.inl closed))

theorem sane_posted {kind : Kind} (active : Bool)
    (saved : ∀ task ∈ row.odooTaskId, task < shared.tasks.length)
    (delivers : Delivers shared ⟨kind, current, row, phase⟩) (messages : shared.messages ≠ []) :
    Sane shared ⟨kind, current, row, posted active⟩ := by
  cases active with
  | false => exact Plain.sane trivial saved
  | true => exact ⟨saved, delivers, messages⟩

theorem sane_start (sound : Global shared) (kind : Kind) (current : ℤ) :
    Sane shared ⟨kind, current, shared.row, start kind shared.row⟩ := by
  unfold start
  split
  · exact (plain_syncStart _).sane sound.saved
  all_goals first
    | exact sane_deliverStart sound _ _
    | exact Plain.sane trivial sound.saved

/-! ## Active tasks -/

theorem mem_active {tasks : List Bool} {task : ℕ} :
    task ∈ (List.range tasks.length).filter (fun task => tasks[task]? = some true) ↔
      tasks[task]? = some true := by
  rw [List.mem_filter, decide_eq_true_iff, List.mem_range]
  refine and_iff_right_of_imp fun active => ?_
  by_contra outside
  rw [List.getElem?_eq_none (not_lt.mp outside)] at active
  cases active

theorem noneActive_of_exactTaskIds (none : exactTaskIds shared.tasks = []) :
    NoneActive shared := by
  intro task active
  have member := mem_active.mpr active
  unfold exactTaskIds at none
  rw [(List.take_eq_nil_iff.mp none).resolve_left (by decide)] at member
  cases member

theorem onlyActive_of_exactTaskIds {task : ℕ} (one : exactTaskIds shared.tasks = [task]) :
    OnlyActive shared task := by
  unfold exactTaskIds at one
  have all : (List.range shared.tasks.length).filter (fun task => shared.tasks[task]? = some true) =
      [task] := by
    generalize (List.range shared.tasks.length).filter _ = ids at one ⊢
    match ids, one with
    | [_], same => exact same
  constructor
  · have member : task ∈ (List.range shared.tasks.length).filter
        (fun task => shared.tasks[task]? = some true) := all ▸ List.mem_singleton_self task
    exact List.mem_range.mp (List.mem_filter.mp member).1
  · intro other active
    have member := mem_active.mpr active
    rw [all] at member
    exact List.mem_singleton.mp member

/-! ## A step of the holder -/

theorem renew_frame (shared : Shared) (owner : ℕ) (answer : Answer) :
    (shared.renew owner answer).1.row = shared.row ∧
      (shared.renew owner answer).1.tasks = shared.tasks ∧
      (shared.renew owner answer).1.messages = shared.messages ∧
      (shared.renew owner answer).1.log = shared.log := by
  unfold Shared.renew
  dsimp only
  split <;> exact ⟨rfl, rfl, rfl, rfl⟩

theorem plain_failed (goal : Goal) (permanent : Bool) (result : Result) :
    Plain (goal.failed permanent result) := by
  cases goal <;> cases result <;> trivial

/-- What is known before a renewal is known after it. -/
theorem Sane.renewed (sane : Sane shared (worker.to (.renewing goal))) :
    Sane shared (worker.to goal.phase) := by
  cases goal <;> exact sane

theorem Steps.renew (sound : Global shared) (sane : Sane shared (worker.to (.renewing goal))) :
    Steps shared (worker.renew shared owner answer goal) := by
  intro next after taken
  change some ((shared.renew owner answer).1, some (worker.to _)) = _ at taken
  obtain ⟨rfl, rfl⟩ := Prod.mk.inj (Option.some.inj taken)
  obtain ⟨row, tasks, messages, -⟩ := renew_frame shared owner answer
  refine ⟨sound.frame row tasks messages, .frame row tasks messages, fun later held => ?_⟩
  cases held
  refine Sane.frame ?_ row tasks messages
  split
  · exact sane.renewed
  · exact sane_of_plain (plain_failed _ _ _) sane.1

theorem Steps.look {event : Event} {done : Phase} (sound : Global shared)
    (saved : ∀ task ∈ worker.row.odooTaskId, task < shared.tasks.length) (plain : Plain done) :
    Steps shared (worker.look shared answer event done) := by
  intro next after taken
  unfold Worker.look at taken
  split at taken
  · cases taken
    refine ⟨sound.frame rfl rfl rfl, .frame rfl rfl rfl, fun later held => ?_⟩
    cases held
    exact sane_of_plain plain saved
  · cases taken
    refine ⟨sound, .refl shared, fun later held => ?_⟩
    cases held
    exact sane_of_plain trivial saved

/-- A leave is linked, whether or not its worker comes to know, or nothing happens. -/
theorem adopt_cases {after : Option Worker}
    (taken : worker.adopt shared owner answer pto = some (next, after)) :
    (next = shared ∧ after = some (worker.to .releasing)) ∨
    ∃ row, shared.Holds owner ∧ adoptExternalPto pto shared.row = some row ∧
      next = { shared with row, log := shared.log ++ [.linked owner pto] } ∧
      (after = some (worker.to (.renewing (.verify pto))) ∨
        after = some (worker.to .releasing)) := by
  unfold Worker.adopt Shared.statement at taken
  by_cases holds : shared.Holds owner
  swap
  · rw [if_neg holds] at taken
    simp only [holds, false_and, ↓reduceIte, Option.some.injEq, Prod.mk.injEq] at taken
    obtain ⟨rfl, rfl⟩ := taken
    refine .inl ⟨rfl, ?_⟩
    cases answer <;> rfl
  rw [if_pos holds] at taken
  cases updated : adoptExternalPto pto shared.row with
  | none =>
      rw [updated] at taken
      simp only [Option.isSome_none, Bool.false_eq_true, false_and, and_false, ↓reduceIte,
        Option.some.injEq, Prod.mk.injEq] at taken
      obtain ⟨rfl, rfl⟩ := taken
      refine .inl ⟨rfl, ?_⟩
      cases answer <;> rfl
  | some row =>
      rw [updated] at taken
      simp only [holds, Option.isSome_some, true_and, Option.some.injEq, Prod.mk.injEq] at taken
      obtain ⟨rfl, rfl⟩ := taken
      cases answer with
      | answers => exact .inr ⟨row, holds, rfl, rfl, .inl rfl⟩
      | raises landed | faults landed | refuses landed =>
          cases landed with
          | false => exact .inl ⟨rfl, rfl⟩
          | true => exact .inr ⟨row, holds, rfl, rfl, .inr rfl⟩

theorem Steps.adopt (sound : Global shared)
    (saved : ∀ task ∈ worker.row.odooTaskId, task < shared.tasks.length) :
    Steps shared (worker.adopt shared owner answer pto) := by
  intro next after taken
  obtain ⟨rfl, rfl⟩ | ⟨row, -, updated, rfl, rest⟩ := adopt_cases taken
  · refine ⟨sound, .refl _, fun later held => ?_⟩
    cases held
    exact sane_of_plain trivial saved
  · have updates := updates_adoptExternalPto sound updated
    refine ⟨(sound.update updates).frame rfl rfl rfl, ?_, fun later held => ?_⟩
    · exact { updates.keeps with }
    · obtain rfl | rfl := rest <;> cases held <;> exact sane_of_plain trivial saved

/-- A new task is the only active one. -/
theorem created (sound : Global shared) (none : NoneActive shared) :
    Global { shared with tasks := shared.tasks ++ [true] } ∧
      Keeps shared { shared with tasks := shared.tasks ++ [true] } ∧
      OnlyActive { shared with tasks := shared.tasks ++ [true] } shared.tasks.length := by
  have old {task : ℕ} {active : Bool} (held : (shared.tasks ++ [true])[task]? = some active) :
      shared.tasks[task]? = some active ∨ task = shared.tasks.length ∧ active = true := by
    rcases lt_trichotomy task shared.tasks.length with before | same | beyond
    · exact .inl ((List.getElem?_append_left before).symm.trans held)
    · rw [List.getElem?_append_right same.ge, same, Nat.sub_self] at held
      exact .inr ⟨same, (Option.some.inj held).symm⟩
    · rw [List.getElem?_eq_none (by rw [List.length_append]; exact beyond)] at held
      cases held
  have only (task : ℕ) (active : (shared.tasks ++ [true])[task]? = some true) :
      task = shared.tasks.length :=
    (old active).elim (fun before => absurd before (none task)) And.left
  have archived (task : ℕ) (held : (shared.tasks ++ [true])[task]? = some false) :
      shared.tasks[task]? = some false :=
    (old held).elim id fun new => nomatch new.2
  refine ⟨?_, ?_, ?_, only⟩
  · exact
      { sound with
        active := fun first second one other => (only first one).trans (only second other).symm
        archived := fun task held => sound.archived task (archived task held)
        saved := fun task held => by
          rw [List.length_append]
          exact Nat.lt_add_right 1 (sound.saved task held) }
  · exact
      { posts := fun differs => absurd rfl differs
        archives := fun task active _ => absurd active (none task)
        settled := fun _ => rfl
        closed := fun closed => closed }
  · change _ < (shared.tasks ++ [true]).length
    simp

/-- A task that is refreshed stays the only active one. -/
theorem refreshed {task : ℕ} (sound : Global shared) (only : OnlyActive shared task) :
    Global { shared with tasks := shared.tasks.set task true } ∧
      Keeps shared { shared with tasks := shared.tasks.set task true } ∧
      OnlyActive { shared with tasks := shared.tasks.set task true } task := by
  have one (other : ℕ) (active : (shared.tasks.set task true)[other]? = some true) :
      other = task := by
    by_contra differs
    rw [List.getElem?_set_ne (Ne.symm differs)] at active
    exact differs (only.2 other active)
  have archived (other : ℕ) (held : (shared.tasks.set task true)[other]? = some false) :
      shared.tasks[other]? = some false := by
    by_cases same : task = other
    · subst same
      rw [List.getElem?_set_self only.1] at held
      cases held
    · rwa [List.getElem?_set_ne same] at held
  refine ⟨?_, ?_, ?_, one⟩
  · exact
      { sound with
        active := fun first second held other => (one first held).trans (one second other).symm
        archived := fun other held => sound.archived other (archived other held)
        saved := fun saved held => by
          rw [List.length_set]
          exact sound.saved saved held }
  · exact
      { posts := fun differs => absurd rfl differs
        archives := fun other active held => nomatch active.symm.trans (archived other held)
        settled := fun _ => rfl
        closed := fun closed => closed }
  · change task < (shared.tasks.set task true).length
    rw [List.length_set]
    exact only.1

/-- The one message is posted to the task of the settled request. -/
theorem messaged {task : ℕ} (sound : Global shared) (terminal : shared.row.state.Terminal)
    (owned : shared.row.odooTaskId = some task) (none : shared.messages = []) :
    Global { shared with messages := shared.messages ++ [task] } ∧
      Keeps shared { shared with messages := shared.messages ++ [task] } := by
  constructor
  · exact
      { sound with
        message := by
          change (shared.messages ++ [task]).length ≤ 1
          rw [none]
          exact Nat.le_refl 1
        owned := fun other posted => by
          rw [none, List.nil_append, List.mem_singleton] at posted
          exact ⟨terminal, posted ▸ owned⟩
        archived := fun other held => List.mem_append_left _ (sound.archived other held)
        marked := fun _ => List.append_ne_nil_of_right_ne_nil _ (List.cons_ne_nil _ _) }
  · exact
      { posts := fun _ => terminal
        archives := fun _ active archived => nomatch active.symm.trans archived
        settled := fun _ => rfl
        closed := fun closed => closed }

/-- A task is archived after its message. -/
theorem closed {task : ℕ} (sound : Global shared) (owned : shared.row.odooTaskId = some task)
    (messages : shared.messages ≠ []) :
    Global { shared with tasks := shared.tasks.set task false } ∧
      Keeps shared { shared with tasks := shared.tasks.set task false } := by
  have posted : task ∈ shared.messages := by
    obtain ⟨other, member⟩ := List.exists_mem_of_ne_nil _ messages
    have same := (sound.owned other member).2
    rw [owned] at same
    exact Option.some.inj same ▸ member
  have active (other : ℕ) (held : (shared.tasks.set task false)[other]? = some true) :
      shared.tasks[other]? = some true := by
    by_cases same : task = other
    · subst same
      rw [List.getElem?_set_self (sound.saved task owned)] at held
      cases held
    · rwa [List.getElem?_set_ne same] at held
  have archived (other : ℕ) (held : (shared.tasks.set task false)[other]? = some false) :
      other ∈ shared.messages := by
    by_cases same : task = other
    · exact same ▸ posted
    · rw [List.getElem?_set_ne same] at held
      exact sound.archived other held
  constructor
  · exact
      { sound with
        active := fun first second held other =>
          sound.active first second (active first held) (active second other)
        archived := archived
        saved := fun saved held => by
          rw [List.length_set]
          exact sound.saved saved held }
  · exact
      { posts := fun differs => absurd rfl differs
        archives := fun other _ held => archived other held
        settled := fun _ => rfl
        closed := fun closed => closed }

/-- The messages of the task that is delivered are all there are. -/
theorem Delivers.found (sound : Global shared) (delivers : Delivers shared worker) :
    (∃ task ∈ worker.row.odooTaskId, task ∈ shared.messages) ↔ shared.messages ≠ [] := by
  constructor
  · rintro ⟨task, -, posted⟩
    exact List.ne_nil_of_mem posted
  · intro messages
    obtain ⟨task, posted⟩ := List.exists_mem_of_ne_nil _ messages
    exact ⟨task, delivers.2.1.trans (sound.owned task posted).2, posted⟩

/-- A delivery goes on with a row that was saved. -/
theorem steps_saveResolutionDelivery {step : Resolution} (sound : Global shared)
    (saved : ∀ task ∈ worker.row.odooTaskId, task < shared.tasks.length)
    (closed : expected = .closed → step = .closed)
    (marked : shared.row.resolutionStep = expected → step = .messagePosted → shared.messages ≠ [])
    (sane : ∀ row, saveResolutionDelivery expected step attempts nextAt shared.row = some row →
      Updates shared row → Sane { shared with row } { worker with row, phase := done row })
    (plain : ∀ result, Plain (failed result)) :
    Steps shared (worker.execute shared owner answer
      (saveResolutionDelivery expected step attempts nextAt) done failed) := by
  have updates (row : Row)
      (updated : saveResolutionDelivery expected step attempts nextAt shared.row = some row) :
      Updates shared row := by
    refine updates_saveResolutionDelivery sound closed (marked ?_) updated
    obtain ⟨allowed, updated⟩ := Option.ite_none_right_eq_some.mp updated
    exact allowed.2
  exact .execute sound saved updates (fun row updated => sane row updated (updates row updated))
    plain

theorem steps_posting {active : Bool} (sound : Global shared)
    (sane : Sane shared (worker.to (.posting active))) :
    Steps shared (worker.change shared owner answer
      { shared with messages := shared.messages ++ worker.row.odooTaskId.toList }
      (.checkpointing active) (.findingAgain active)) := by
  obtain ⟨saved, ⟨terminal, same, some, -⟩, step, none⟩ := sane
  change worker.row.odooTaskId = _ at same
  obtain ⟨task, held⟩ := Option.ne_none_iff_exists'.mp some
  change worker.row.odooTaskId = _ at held
  obtain ⟨global, keeps⟩ := messaged sound terminal (same.symm.trans held) none
  have there : shared.messages ++ [task] ≠ [] :=
    List.append_ne_nil_of_right_ne_nil _ (List.cons_ne_nil _ _)
  rw [held]
  exact .change sound global keeps ⟨saved, ⟨terminal, same, some, fun _ => there⟩, step, there⟩
    ⟨saved, ⟨terminal, same, some, fun marked => nomatch step.symm.trans marked⟩, step⟩
    ⟨saved, ⟨terminal, same, some, fun _ => there⟩, step⟩

theorem steps_closing (sound : Global shared) (sane : Sane shared (worker.to .closing)) :
    Steps shared (worker.change shared owner answer
      { shared with
        tasks := worker.row.odooTaskId.elim shared.tasks fun task => shared.tasks.set task false }
      .checkpointingClosed .readingClosed) := by
  obtain ⟨saved, ⟨terminal, same, some, marked⟩, messages⟩ := sane
  change worker.row.odooTaskId = _ at same
  obtain ⟨task, held⟩ := Option.ne_none_iff_exists'.mp some
  change worker.row.odooTaskId = _ at held
  obtain ⟨global, keeps⟩ := closed sound (same.symm.trans held) messages
  have longer : ∀ other ∈ worker.row.odooTaskId, other < (shared.tasks.set task false).length := by
    intro other member
    rw [List.length_set]
    exact saved other member
  rw [held]
  exact .change sound global keeps (sane_of_plain trivial longer)
    ⟨saved, ⟨terminal, same, some, marked⟩, messages⟩
    ⟨longer, ⟨terminal, same, some, marked⟩, messages⟩

/-- A worker that ends gives the lease back. -/
theorem steps_releasing (sound : Global shared) :
    Steps shared (some
      (if shared.Holds owner ∧ answer.landed then { shared with lease := none } else shared,
        none)) := by
  intro next after taken
  cases taken
  refine ⟨?_, ?_, fun _ held => nomatch held⟩
  · split
    · exact sound.frame rfl rfl rfl
    · exact sound
  · split
    · exact .frame rfl rfl rfl
    · exact .refl shared

/-- Every step of the holder of the lease keeps what is known. -/
theorem work_sane (sound : Global shared) (sane : Sane shared worker) :
    Steps shared (worker.work site shared owner answer) := by
  obtain ⟨kind, current, row, phase⟩ := worker
  have saved : ∀ task ∈ row.odooTaskId, task < shared.tasks.length := sane.1
  have plain {phase : Phase} (plain : Plain phase) :
      Sane shared ⟨kind, current, row, phase⟩ := plain.sane saved
  cases phase with
  | marking =>
      refine .execute sound saved (fun _ => updates_markNeedsReview sound)
        (fun later updated => ?_) fun _ => trivial
      exact (plain_syncStart later).sane (updates_markNeedsReview sound updated).saved
  | converting =>
      intro next after taken
      cases taken
  | searching =>
      refine .read sound ?_ (plain trivial)
      split
      · rename_i none _
        exact ⟨saved, noneActive_of_exactTaskIds none⟩
      · rename_i task none held
        exact ⟨saved, noneActive_of_exactTaskIds none, saved task held⟩
      · rename_i one
        exact ⟨saved, onlyActive_of_exactTaskIds one⟩
      · exact plain trivial
  | identifying task =>
      refine .read sound ?_ (plain trivial)
      split
      · exact ⟨saved, sane.2.2, fun other active => absurd active (sane.2.1 other)⟩
      · exact plain trivial
  | renewing goal => exact .renew sound sane
  | creating legacy =>
      obtain ⟨global, keeps, only⟩ := created sound sane.2
      have longer : ∀ task ∈ row.odooTaskId, task < (shared.tasks ++ [true]).length := by
        intro task held
        rw [List.length_append]
        exact Nat.lt_add_right 1 (saved task held)
      exact .change sound global keeps ⟨longer, only⟩ (plain trivial) (Plain.sane trivial longer)
  | searchingAgain legacy fault permanent =>
      refine .read sound ?_ (plain trivial)
      split
      · rename_i none
        split
        · exact ⟨saved, noneActive_of_exactTaskIds none⟩
        · exact plain trivial
      · rename_i one
        exact ⟨saved, onlyActive_of_exactTaskIds one⟩
      · exact plain trivial
  | savingTask task =>
      have held : ∀ saved ∈ some task, saved < shared.tasks.length := by
        rintro _ ⟨⟩
        exact sane.2.1
      refine .execute sound saved (fun _ => updates_saveTaskDelivery sound held)
        (fun later updated => ?_) fun _ => trivial
      exact ⟨(updates_saveTaskDelivery sound held updated).saved, sane.2⟩
  | refreshing legacy task =>
      obtain ⟨global, keeps, only⟩ := refreshed sound sane.2
      have same : ∀ saved ∈ row.odooTaskId, saved < (shared.tasks.set task true).length := by
        intro other held
        rw [List.length_set]
        exact saved other held
      refine .change sound global keeps (Plain.sane trivial same) ?_ ?_
      · split
        · exact ⟨saved, sane.2⟩
        · exact plain trivial
      · split
        · exact ⟨same, only⟩
        · exact Plain.sane trivial same
  | savingSuccess | savingRetry _ =>
      refine .execute sound saved (fun _ => updates_saveTaskDelivery sound saved)
        (fun later updated => ?_) fun _ => trivial
      exact Plain.sane trivial (updates_saveTaskDelivery sound saved updated).saved
  | matching linked =>
      refine .look sound saved ?_
      split
      · cases linked <;> trivial
      · exact plain_notVerified _
  | reading linked candidate =>
      refine .look sound saved ?_
      split
      · split
        · trivial
        · split
          · trivial
          · exact plain_notVerified _
      · exact plain_notVerified _
  | adopting pto => exact .adopt sound saved
  | finalizing pto =>
      refine .execute sound saved (fun _ => updates_finalizeApproved sound)
        (fun later updated => ?_) fun _ => trivial
      exact sane_deliverStart (sound.update (updates_finalizeApproved sound updated)) _ _
  | resolving =>
      refine .execute sound saved (fun _ => updates_finalizeManual sound)
        (fun later updated => ?_) fun _ => trivial
      exact sane_deliverStart (sound.update (updates_finalizeManual sound updated)) _ _
  | reopening =>
      refine .read sound ?_ (plain trivial)
      split
      · exact plain trivial
      · split
        · rename_i none
          exact ⟨saved, sane.2.1, none⟩
        · rename_i begun
          obtain ⟨delivers, notClosed⟩ := sane.2
          refine sane_posted _ saved delivers (delivers.2.2.2 ?_)
          cases held : row.resolutionStep with
          | none => exact absurd held begun
          | messagePosted => rfl
          | closed => exact absurd held notClosed
  | findingMessages active =>
      refine .read sound ?_ (plain trivial)
      have found := Delivers.found sound sane.2.1
      split
      · rename_i known
        exact ⟨saved, sane.2.1, sane.2.2, found.mp known⟩
      · rename_i unknown
        exact ⟨saved, sane.2.1, sane.2.2, not_not.mp (found.not.mp unknown)⟩
  | posting active => exact steps_posting sound sane
  | findingAgain active =>
      refine .read sound ?_ (plain trivial)
      split
      · rename_i known
        exact ⟨saved, sane.2.1, sane.2.2, (Delivers.found sound sane.2.1).mp known⟩
      · exact plain trivial
  | checkpointing active =>
      obtain ⟨⟨terminal, same, some, -⟩, step, messages⟩ := sane.2
      refine steps_saveResolutionDelivery sound saved (fun closed => nomatch step.symm.trans closed)
        (fun _ _ => messages) (fun later updated updates => ?_) (plain_undelivered _)
      obtain ⟨state, task⟩ := updates.settled terminal
      have delivers : Delivers { shared with row := later }
          ⟨kind, current, later, .checkpointing active⟩ :=
        ⟨by rw [state]; exact terminal, rfl, by rw [task, ← same]; exact some,
          fun _ => messages⟩
      exact sane_posted _ updates.saved delivers messages
  | closing => exact steps_closing sound sane
  | readingClosed =>
      refine .read sound ?_ (plain trivial)
      split <;> exact plain trivial
  | checkpointingClosed =>
      refine steps_saveResolutionDelivery sound saved (fun _ => rfl) (fun _ same => nomatch same)
        (fun later updated updates => ?_) fun result => ?_
      · exact Plain.sane trivial updates.saved
      · split
        · trivial
        · exact plain_undelivered _ _
  | savingResolution permanent =>
      refine steps_saveResolutionDelivery sound saved id
        (fun same marked => sound.marked (same.trans marked))
        (fun later updated updates => ?_) fun _ => trivial
      exact Plain.sane trivial updates.saved
  | releasing => exact steps_releasing sound

/-! ## What a claim has read -/

/-- A phase before which a claim need not have read anything. -/
def Blind : Phase → Prop
  | .reading _ _ | .adopting _ | .renewing (.verify _) | .matching (some _) | .finalizing _ => False
  | _ => True

theorem Blind.hasRead {log : List Event} (blind : Blind phase) : HasRead site log owner phase := by
  cases phase with
  | renewing goal => cases goal <;> trivial
  | matching linked => cases linked <;> trivial
  | reading linked candidate => cases blind
  | _ => trivial

/-- What a step of a worker does with the log and the lease, and when it approves the request. -/
structure Did (review : Prop) (site : Site) (shared : Shared) (owner : ℕ) (next : Shared)
    (after : Option Worker) : Prop where
  log : ∃ events, next.log = shared.log ++ events
  reads : ∀ later ∈ after, HasRead site next.log owner later.phase
  lease : ∀ lease ∈ next.lease, lease ∈ shared.lease ∨ shared.Holds owner ∧ lease.owner = owner
  still : ¬shared.Holds owner → next.row = shared.row ∧ next.tasks = shared.tasks ∧
    next.messages = shared.messages ∧ next.lease = shared.lease
  approves : review → next.row.state = .approved → shared.row.state = .approved ∨
    ∃ pto, next.row.ptoLeaveId = some pto ∧ Verified site owner pto shared.log

/-- A worker goes on, or another step is not possible. -/
def Does (review : Prop) (site : Site) (shared : Shared) (owner : ℕ)
    (taken : Option (Shared × Option Worker)) : Prop :=
  ∀ next after, taken = some (next, after) → Did review site shared owner next after

variable {review : Prop}

theorem Did.same {after : Option Worker}
    (reads : ∀ later ∈ after, HasRead site shared.log owner later.phase) :
    Did review site shared owner shared after where
  log := ⟨[], (List.append_nil _).symm⟩
  reads := reads
  lease := fun _ held => .inl held
  still := fun _ => ⟨rfl, rfl, rfl, rfl⟩
  approves := fun _ => .inl

/-- An update of the row by the holder of the lease. -/
theorem Did.update {after : Option Worker} (holds : shared.Holds owner)
    (reads : ∀ later ∈ after, HasRead site shared.log owner later.phase)
    (approves : review → row.state = .approved → shared.row.state = .approved ∨
      ∃ pto, row.ptoLeaveId = some pto ∧ Verified site owner pto shared.log) :
    Did review site shared owner { shared with row } after where
  log := ⟨[], (List.append_nil _).symm⟩
  reads := reads
  lease := fun _ held => .inl held
  still := fun free => absurd holds free
  approves := approves

theorem does_execute {update : Row → Option Row} (blind : ∀ row, Blind (done row))
    (otherwise : ∀ result, Blind (failed result))
    (approves : review → ∀ row, update shared.row = some row → row.state = .approved →
      shared.row.state = .approved ∨
        ∃ pto, row.ptoLeaveId = some pto ∧ Verified site owner pto shared.log) :
    Does review site shared owner (worker.execute shared owner answer update done failed) := by
  intro next after taken
  change some ((shared.statement owner answer update).1,
    some (worker.follow done failed (shared.statement owner answer update).2)) = _ at taken
  obtain ⟨rfl, rfl⟩ := Prod.mk.inj (Option.some.inj taken)
  have reads : ∀ later ∈ some (worker.follow done failed
      (shared.statement owner answer update).2), HasRead site shared.log owner later.phase := by
    intro later held
    cases held
    unfold Worker.follow
    split
    · exact (blind _).hasRead
    · exact (otherwise _).hasRead
  obtain ⟨same, -⟩ | ⟨row, holds, updated, same, -⟩ := statement_cases shared owner answer update
  · rw [same]
    exact .same reads
  · rw [same]
    exact .update holds reads fun reviews => approves reviews row updated

theorem does_read {done failed : Phase} (blind : Blind done) (otherwise : Blind failed) :
    Does review site shared owner (worker.read shared answer done failed) := by
  intro next after taken
  cases taken
  refine .same fun later held => ?_
  cases held
  refine Blind.hasRead ?_
  change Blind (if _ then _ else _)
  split
  · exact blind
  · exact otherwise

theorem does_change {changed : Shared} {done failed : Phase} (log : changed.log = shared.log)
    (lease : changed.lease = shared.lease) (row : changed.row = shared.row) (blind : Blind done)
    (otherwise : Blind failed) :
    Does review site shared owner (worker.change shared owner answer changed done failed) := by
  intro next after taken
  obtain ⟨holds, taken⟩ := Option.ite_none_right_eq_some.mp taken
  cases taken
  have reads (log : List Event) : ∀ later ∈ some (worker.to
      (if answer = .answers then done else failed)), HasRead site log owner later.phase := by
    intro later held
    cases held
    refine Blind.hasRead ?_
    split
    · exact blind
    · exact otherwise
  split
  · exact
      { log := ⟨[], log.trans (List.append_nil _).symm⟩
        reads := reads _
        lease := fun _ held => .inl (lease ▸ held)
        still := fun free => absurd holds free
        approves := fun _ approved => .inl (row ▸ approved) }
  · exact .same (reads _)

theorem does_look {event : Event} {done : Phase}
    (reads : HasRead site (shared.log ++ [event]) owner done) :
    Does review site shared owner (worker.look shared answer event done) := by
  intro next after taken
  unfold Worker.look at taken
  split at taken
  · cases taken
    exact
      { log := ⟨[event], rfl⟩
        reads := fun later held => by cases held; exact reads
        lease := fun _ held => .inl held
        still := fun _ => ⟨rfl, rfl, rfl, rfl⟩
        approves := fun _ => .inl }
  · cases taken
    refine .same fun later held => ?_
    cases held
    trivial

theorem blind_failed (goal : Goal) (permanent : Bool) (result : Result) :
    Blind (goal.failed permanent result) := by
  cases goal <;> cases result <;> trivial

theorem HasRead.renewed {log : List Event} (reads : HasRead site log owner (.renewing goal)) :
    HasRead site log owner goal.phase := by
  cases goal with
  | verify pto => exact reads
  | create _ | refresh _ _ | post _ | close => trivial

theorem does_renew (reads : HasRead site shared.log owner (.renewing goal)) :
    Does review site shared owner (worker.renew shared owner answer goal) := by
  intro next after taken
  change some ((shared.renew owner answer).1, some (worker.to _)) = _ at taken
  obtain ⟨rfl, rfl⟩ := Prod.mk.inj (Option.some.inj taken)
  obtain ⟨row, tasks, messages, log⟩ := renew_frame shared owner answer
  exact
    { log := ⟨[], log.trans (List.append_nil _).symm⟩
      reads := fun later held => by
        cases held
        rw [log]
        split
        · exact reads.renewed
        · exact (blind_failed _ _ _).hasRead
      lease := fun lease held => by
        unfold Shared.renew at held
        split at held
        · rename_i extended
          cases held
          exact .inr ⟨extended.1, rfl⟩
        · exact .inl held
      still := fun free => by
        refine ⟨row, tasks, messages, ?_⟩
        unfold Shared.renew
        rw [if_neg fun extended => free extended.1]
      approves := fun _ approved => .inl (row ▸ approved) }

theorem state_adoptExternalPto (updated : adoptExternalPto pto row = some after) :
    after.state = row.state := by
  obtain ⟨-, rfl⟩ := Option.ite_some_none_eq_some.mp updated
  rfl

theorem does_adopt (reads : HasRead site shared.log owner (.adopting pto)) :
    Does review site shared owner (worker.adopt shared owner answer pto) := by
  intro next after taken
  obtain ⟨first, validated, known⟩ := reads
  obtain ⟨rfl, rfl⟩ | ⟨row, holds, updated, rfl, rest⟩ := adopt_cases taken
  · refine .same fun later held => ?_
    cases held
    trivial
  · exact
      { log := ⟨[.linked owner pto], rfl⟩
        reads := fun later held => by
          obtain rfl | rfl := rest
          · cases held
            exact ⟨first, validated, known.append (List.Sublist.refl [Event.linked owner pto])⟩
          · cases held
            trivial
        lease := fun _ held => .inl held
        still := fun free => absurd holds free
        approves := fun _ approved =>
          .inl ((state_adoptExternalPto updated).symm.trans approved) }

theorem does_releasing :
    Does review site shared owner (some
      (if shared.Holds owner ∧ answer.landed then { shared with lease := none } else shared,
        none)) := by
  intro next after taken
  cases taken
  split
  · rename_i ended
    exact
      { log := ⟨[], (List.append_nil _).symm⟩
        reads := fun _ held => nomatch held
        lease := fun _ held => nomatch held
        still := fun free => absurd ended.1 free
        approves := fun _ => .inl }
  · exact .same fun _ held => nomatch held

theorem blind_syncStart (row : Row) : Blind (syncStart row) := by
  unfold syncStart
  split_ifs <;> trivial

theorem blind_notVerified (worker : Worker) : Blind (notVerified worker) := by
  unfold notVerified
  split
  · exact blind_syncStart _
  · trivial

theorem blind_deliverStart (row : Row) : Blind (deliverStart row) := by
  unfold deliverStart
  split_ifs <;> trivial

theorem blind_start (kind : Kind) (row : Row) : Blind (start kind row) := by
  unfold start
  split
  · exact blind_syncStart row
  all_goals first
    | exact blind_deliverStart row
    | trivial

theorem blind_undelivered (permanent : Bool) (result : Result) :
    Blind (undelivered permanent result) := by
  cases result <;> trivial

/-! ## Which updates approve -/

theorem state_saveTaskDelivery {task : Option ℕ} {nextAt : WithTop ℤ}
    (updated : saveTaskDelivery task attempts nextAt row = some after) :
    after.state = row.state := by
  obtain ⟨-, rfl⟩ := Option.ite_some_none_eq_some.mp updated
  rfl

theorem state_saveResolutionDelivery {step : Resolution}
    (updated : saveResolutionDelivery expected step attempts nextAt row = some after) :
    after.state = row.state := by
  obtain ⟨-, rfl⟩ := Option.ite_some_none_eq_some.mp updated
  rfl

theorem state_markNeedsReview (updated : markNeedsReview current row = some after) :
    after.state = .needsReview := by
  obtain ⟨-, rfl⟩ := Option.ite_some_none_eq_some.mp updated
  rfl

theorem state_finalizeManual (updated : finalizeManual current row = some after) :
    after.state = .resolvedManually := by
  obtain ⟨-, rfl⟩ := Option.ite_some_none_eq_some.mp updated
  rfl

/-- A look at a leave leads on when it is the one that was looked for. -/
theorem hasRead_reading {linked : Option ℤ} {candidate : ℤ} :
    HasRead site shared.log owner (.reading linked candidate) →
    HasRead site (shared.log ++ [.read owner (fetchLeaveSnapshot shared.leaves candidate)]) owner
      (if ∃ leave ∈ fetchLeaveSnapshot shared.leaves candidate, site.Validated candidate leave then
        match linked with
        | none => .adopting candidate
        | some pto => if candidate = pto then .finalizing pto else notVerified worker
      else notVerified worker) := by
  intro reads
  split
  swap
  · exact (blind_notVerified worker).hasRead
  rename_i found
  obtain ⟨leave, fetched, validated⟩ := found
  rw [Option.mem_def.mp fetched]
  have then_ {events : List Event} (before : events.Sublist shared.log) :
      (events ++ [Event.read owner (some leave)]).Sublist
        (shared.log ++ [Event.read owner (some leave)]) :=
    before.append (List.Sublist.refl _)
  cases linked with
  | none => exact ⟨leave, validated, then_ reads⟩
  | some pto =>
      obtain ⟨first, before, known⟩ := reads
      dsimp only
      split
      · rename_i same
        subst same
        exact ⟨first, leave, before, validated, then_ known⟩
      · exact (blind_notVerified worker).hasRead

theorem hasRead_matching {linked : Option ℤ} :
    HasRead site shared.log owner (.matching linked) →
    HasRead site (shared.log ++ [.searched owner (findMatchingLeaves site shared.leaves)]) owner
      (match findMatchingLeaves site shared.leaves with
      | [id] => .reading linked id
      | _ => notVerified worker) := by
  intro reads
  split
  swap
  · exact (blind_notVerified worker).hasRead
  rename_i id one
  rw [one]
  cases linked with
  | none => exact List.sublist_append_right _ _
  | some pto =>
      obtain ⟨first, validated, known⟩ := reads
      exact ⟨first, validated, known.append (List.Sublist.refl [Event.searched owner [id]])⟩

theorem work_does (reads : HasRead site shared.log owner worker.phase) :
    Does True site shared owner (worker.work site shared owner answer) := by
  obtain ⟨kind, current, row, phase⟩ := worker
  cases phase with
  | marking =>
      refine does_execute blind_syncStart (fun _ => trivial) fun _ _ updated approved => ?_
      cases (state_markNeedsReview updated).symm.trans approved
  | converting =>
      intro next after taken
      cases taken
  | searching | identifying task | findingMessages active | findingAgain active | readingClosed =>
      refine does_read ?_ trivial
      split <;> trivial
  | renewing goal => exact does_renew reads
  | creating legacy | posting active | closing => exact does_change rfl rfl rfl trivial trivial
  | searchingAgain legacy fault permanent =>
      refine does_read ?_ trivial
      split
      · split <;> trivial
      · trivial
      · trivial
  | savingTask _ | savingSuccess | savingRetry _ =>
      exact does_execute (fun _ => trivial) (fun _ => trivial) fun _ _ updated approved =>
        .inl ((state_saveTaskDelivery updated).symm.trans approved)
  | refreshing legacy task =>
      refine does_change rfl rfl rfl trivial ?_
      split <;> trivial
  | matching linked => exact does_look (hasRead_matching reads)
  | reading linked candidate => exact does_look (hasRead_reading reads)
  | adopting pto => exact does_adopt reads
  | finalizing pto =>
      refine does_execute blind_deliverStart (fun _ => trivial) fun _ later updated _ => ?_
      exact .inr ⟨pto, (finalizeApproved_eq updated).2.2, reads⟩
  | resolving =>
      refine does_execute blind_deliverStart (fun _ => trivial) fun _ _ updated approved => ?_
      cases (state_finalizeManual updated).symm.trans approved
  | reopening =>
      refine does_read ?_ trivial
      split
      · trivial
      · split
        · trivial
        · rename_i active _ _
          cases active <;> trivial
  | checkpointing active =>
      refine does_execute (fun _ => ?_) (blind_undelivered _) fun _ _ updated approved =>
        .inl ((state_saveResolutionDelivery updated).symm.trans approved)
      cases active <;> trivial
  | checkpointingClosed =>
      refine does_execute (fun _ => trivial) (fun result => ?_) fun _ _ updated approved =>
        .inl ((state_saveResolutionDelivery updated).symm.trans approved)
      split
      · trivial
      · exact blind_undelivered _ _
  | savingResolution permanent =>
      exact does_execute (fun _ => trivial) (fun _ => trivial) fun _ _ updated approved =>
        .inl ((state_saveResolutionDelivery updated).symm.trans approved)
  | releasing => exact does_releasing

/-! ## The conversion -/

theorem plain_conversion (conversion : Conversion) (row : Row) :
    Plain (conversion.phase row) := by
  cases conversion with
  | review => exact plain_syncStart row
  | _ => trivial

theorem blind_conversion (conversion : Conversion) (row : Row) :
    Blind (conversion.phase row) := by
  cases conversion with
  | review => exact blind_syncStart row
  | _ => trivial

theorem convert_sane (sound : Global shared) (sane : Sane shared worker) :
    Steps shared (worker.convert shared owner answer conversion) := by
  unfold Worker.convert
  split
  · intro next after taken
    cases taken
  split
  · intro next after taken
    change some ((shared.renew owner answer).1, some (worker.follow _ _ _)) = _ at taken
    obtain ⟨rfl, rfl⟩ := Prod.mk.inj (Option.some.inj taken)
    obtain ⟨row, tasks, messages, -⟩ := renew_frame shared owner answer
    refine ⟨sound.frame row tasks messages, .frame row tasks messages, fun later held => ?_⟩
    cases held
    refine Sane.frame ?_ row tasks messages
    unfold Worker.follow
    split
    · rename_i held
      refine Plain.sane trivial ?_
      split at held
      · cases held
      · split at held
        · cases held
          exact sound.saved
        · cases held
    · exact Plain.sane trivial sane.1
  · refine .execute sound sane.1 (fun _ => updates_conversion sound)
      (fun later updated => ?_) fun _ => trivial
    exact (plain_conversion conversion later).sane (updates_conversion sound updated).saved

theorem convert_does :
    Does False site shared owner (worker.convert shared owner answer conversion) := by
  unfold Worker.convert
  split
  · intro next after taken
    cases taken
  split
  · intro next after taken
    change some ((shared.renew owner answer).1, some (worker.follow _ _ _)) = _ at taken
    obtain ⟨rfl, rfl⟩ := Prod.mk.inj (Option.some.inj taken)
    have renewed : Does False site shared owner (worker.renew shared owner answer .close) :=
      does_renew trivial
    refine { renewed _ _ rfl with reads := fun later held => ?_ }
    cases held
    unfold Worker.follow
    split <;> trivial
  · exact does_execute (blind_conversion conversion) (fun _ => trivial) fun never => never.elim

/-! ## Runs -/

theorem HasRead.mono {before after : List Event} (more : before.Sublist after)
    (reads : HasRead site before owner phase) : HasRead site after owner phase := by
  cases phase with
  | renewing goal =>
      cases goal with
      | verify pto =>
          obtain ⟨first, validated, known⟩ := reads
          exact ⟨first, validated, known.trans more⟩
      | _ => trivial
  | matching linked =>
      cases linked with
      | none => trivial
      | some pto =>
          obtain ⟨first, validated, known⟩ := reads
          exact ⟨first, validated, known.trans more⟩
  | reading linked candidate =>
      cases linked with
      | none => exact List.Sublist.trans reads more
      | some pto =>
          obtain ⟨first, validated, known⟩ := reads
          exact ⟨first, validated, known.trans more⟩
  | adopting pto =>
      obtain ⟨first, validated, known⟩ := reads
      exact ⟨first, validated, known.trans more⟩
  | finalizing pto =>
      obtain ⟨first, second, before, again, known⟩ := reads
      exact ⟨first, second, before, again, known.trans more⟩
  | _ => trivial

/-- What holds in every state of a run. -/
structure Inv (site : Site) (world : World) : Prop where
  sound : Global world.shared
  reads : ∀ claim worker, world.workers claim = some worker →
    HasRead site world.shared.log claim worker.phase
  sane : ∀ lease ∈ world.shared.lease, ∀ worker, world.workers lease.owner = some worker →
    Sane world.shared worker
  fresh : ∀ claim, world.claims ≤ claim → world.workers claim = none
  leased : ∀ lease ∈ world.shared.lease, lease.owner < world.claims

variable {world later : World}

theorem owner_of_holds (holds : shared.Holds owner) :
    ∃ lease ∈ shared.lease, lease.owner = owner := by
  obtain ⟨lease, held, same, -⟩ := holds
  exact ⟨lease, held, same⟩

theorem setWorker_self (world : World) (owner : ℕ) (worker : Option Worker) :
    (world.setWorker owner worker).workers owner = worker :=
  Function.update_self ..

theorem setWorker_of_ne (world : World) {claim owner : ℕ} (worker : Option Worker)
    (differs : claim ≠ owner) : (world.setWorker owner worker).workers claim = world.workers claim :=
  Function.update_of_ne differs ..

/-- A worker's step keeps everything, whether or not it holds the lease. -/
theorem Inv.take {after : Option Worker} (inv : Inv site world)
    (held : world.workers owner = some worker)
    (does : Did review site world.shared owner next after)
    (steps : Sane world.shared worker →
      Global next ∧ Keeps world.shared next ∧ ∀ later ∈ after, Sane next later) :
    Inv site ({ world with shared := next }.setWorker owner after) ∧ Keeps world.shared next := by
  have known : Global next ∧ Keeps world.shared next := by
    by_cases holds : world.shared.Holds owner
    · obtain ⟨lease, leased, rfl⟩ := owner_of_holds holds
      obtain ⟨global, keeps, -⟩ := steps (inv.sane lease leased worker held)
      exact ⟨global, keeps⟩
    · obtain ⟨row, tasks, messages, -⟩ := does.still holds
      exact ⟨inv.sound.frame row tasks messages, .frame row tasks messages⟩
  obtain ⟨events, log⟩ := does.log
  refine ⟨⟨known.1, ?_, ?_, ?_, ?_⟩, known.2⟩
  · intro claim other present
    by_cases same : claim = owner
    · subst same
      exact does.reads other ((setWorker_self _ _ _).symm.trans present)
    · have before : world.workers claim = some other :=
        (setWorker_of_ne _ _ same).symm.trans present
      refine (inv.reads claim other before).mono ?_
      change world.shared.log.Sublist next.log
      rw [log]
      exact List.sublist_append_left _ _
  · intro lease leased other present
    rcases does.lease lease leased with before | ⟨holds, rfl⟩
    · by_cases same : lease.owner = owner
      · subst same
        exact (steps (inv.sane lease before worker held)).2.2 other
          ((setWorker_self _ _ _).symm.trans present)
      · have free : ¬world.shared.Holds owner := by
          rintro ⟨other, leased, owned, -⟩
          exact same (Option.some.inj (before.symm.trans leased) ▸ owned)
        obtain ⟨row, tasks, messages, -⟩ := does.still free
        have unmoved : world.workers lease.owner = some other :=
          (setWorker_of_ne _ _ same).symm.trans present
        exact (inv.sane lease before other unmoved).frame row tasks messages
    · obtain ⟨old, before, same⟩ := owner_of_holds holds
      have owned : world.workers old.owner = some worker := same ▸ held
      exact (steps (inv.sane old before worker owned)).2.2 other
        ((setWorker_self _ _ _).symm.trans present)
  · intro claim unused
    have old : claim ≠ owner := by
      rintro rfl
      exact nomatch held.symm.trans (inv.fresh claim unused)
    exact (setWorker_of_ne _ _ old).trans (inv.fresh claim unused)
  · intro lease leased
    rcases does.lease lease leased with before | ⟨holds, rfl⟩
    · exact inv.leased lease before
    · obtain ⟨old, before, same⟩ := owner_of_holds holds
      exact same ▸ inv.leased old before

/-- A claim takes the lease when nobody holds it. -/
theorem Inv.claim {kind : Kind} {rolledOver : Bool} (inv : Inv site world)
    (taken : step site world (.claim kind current rolledOver answer) = some later) :
    Inv site later ∧ Keeps world.shared later.shared := by
  obtain ⟨-, rfl⟩ := Option.ite_some_none_eq_some.mp taken
  have unused : world.workers world.claims = none := inv.fresh _ le_rfl
  cases answer with
  | answers =>
      refine ⟨⟨inv.sound.frame rfl rfl rfl, ?_, ?_, ?_, ?_⟩, .frame rfl rfl rfl⟩
      · intro claim other present
        by_cases same : claim = world.claims
        · subst same
          obtain rfl := Option.some.inj ((setWorker_self _ _ _).symm.trans present)
          exact (blind_start kind _).hasRead
        · exact inv.reads claim other ((setWorker_of_ne _ _ same).symm.trans present)
      · intro lease leased other present
        cases leased
        obtain rfl := Option.some.inj ((setWorker_self _ _ _).symm.trans present)
        exact (sane_start inv.sound kind current).frame rfl rfl rfl
      · intro claim beyond
        have old : claim ≠ world.claims := (Nat.lt_of_succ_le beyond).ne'
        exact (setWorker_of_ne _ _ old).trans (inv.fresh claim (Nat.le_of_succ_le beyond))
      · intro lease leased
        cases leased
        exact Nat.lt_succ_self _
  | raises landed | faults landed | refuses landed =>
      cases landed with
      | false =>
          exact ⟨⟨inv.sound, inv.reads, inv.sane,
            fun claim beyond => inv.fresh claim (Nat.le_of_succ_le beyond),
            fun lease leased => Nat.lt_succ_of_lt (inv.leased lease leased)⟩, .refl _⟩
      | true =>
          refine ⟨⟨inv.sound.frame rfl rfl rfl, inv.reads, ?_,
            fun claim beyond => inv.fresh claim (Nat.le_of_succ_le beyond), ?_⟩,
            .frame rfl rfl rfl⟩
          · intro lease leased other present
            cases leased
            cases unused.symm.trans present
          · intro lease leased
            cases leased
            exact Nat.lt_succ_self _

theorem Inv.step (inv : Inv site world) {action : Action}
    (taken : PtoReview.step site world action = some later) :
    Inv site later ∧ Keeps world.shared later.shared := by
  cases action with
  | claim kind current rolledOver answer => exact inv.claim taken
  | work owner answer =>
      obtain ⟨worker, held, taken⟩ := Option.bind_eq_some_iff.mp taken
      obtain ⟨⟨shared, after⟩, worked, rfl⟩ := Option.map_eq_some_iff.mp taken
      exact inv.take held (work_does (inv.reads owner worker held) shared after worked)
        fun sane => work_sane inv.sound sane shared after worked
  | convert owner conversion answer =>
      obtain ⟨worker, held, taken⟩ := Option.bind_eq_some_iff.mp taken
      obtain ⟨⟨shared, after⟩, worked, rfl⟩ := Option.map_eq_some_iff.mp taken
      exact inv.take held (convert_does shared after worked)
        fun sane => convert_sane inv.sound sane shared after worked
  | die owner =>
      obtain ⟨worker, held, rfl⟩ := Option.map_eq_some_iff.mp taken
      have still : Did False site world.shared owner world.shared none :=
        .same fun _ none => nomatch none
      exact inv.take held still
        fun _ => ⟨inv.sound, .refl _, fun _ none => nomatch none⟩
  | elapse time | changeLeaves leaves =>
      obtain rfl := Option.some.inj taken
      exact ⟨⟨inv.sound.frame rfl rfl rfl, inv.reads,
        fun lease leased worker held => (inv.sane lease leased worker held).frame rfl rfl rfl,
        inv.fresh, inv.leased⟩, .frame rfl rfl rfl⟩

theorem Starts.inv (starts : Starts world) : Inv site world where
  sound :=
    { active := fun first _ active => by rw [starts.tasks] at active; cases active
      message := by rw [starts.messages]; exact Nat.zero_le 1
      owned := fun task posted => by rw [starts.messages] at posted; cases posted
      archived := fun task archived => by rw [starts.tasks] at archived; cases archived
      saved := fun task held => by rw [starts.task] at held; cases held
      marked := fun marked => absurd marked starts.resolution.1
      unsettled := fun unsettled => by
        cases step : world.shared.row.resolutionStep with
        | none => rfl
        | messagePosted => exact absurd step starts.resolution.1
        | closed => exact absurd (starts.resolution.2 step) unsettled }
  reads := fun claim worker held => nomatch (starts.workers claim).symm.trans held
  sane := fun lease leased => by rw [starts.lease] at leased; cases leased
  fresh := fun claim _ => starts.workers claim
  leased := fun lease leased => by rw [starts.lease] at leased; cases leased

theorem Inv.oneTask (inv : Inv site world) : OneTask site world where
  active := inv.sound.active
  message := inv.sound.message
  messageSettled := by
    intro messages
    obtain ⟨task, posted⟩ := List.exists_mem_of_ne_nil _ messages
    exact (inv.sound.owned task posted).1
  archived := inv.sound.archived
  posts := fun _ _ taken => (inv.step taken).2.posts
  archives := fun _ _ task taken => (inv.step taken).2.archives task
  approves := by
    intro claim answer after taken before approved
    obtain ⟨worker, held, taken⟩ := Option.bind_eq_some_iff.mp taken
    obtain ⟨⟨shared, next⟩, worked, rfl⟩ := Option.map_eq_some_iff.mp taken
    have does := work_does (inv.reads claim worker held) shared next worked
    exact (does.approves trivial approved).resolve_left before
  settled := fun _ _ taken => (inv.step taken).2.settled
  closed := fun _ _ taken => (inv.step taken).2.closed

/-- In every run of any workers, a stuck request gets one review task that is closed once. -/
theorem one_task {initial : World} (starts : Starts initial) {world : World}
    (reachable : Reachable initial (step site) (fun _ _ => True) world) : OneTask site world :=
  (reachable.invariant starts.inv fun _ _ _ inv _ taken => (inv.step taken).1).oneTask

private def missedDay : Site := ⟨1, 2, 20458⟩

private def stuck : World where
  shared :=
    { now := 0
      row :=
        { state := .needsReview
          ptoApproved := false
          ptoLeaveId := none
          odooTaskId := none
          taskAttempts := 0
          taskNextAt := none
          resolutionStep := .none
          resolutionAttempts := 0
          resolutionNextAt := none }
      lease := none
      tasks := []
      messages := []
      leaves := []
      log := [] }
  workers := fun _ => none
  claims := 0

/-- The create raises although Odoo made the task; later somebody handles the request, and the post
and the archiving raise although Odoo took them. -/
private def handled : List Action :=
  [.claim .sync 0 false .answers, .work 0 .answers, .work 0 .answers, .work 0 (.raises true),
    .work 0 .answers, .work 0 .answers, .work 0 .answers, .work 0 .answers, .work 0 .answers,
    .work 0 .answers, .claim .manual 60 false .answers, .work 1 .answers, .work 1 .answers,
    .work 1 .answers, .work 1 .answers, .work 1 (.raises true), .work 1 .answers, .work 1 .answers,
    .work 1 .answers, .work 1 (.raises true), .work 1 .answers, .work 1 .answers, .work 1 .answers]

theorem one_task_handled : ∃ world : World,
    (world.shared.row.state, world.shared.row.resolutionStep, world.shared.tasks,
      world.shared.messages) = (.resolvedManually, .closed, [false], [0]) ∧
    OneTask missedDay world := by
  have starts : Starts stuck :=
    ⟨rfl, fun _ => rfl, rfl, rfl, rfl, rfl, by decide, by decide⟩
  have ran : (run (step missedDay) stuck handled).map (fun world : World =>
      (world.shared.row.state, world.shared.row.resolutionStep, world.shared.tasks,
        world.shared.messages)) = some (.resolvedManually, .closed, [false], [0]) := by
    decide +kernel
  obtain ⟨world, ran, shown⟩ := Option.map_eq_some_iff.mp ran
  exact ⟨world, shown, one_task starts (Reachable.initial.run (fun _ _ _ => trivial) ran)⟩

end PlantManager.TimeOff.PtoReview

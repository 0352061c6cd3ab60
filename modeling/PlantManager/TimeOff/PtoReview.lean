import PlantManager.Transition.Runs

/-! # Reviewing a stuck request

A request for paid time off on a past absence that could not be converted gets one review task in
Odoo, and is settled by an approved leave there or by hand
(`TimeOff.PtoReview.step`). There is one request, its lease, the tasks that carry its
name and the messages that carry its marker. Workers claim it and then take one statement or one
call to Odoo after another; what changes anything in Odoo ends within the lease. Nobody else makes or
archives such a task. Times are in seconds.
-/

namespace PlantManager.TimeOff.PtoReview

inductive State where
  | pending
  | converting
  | approved
  | denied
  | needsReview
  | resolvedManually
  deriving DecidableEq, Repr

def State.Terminal (state : State) : Prop := state = .approved ∨ state = .resolvedManually

instance (state : State) : Decidable state.Terminal := inferInstanceAs (Decidable (_ ∨ _))

/-- How far the outcome is delivered to the task. -/
inductive Resolution where
  | none
  | messagePosted
  | closed
  deriving DecidableEq, Repr

structure Row where
  state : State
  /-- The conversion approved its leave. -/
  ptoApproved : Bool
  ptoLeaveId : Option ℤ
  odooTaskId : Option ℕ
  taskAttempts : ℕ
  taskNextAt : Option (WithTop ℤ)
  resolutionStep : Resolution
  resolutionAttempts : ℕ
  resolutionNextAt : Option (WithTop ℤ)
  deriving DecidableEq

structure Lease where
  owner : ℕ
  expires : ℤ
  deriving DecidableEq, Repr

structure Leave where
  id : ℤ
  employee : ℤ
  type : ℤ
  dateFrom : ℤ
  dateTo : ℤ
  state : String
  deriving DecidableEq, Repr

/-- What the request is about. -/
structure Site where
  employee : ℤ
  type : ℤ
  day : ℤ

/-- What a claim read and linked. -/
inductive Event where
  | searched (owner : ℕ) (ids : List ℤ)
  | read (owner : ℕ) (leave : Option Leave)
  | linked (owner : ℕ) (pto : ℤ)
  deriving DecidableEq, Repr

/-- The row with its lease, and what Odoo has: whether each task with the name, in the order they
were made, is active, the task of each message with the marker, and the leaves. -/
structure Shared where
  now : ℤ
  row : Row
  lease : Option Lease
  tasks : List Bool
  messages : List ℕ
  leaves : List Leave
  log : List Event

inductive Kind where
  | sync
  | external
  | manual
  | reconcile
  deriving DecidableEq, Repr

/-- What a lease is renewed for. -/
inductive Goal where
  | create (legacy : Bool)
  | refresh (legacy : Bool) (task : ℕ)
  | verify (pto : ℤ)
  | post (active : Bool)
  | close
  deriving DecidableEq, Repr

/-- What a worker does next. -/
inductive Phase where
  | marking
  | converting
  | searching
  | identifying (task : ℕ)
  | renewing (goal : Goal)
  | creating (legacy : Bool)
  /-- A create raised, because of the field of the assignees or for good. -/
  | searchingAgain (legacy fault permanent : Bool)
  | savingTask (task : ℕ)
  | refreshing (legacy : Bool) (task : ℕ)
  | savingSuccess
  | savingRetry (permanent : Bool)
  /-- The leave is looked up, before or after it was linked. -/
  | matching (linked : Option ℤ)
  | reading (linked : Option ℤ) (candidate : ℤ)
  | adopting (pto : ℤ)
  | finalizing (pto : ℤ)
  | resolving
  | reopening
  | findingMessages (active : Bool)
  | posting (active : Bool)
  | findingAgain (active : Bool)
  | checkpointing (active : Bool)
  | closing
  | readingClosed
  | checkpointingClosed
  | savingResolution (permanent : Bool)
  | releasing
  deriving DecidableEq, Repr

/-- A worker knows the row as it read it, and when it began. -/
structure Worker where
  kind : Kind
  current : ℤ
  row : Row
  phase : Phase

/-- How a statement or a call ends. -/
inductive Answer where
  | answers
  /-- It raises, and may have taken effect all the same. -/
  | raises (landed : Bool)
  /-- Odoo does not know the field of the assignees. -/
  | faults (landed : Bool)
  /-- It raises an error that no other attempt can make good. -/
  | refuses (landed : Bool)
  deriving DecidableEq, Repr

def Answer.landed : Answer → Bool
  | .answers => true
  | .raises landed | .faults landed | .refuses landed => landed

def Answer.permanent : Answer → Bool
  | .refuses _ => true
  | _ => false

def Answer.fault : Answer → Bool
  | .faults _ => true
  | _ => false

/-! ## The store -/

def maxAttempts : ℕ := 10

def retryDelay (attempts : ℕ) : ℤ := [60, 300, 900, 3600].getD (min (attempts - 1) 3) 3600

def retryAt (current : ℤ) (attempts : ℕ) (permanent : Bool) : WithTop ℤ :=
  if permanent ∨ maxAttempts ≤ attempts then ⊤ else ((current + retryDelay attempts : ℤ) : WithTop ℤ)

def pollInterval : ℤ := 900

def leaseSeconds : ℤ := 120

def Shared.Holds (shared : Shared) (owner : ℕ) : Prop :=
  ∃ lease ∈ shared.lease, lease.owner = owner ∧ shared.now < lease.expires

instance (shared : Shared) (owner : ℕ) : Decidable (shared.Holds owner) :=
  inferInstanceAs (Decidable (∃ lease ∈ shared.lease, _))

/-- A statement returns the row, finds nothing to update, or raises. -/
inductive Result where
  | row (row : Row)
  | stale
  | raised

/-- A statement that only the holder of the lease can make. -/
def Shared.statement (shared : Shared) (owner : ℕ) (answer : Answer)
    (update : Row → Option Row) : Shared × Result :=
  match if shared.Holds owner then update shared.row else none with
  | none => (shared, if answer = .answers then .stale else .raised)
  | some row =>
      (if answer.landed then { shared with row } else shared,
        if answer = .answers then .row row else .raised)

def Shared.renew (shared : Shared) (owner : ℕ) (answer : Answer) : Shared × Result :=
  let extended :=
    if shared.Holds owner ∧ answer.landed then
      { shared with lease := some ⟨owner, shared.now + leaseSeconds⟩ }
    else shared
  (extended,
    if answer ≠ .answers then .raised
    else if shared.Holds owner then .row shared.row else .stale)

def markNeedsReview (current : ℤ) (row : Row) : Option Row :=
  if row.state ∈ [.pending, .converting, .needsReview] then
    some { row with state := .needsReview, taskNextAt := some (current : WithTop ℤ) }
  else none

def saveTaskDelivery (task : Option ℕ) (attempts : ℕ) (nextAt : WithTop ℤ) (row : Row) :
    Option Row :=
  if row.state = .needsReview then
    some { row with odooTaskId := task, taskAttempts := attempts, taskNextAt := some nextAt }
  else none

/-- A checkpoint, or an attempt that is put off; the step is still the one that was read. -/
def saveResolutionDelivery (expected step : Resolution) (attempts : ℕ)
    (nextAt : Option (WithTop ℤ)) (row : Row) : Option Row :=
  if row.state.Terminal ∧ row.resolutionStep = expected then
    some
      { row with
        resolutionStep := step
        resolutionAttempts := attempts
        resolutionNextAt := nextAt }
  else none

def adoptExternalPto (pto : ℤ) (row : Row) : Option Row :=
  if row.state = .needsReview then some { row with ptoLeaveId := some pto } else none

/-- A settled request has nothing to deliver if it has no task. -/
def Row.settle (row : Row) (state : State) (current : ℤ) : Row :=
  { row with
    state := state
    resolutionStep := if row.odooTaskId = none then .closed else .none
    resolutionAttempts := 0
    resolutionNextAt := if row.odooTaskId = none then none else some (current : WithTop ℤ) }

def finalizeApproved (pto current : ℤ) (row : Row) : Option Row :=
  if (row.state = .converting ∧ row.ptoApproved = true ∨ row.state = .needsReview) ∧
      row.ptoLeaveId = some pto then
    some ({ row with ptoApproved := true }.settle .approved current)
  else none

def finalizeManual (current : ℤ) (row : Row) : Option Row :=
  if row.state = .needsReview then
    some ({ row with taskNextAt := none }.settle .resolvedManually current)
  else none

/-! ## The leave -/

def terminalStates : List String := ["cancel", "refuse"]

/-- Up to two open leaves of the employee, of the type and on the day. -/
def findMatchingLeaves (site : Site) (leaves : List Leave) : List ℤ :=
  ((leaves.filter fun leave => leave.employee = site.employee ∧ leave.type = site.type ∧
    leave.dateFrom = site.day ∧ leave.dateTo = site.day ∧ leave.state ∉ terminalStates).map
      Leave.id).take 2

def fetchLeaveSnapshot (leaves : List Leave) (id : ℤ) : Option Leave :=
  leaves.find? fun leave => leave.id = id

def Site.Validated (site : Site) (id : ℤ) (leave : Leave) : Prop :=
  leave.id = id ∧ leave.employee = site.employee ∧ leave.type = site.type ∧
    leave.dateFrom = site.day ∧ leave.dateTo = site.day ∧ leave.state = "validate"

instance (site : Site) (id : ℤ) (leave : Leave) : Decidable (site.Validated id leave) :=
  inferInstanceAs (Decidable (_ ∧ _ ∧ _ ∧ _ ∧ _ ∧ _))

/-! ## What a worker does -/

/-- Up to two active tasks with the name. -/
def exactTaskIds (tasks : List Bool) : List ℕ :=
  ((List.range tasks.length).filter fun task => tasks[task]? = some true).take 2

def syncStart (row : Row) : Phase :=
  if row.state ≠ .needsReview then .releasing
  else if maxAttempts ≤ row.taskAttempts then
    if row.taskNextAt ≠ some ⊤ then .savingRetry true else .releasing
  else .searching

def deliverStart (row : Row) : Phase :=
  if ¬row.state.Terminal ∨ row.resolutionStep = .closed ∨ row.resolutionNextAt = some ⊤ then
    .releasing
  else if row.odooTaskId = none then .checkpointingClosed
  else .reopening

def start (kind : Kind) (row : Row) : Phase :=
  match kind, row.state with
  | .sync, _ => syncStart row
  | .external, .approved | .manual, .resolvedManually | .reconcile, .approved
  | .reconcile, .resolvedManually => deliverStart row
  | .external, .needsReview | .reconcile, .needsReview => .matching none
  | .manual, .needsReview => .resolving
  | .reconcile, .pending => .marking
  | .reconcile, .converting => .converting
  | _, _ => .releasing

/-- No one leave was verified. -/
def notVerified (worker : Worker) : Phase :=
  match worker.kind with
  | .reconcile => syncStart worker.row
  | _ => .releasing

/-- After a message is known to be there. -/
def posted (active : Bool) : Phase := if active then .renewing .close else .checkpointingClosed

/-- What a worker does when its lease is renewed. -/
def Goal.phase : Goal → Phase
  | .create legacy => .creating legacy
  | .refresh legacy task => .refreshing legacy task
  | .verify pto => .matching (some pto)
  | .post active => .posting active
  | .close => .closing

/-- What a worker does when a renewal raises. -/
def Goal.failed (permanent : Bool) : Goal → Result → Phase
  | .create _, _ | .refresh _ _, _ => .savingRetry permanent
  | .post _, .raised | .close, .raised => .savingResolution permanent
  | _, _ => .releasing

def Worker.to (worker : Worker) (phase : Phase) : Worker := { worker with phase }

/-- Go on with the row that a statement returned. -/
def Worker.follow (worker : Worker) (done : Row → Phase) (failed : Result → Phase) :
    Result → Worker
  | .row row => { worker with row, phase := done row }
  | result => { worker with phase := failed result }

/-- A failed checkpoint is tried again, unless somebody else has the lease. -/
def undelivered (permanent : Bool) : Result → Phase
  | .raised => .savingResolution permanent
  | _ => .releasing

/-- A worker makes a statement. -/
def Worker.execute (shared : Shared) (owner : ℕ) (worker : Worker) (answer : Answer)
    (update : Row → Option Row) (done : Row → Phase) (failed : Result → Phase) :
    Option (Shared × Option Worker) :=
  let (next, result) := shared.statement owner answer update
  some (next, some (worker.follow done failed result))

/-- A worker reads something in Odoo. -/
def Worker.read (shared : Shared) (worker : Worker) (answer : Answer) (done failed : Phase) :
    Option (Shared × Option Worker) :=
  some (shared, some (worker.to (if answer = .answers then done else failed)))

/-- A worker changes something in Odoo, as long as it has the lease. -/
def Worker.change (shared : Shared) (owner : ℕ) (worker : Worker) (answer : Answer)
    (changed : Shared) (done failed : Phase) : Option (Shared × Option Worker) :=
  if shared.Holds owner then
    some (if answer.landed then changed else shared,
      some (worker.to (if answer = .answers then done else failed)))
  else none

/-- A worker sees something of the leaves. -/
def Worker.look (shared : Shared) (worker : Worker) (answer : Answer) (event : Event)
    (done : Phase) : Option (Shared × Option Worker) :=
  if answer = .answers then
    some ({ shared with log := shared.log ++ [event] }, some (worker.to done))
  else some (shared, some (worker.to .releasing))

def Worker.renew (shared : Shared) (owner : ℕ) (worker : Worker) (answer : Answer) (goal : Goal) :
    Option (Shared × Option Worker) :=
  let (next, result) := shared.renew owner answer
  some (next, some (worker.to (match result with
    | .row _ => goal.phase
    | _ => goal.failed answer.permanent result)))

/-- A worker links a leave and goes on to verify it. -/
def Worker.adopt (shared : Shared) (owner : ℕ) (worker : Worker) (answer : Answer) (pto : ℤ) :
    Option (Shared × Option Worker) :=
  let (next, result) := shared.statement owner answer (adoptExternalPto pto)
  let adopted := shared.Holds owner ∧ (adoptExternalPto pto shared.row).isSome ∧ answer.landed
  some
    (if adopted then { next with log := next.log ++ [.linked owner pto] } else next,
      some (match result with
        | .row _ => worker.to (.renewing (.verify pto))
        | _ => worker.to .releasing))

/-- A worker takes its next step, if what changes Odoo ends within the lease. -/
def Worker.work (site : Site) (shared : Shared) (owner : ℕ) (worker : Worker) (answer : Answer) :
    Option (Shared × Option Worker) :=
  match worker.phase with
  | .marking =>
      worker.execute shared owner answer (markNeedsReview worker.current) syncStart
        fun _ => .releasing
  | .converting => none
  | .searching =>
      worker.read shared answer
        (match exactTaskIds shared.tasks, worker.row.odooTaskId with
        | [], none => .renewing (.create false)
        | [], some task => .identifying task
        | [task], _ => .savingTask task
        | _, _ => .savingRetry true)
        (.savingRetry answer.permanent)
  | .identifying task =>
      worker.read shared answer
        (if shared.tasks[task]? = some false then .savingTask task else .savingRetry true)
        (.savingRetry answer.permanent)
  | .renewing goal => worker.renew shared owner answer goal
  | .creating legacy =>
      worker.change shared owner answer { shared with tasks := shared.tasks ++ [true] }
        (.savingTask shared.tasks.length)
        (.searchingAgain legacy answer.fault answer.permanent)
  | .searchingAgain legacy fault permanent =>
      worker.read shared answer
        (match exactTaskIds shared.tasks with
        | [] => if fault ∧ legacy = false then .renewing (.create true) else .savingRetry permanent
        | [task] => .savingTask task
        | _ => .savingRetry true)
        (.savingRetry answer.permanent)
  | .savingTask task =>
      worker.execute shared owner answer
        (saveTaskDelivery (some task) worker.row.taskAttempts
          ((worker.current + pollInterval : ℤ) : WithTop ℤ))
        (fun _ => .renewing (.refresh false task)) fun _ => .savingRetry answer.permanent
  | .refreshing legacy task =>
      worker.change shared owner answer { shared with tasks := shared.tasks.set task true }
        .savingSuccess
        (if answer.fault ∧ legacy = false then .renewing (.refresh true task)
        else .savingRetry answer.permanent)
  | .savingSuccess =>
      worker.execute shared owner answer
        (saveTaskDelivery worker.row.odooTaskId 0
          ((worker.current + pollInterval : ℤ) : WithTop ℤ))
        (fun _ => .releasing) fun _ => .savingRetry answer.permanent
  | .savingRetry permanent =>
      let attempts := min (worker.row.taskAttempts + 1) maxAttempts
      worker.execute shared owner answer
        (saveTaskDelivery worker.row.odooTaskId attempts
          (retryAt worker.current attempts permanent))
        (fun _ => .releasing) fun _ => .releasing
  | .matching linked =>
      worker.look shared answer (.searched owner (findMatchingLeaves site shared.leaves))
        (match findMatchingLeaves site shared.leaves with
        | [id] => .reading linked id
        | _ => notVerified worker)
  | .reading linked candidate =>
      worker.look shared answer (.read owner (fetchLeaveSnapshot shared.leaves candidate))
        (if ∃ leave ∈ fetchLeaveSnapshot shared.leaves candidate, site.Validated candidate leave then
          match linked with
          | none => .adopting candidate
          | some pto => if candidate = pto then .finalizing pto else notVerified worker
        else notVerified worker)
  | .adopting pto => worker.adopt shared owner answer pto
  | .finalizing pto =>
      worker.execute shared owner answer (finalizeApproved pto worker.current) deliverStart
        fun _ => .releasing
  | .resolving =>
      worker.execute shared owner answer (finalizeManual worker.current) deliverStart
        fun _ => .releasing
  | .reopening =>
      worker.read shared answer
        (match worker.row.odooTaskId.bind fun task => shared.tasks[task]? with
        | none => .savingResolution true
        | some active =>
            if worker.row.resolutionStep = .none then .findingMessages active else posted active)
        (.savingResolution answer.permanent)
  | .findingMessages active =>
      worker.read shared answer
        (if ∃ task ∈ worker.row.odooTaskId, task ∈ shared.messages then .checkpointing active
        else .renewing (.post active))
        (.savingResolution answer.permanent)
  | .posting active =>
      worker.change shared owner answer
        { shared with messages := shared.messages ++ worker.row.odooTaskId.toList }
        (.checkpointing active) (.findingAgain active)
  | .findingAgain active =>
      worker.read shared answer
        (if ∃ task ∈ worker.row.odooTaskId, task ∈ shared.messages then .checkpointing active
        else .savingResolution false)
        (.savingResolution answer.permanent)
  | .checkpointing active =>
      worker.execute shared owner answer
        (saveResolutionDelivery worker.row.resolutionStep .messagePosted 0
          (some (worker.current : WithTop ℤ)))
        (fun _ => posted active) (undelivered answer.permanent)
  | .closing =>
      worker.change shared owner answer
        { shared with
          tasks := worker.row.odooTaskId.elim shared.tasks fun task => shared.tasks.set task false }
        .checkpointingClosed .readingClosed
  | .readingClosed =>
      worker.read shared answer
        (if ∃ task ∈ worker.row.odooTaskId, shared.tasks[task]? = some false then
          .checkpointingClosed
        else .savingResolution false)
        (.savingResolution answer.permanent)
  | .checkpointingClosed =>
      worker.execute shared owner answer
        (saveResolutionDelivery worker.row.resolutionStep .closed 0 none) (fun _ => .releasing)
        (if worker.row.odooTaskId = none then fun _ => .releasing else undelivered answer.permanent)
  | .savingResolution permanent =>
      let attempts :=
        if permanent then maxAttempts else min (worker.row.resolutionAttempts + 1) maxAttempts
      worker.execute shared owner answer
        (saveResolutionDelivery worker.row.resolutionStep worker.row.resolutionStep attempts
          (some (retryAt worker.current attempts permanent)))
        (fun _ => .releasing) fun _ => .releasing
  | .releasing =>
      some (if shared.Holds owner ∧ answer.landed then { shared with lease := none } else shared,
        none)

/-! ## The conversion -/

/-- What a step of the conversion does with the row. -/
inductive Conversion where
  | renew
  | step (ptoLeaveId : Option ℤ) (ptoApproved : Bool)
  | restore
  | review
  | approve (pto : ℤ)
  | stop
  deriving DecidableEq, Repr

def Conversion.update (conversion : Conversion) (current : ℤ) (row : Row) : Option Row :=
  match conversion with
  | .step ptoLeaveId ptoApproved =>
      if row.state = .converting then some { row with ptoLeaveId, ptoApproved } else none
  | .restore =>
      if row.state = .converting then
        some { row with
          state := .pending, ptoApproved := false, ptoLeaveId := none, taskNextAt := none }
      else none
  | .review => markNeedsReview current row
  | .approve pto => finalizeApproved pto current row
  | .renew | .stop => none

def Conversion.phase (conversion : Conversion) (row : Row) : Phase :=
  match conversion with
  | .renew | .step _ _ => .converting
  | .review => syncStart row
  | _ => .releasing

/-- A worker takes a step of the conversion. -/
def Worker.convert (shared : Shared) (owner : ℕ) (worker : Worker) (answer : Answer)
    (conversion : Conversion) : Option (Shared × Option Worker) :=
  if worker.phase ≠ .converting then none
  else if conversion = .renew then
    let (next, result) := shared.renew owner answer
    some (next, some (worker.follow (fun _ => .converting) (fun _ => .releasing) result))
  else
    worker.execute shared owner answer (conversion.update worker.current) conversion.phase
      fun _ => .releasing

/-! ## Runs -/

/-- Each claim has an owner of its own; their number is counted. -/
structure World where
  shared : Shared
  workers : ℕ → Option Worker
  claims : ℕ

inductive Action where
  | claim (kind : Kind) (current : ℤ) (rolledOver : Bool) (answer : Answer)
  | work (owner : ℕ) (answer : Answer)
  | convert (owner : ℕ) (conversion : Conversion) (answer : Answer)
  | die (owner : ℕ)
  | elapse (time : ℕ)
  | changeLeaves (leaves : List Leave)

/-- The request is due for a pass of the reconciler. -/
def Due (rolledOver : Bool) (current : ℤ) (row : Row) : Prop :=
  row.state = .converting ∨ (row.state = .pending ∧ rolledOver = true) ∨
    (row.state = .needsReview ∧ ∀ due ∈ row.taskNextAt, due ≤ current) ∨
    (row.state.Terminal ∧ row.odooTaskId ≠ none ∧ row.resolutionStep ≠ .closed ∧
      ∀ due ∈ row.resolutionNextAt, due ≤ current)

instance (rolledOver : Bool) (current : ℤ) (row : Row) : Decidable (Due rolledOver current row) :=
  inferInstanceAs (Decidable (_ ∨ (_ ∧ _) ∨ (_ ∧ _) ∨ (_ ∧ _ ∧ _ ∧ _)))

def Shared.Free (shared : Shared) : Prop := ∀ lease ∈ shared.lease, lease.expires ≤ shared.now

instance (shared : Shared) : Decidable shared.Free :=
  inferInstanceAs (Decidable (∀ lease ∈ shared.lease, _))

def World.setWorker (world : World) (owner : ℕ) (worker : Option Worker) : World :=
  { world with workers := Function.update world.workers owner worker }

def step (site : Site) (world : World) : Action → Option World
  | .claim kind current rolledOver answer =>
      let row := world.shared.row
      if world.shared.Free ∧ (kind = .reconcile → Due rolledOver current row) then
        let owner := world.claims
        let claimed :=
          { world with
            claims := owner + 1
            shared :=
              if answer.landed then
                { world.shared with
                  lease := some ⟨owner, world.shared.now + leaseSeconds⟩ }
              else world.shared }
        some (if answer = .answers then
          claimed.setWorker owner (some ⟨kind, current, row, start kind row⟩)
        else claimed)
      else none
  | .work owner answer =>
      (world.workers owner).bind fun worker =>
        (worker.work site world.shared owner answer).map fun (shared, next) =>
          { world with shared }.setWorker owner next
  | .convert owner conversion answer =>
      (world.workers owner).bind fun worker =>
        (worker.convert world.shared owner answer conversion).map fun (shared, next) =>
          { world with shared }.setWorker owner next
  | .die owner => (world.workers owner).map fun _ => world.setWorker owner none
  | .elapse time => some { world with shared := { world.shared with now := world.shared.now + time } }
  | .changeLeaves leaves => some { world with shared := { world.shared with leaves } }

/-- Nobody has claimed the request yet, and it has no task and no message. -/
structure Starts (world : World) : Prop where
  lease : world.shared.lease = none
  workers : ∀ owner, world.workers owner = none
  tasks : world.shared.tasks = []
  messages : world.shared.messages = []
  log : world.shared.log = []
  task : world.shared.row.odooTaskId = none
  resolution : world.shared.row.resolutionStep ≠ .messagePosted ∧
    (world.shared.row.resolutionStep = .closed → world.shared.row.state.Terminal)

end PlantManager.TimeOff.PtoReview

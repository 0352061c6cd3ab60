import PlantManager.Feedback.ReviewProjection

/-! # Reconciling a review

A pass reads the task of one feedback record and its reference, writes the projected lifecycle to
the reference unless it is there already, reads it back and moves the local record
(`Feedback.ReviewReconciler.processCandidate`). Passes follow one another, and people
edit the task in between. Every call may fail or be the last of its process, and a write or an
adoption may land all the same. The claim that a crash leaves on the record would only keep the next
pass away for a while and is left out.
-/

namespace PlantManager.Feedback.ReviewReconciler

structure Reference where
  source : Value
  sourceId : Value
  type : Value
  status : Value
  dateStop : Value
  completedBy : Value
  notes : Value
  linkedTask : Value
  linkedWo : Value
  deriving DecidableEq

inductive Code where
  | taskIdentity
  | referenceIdentity
  | referenceLink
  | lifecycleMismatch
  | terminalConflict
  deriving DecidableEq, Repr

/-- The number of a linked record, unless the value is malformed. -/
def linkedId : Value → Option (Option ℤ)
  | .false | .null => some none
  | .linked id _ => if 0 < id then some (some id) else none
  | _ => none

def TaskIdentityMatches (site : Site) (task : Task) : Prop :=
  task.id = site.taskId ∧ task.active = true ∧ task.projectId = site.projectId ∧
    task.projectName = reviewTaskProject ∧ some task.stageId = site.stageId task.stageName ∧
    task.stageName ∈ reviewTaskStages ∧ task.hasSourceMetadata = true

instance (site : Site) (task : Task) : Decidable (TaskIdentityMatches site task) :=
  inferInstanceAs (Decidable (_ ∧ _ ∧ _ ∧ _ ∧ _ ∧ _ ∧ _))

/-- What is wrong with the identity of a reference; a malformed link raises. -/
def referenceIdentityCode (site : Site) (reference : Reference) : Option (Option Code) :=
  if reference.source ≠ .text "GPI Plant Manager" ∨ reference.sourceId ≠ .text site.sourceId ∨
      reference.type ≠ .text site.expectedType then some (some .referenceIdentity)
  else
    match linkedId reference.linkedWo with
    | none => none
    | some (some _) => some (some .referenceIdentity)
    | some none =>
        match linkedId reference.linkedTask with
        | none => none
        | some task => some (if task ≠ some site.taskId then some .referenceLink else none)

/-- A malformed link is as wrong as another identity. -/
def identityCode (site : Site) (reference : Reference) : Option Code :=
  (referenceIdentityCode site reference).getD (some .referenceIdentity)

/-- Whether a reference has the fields of a lifecycle; a malformed link raises. -/
def lifecycleMatches (reference : Reference) (fields : Fields) : Option Bool :=
  if reference.status ≠ .text fields.status then some false
  else
    match fields.result with
    | none => some true
    | some result =>
        if reference.dateStop ≠ .text result.dateStop then some false
        else
          match linkedId reference.completedBy with
          | none => none
          | some employee =>
              some (decide (employee = some result.completedBy ∧
                reference.notes = .text result.notes))

/-- Why a reference cannot take a lifecycle; a status without a hash raises. -/
def referenceConflictCode (reference : Reference) (fields : Fields) : Option (Option Code) :=
  match reference.status with
  | .linked _ _ | .collection => none
  | .text status =>
      if status = "Completed" ∨ status = "Declined" then
        if status ≠ fields.status then some (some .terminalConflict)
        else
          match lifecycleMatches reference fields with
          | none => none
          | some same => some (if same then none else some .terminalConflict)
      else if (status = "Requested" ∨ status = "In-Progress") ∧
          (reference.dateStop ≠ .false ∨ reference.completedBy ≠ .false ∨
            reference.notes ≠ .false) then some (some .lifecycleMismatch)
      else some none
  | _ => some none

def lifecycleReadback (reference : Reference) (fields : Fields) : Option Code × Bool :=
  match referenceConflictCode reference fields, lifecycleMatches reference fields with
  | some code, some same => (code, same)
  | _, _ => (some .lifecycleMismatch, false)

/-- What Odoo stores of a write. -/
def Reference.store (site : Site) (reference : Reference) (fields : Fields) : Reference :=
  match fields.result with
  | none => { reference with status := .text fields.status }
  | some result =>
      { reference with
        status := .text fields.status
        dateStop := .text result.dateStop
        completedBy := .linked result.completedBy (site.employeeName result.completedBy)
        notes := .text result.notes }

/-! ## A pass -/

structure World where
  record : Record
  reference : Reference
  task : Task

/-- How a call ends. -/
inductive Verdict where
  | answers
  /-- The connection fails. -/
  | fails
  /-- The answer is malformed, or the call is not allowed. -/
  | refused
  | raises
  /-- The process ends. -/
  | cut
  deriving DecidableEq, Repr

/-- How a write ends, and whether Odoo stored it all the same. -/
inductive WriteVerdict where
  | answers
  | lost (landed : Bool)
  | refused (landed : Bool)
  | raises (landed : Bool)
  | cut (landed : Bool)
  deriving DecidableEq, Repr

def WriteVerdict.landed : WriteVerdict → Bool
  | .answers => true
  | .lost landed | .refused landed | .raises landed | .cut landed => landed

/-- How the adoption of a lifecycle ends. -/
inductive StoreVerdict where
  | answers
  | raises
  | cut (landed : Bool)
  deriving DecidableEq, Repr

structure Script where
  readTask : Verdict
  ensureStage : Verdict
  readContract : Verdict
  findExact : Verdict
  readReference : Verdict
  write : WriteVerdict
  readBack : Verdict
  adopt : StoreVerdict
  attention : Verdict
  deriving DecidableEq, Repr

/-- No call fails. -/
def clean : Script where
  readTask := .answers
  ensureStage := .answers
  readContract := .answers
  findExact := .answers
  readReference := .answers
  write := .answers
  readBack := .answers
  adopt := .answers
  attention := .answers

inductive Outcome where
  | adopted
  | unchanged
  | attention (code : Code)
  | retry
  | isolated
  | crashed
  deriving DecidableEq, Repr

/-- What a pass returned, what it left, and what it wrote to the reference. -/
structure Passed where
  outcome : Outcome
  world : World
  writes : List Fields

def attention (script : Script) (code : Code) : Outcome :=
  match script.attention with
  | .answers => .attention code
  | .cut => .crashed
  | _ => .isolated

/-- Go on if a call answers. -/
def Verdict.next (verdict : Verdict) (script : Script) (world : World) (refused : Code)
    (next : Passed) : Passed :=
  match verdict with
  | .answers => next
  | .fails => ⟨.retry, world, []⟩
  | .refused => ⟨attention script refused, world, []⟩
  | .raises => ⟨.isolated, world, []⟩
  | .cut => ⟨.crashed, world, []⟩

/-- Move the local record, as long as its own rule allows it. -/
def adoptReviewLifecycle (script : Script) (world : World) (projection : Projection)
    (writes : List Fields) : Passed :=
  let adopted :=
    world.record.adopt world.record.status world.record.projectionVersion projection.review
  match script.adopt with
  | .raises => ⟨.isolated, world, writes⟩
  | .cut landed =>
      ⟨.crashed, if landed then { world with record := adopted.getD world.record } else world,
        writes⟩
  | .answers =>
      match adopted with
      | none =>
          ⟨if world.record.status.Terminal then attention script .terminalConflict else .retry,
            world, writes⟩
      | some record =>
          ⟨if projection.review ≠ world.record.review then .adopted else .unchanged,
            { world with record }, writes⟩

/-- Read a write back; it is known whether it was answered. -/
def readBack (site : Site) (script : Script) (world : World) (projection : Projection)
    (answered : Bool) : Passed :=
  let writes := [projection.fields]
  match script.readBack with
  | .fails => ⟨.retry, world, writes⟩
  | .refused | .raises => ⟨.isolated, world, writes⟩
  | .cut => ⟨.crashed, world, writes⟩
  | .answers =>
      match identityCode site world.reference with
      | some code =>
          ⟨attention script (if answered then .referenceIdentity else code), world, writes⟩
      | none =>
          match lifecycleReadback world.reference projection.fields with
          | (some code, _) => ⟨attention script code, world, writes⟩
          | (none, true) => adoptReviewLifecycle script world projection writes
          | (none, false) =>
              ⟨if answered then attention script .referenceIdentity else .retry, world, writes⟩

def writeImprovement (site : Site) (script : Script) (world : World) (projection : Projection) :
    Passed :=
  let stored :=
    if script.write.landed then
      { world with reference := world.reference.store site projection.fields }
    else world
  match script.write with
  | .answers => readBack site script stored projection true
  | .lost _ => readBack site script stored projection false
  | .refused _ => ⟨attention script .referenceIdentity, stored, [projection.fields]⟩
  | .raises _ => ⟨.isolated, stored, [projection.fields]⟩
  | .cut _ => ⟨.crashed, stored, [projection.fields]⟩

def processCandidate (site : Site) (world : World) (script : Script) : Passed :=
  script.readTask.next script world .taskIdentity <|
  script.ensureStage.next script world .taskIdentity <|
  if ¬TaskIdentityMatches site world.task then ⟨attention script .taskIdentity, world, []⟩
  else
    script.readContract.next script world .referenceIdentity <|
    match reviewLifecycleProjection site world.task with
    | .raised => ⟨.isolated, world, []⟩
    | .attention => ⟨attention script .lifecycleMismatch, world, []⟩
    | .lifecycle projection =>
        if ¬LocalTerminalMatches world.record projection then
          ⟨attention script .terminalConflict, world, []⟩
        else
          script.findExact.next script world .referenceIdentity <|
          if site.exactIds ≠ [site.improvementId] then
            ⟨attention script .referenceIdentity, world, []⟩
          else
            script.readReference.next script world .referenceIdentity <|
            match identityCode site world.reference with
            | some code => ⟨attention script code, world, []⟩
            | none =>
                match lifecycleReadback world.reference projection.fields with
                | (some code, _) => ⟨attention script code, world, []⟩
                | (none, true) => adoptReviewLifecycle script world projection []
                | (none, false) => writeImprovement site script world projection

/-- A pass runs, or somebody edits the task. -/
inductive Action where
  | pass (script : Script)
  | edit (task : Task)

def World.act (site : Site) (world : World) : Action → World
  | .pass script => (processCandidate site world script).world
  | .edit task => { world with task }

def run (site : Site) (world : World) (actions : List Action) : World :=
  actions.foldl (World.act site) world

end PlantManager.Feedback.ReviewReconciler

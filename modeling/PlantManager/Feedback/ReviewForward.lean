import PlantManager.Feedback.ReviewReconciler

/-! # One forward lifecycle

`Feedback.ReviewReconciler.stays_forward`: along every run the local record and the
reference of a review stay on one forward lifecycle exactly as long as the employee who closed the
task has a number that Odoo can store, and no task that is open again meets a record or a reference
that is in progress already. A pass writes the reference before it asks the local record, which then
refuses the lifecycle.
-/

namespace PlantManager.Feedback.ReviewReconciler

variable {site : Site} {world : World} {projection : Projection} {script : Script}

/-! ## What it is for -/

/-- The reference has exactly the fields of a lifecycle. -/
def Reference.Holds (reference : Reference) (fields : Fields) : Prop :=
  reference.status = .text fields.status ∧
    ∀ result ∈ fields.result, reference.dateStop = .text result.dateStop ∧
      (∃ name, reference.completedBy = .linked result.completedBy name) ∧
      reference.notes = .text result.notes

def Reference.Terminal (reference : Reference) : Prop :=
  reference.status = .text "Completed" ∨ reference.status = .text "Declined"

/-- The local record can follow a review from where it is. -/
def Adoptable (record : Record) (review : Review) : Prop :=
  (record.adopt record.status record.projectionVersion review).isSome

/-- A lifecycle that is written is where the reference is already, or after it. -/
def Forward (reference : Reference) (fields : Fields) : Prop :=
  ∀ status, reference.status = .text (statusValue status) →
    ∃ later, fields.status = statusValue later ∧ (later = status ∨ later ∈ transitions status)

/-- A pass came to its end. -/
def Settled (script : Script) (outcome : Outcome) : Prop :=
  script = clean ∨ outcome = .adopted ∨ outcome = .unchanged

/-- One forward lifecycle, whatever a pass meets. -/
structure Reconciles (site : Site) (world : World) : Prop where
  once : ∀ script, (processCandidate site world script).writes.length ≤ 1
  adoptable : ∀ script, ∀ fields ∈ (processCandidate site world script).writes, ∃ projection,
    reviewLifecycleProjection site world.task = .lifecycle projection ∧
      projection.fields = fields ∧ Adoptable world.record projection.review
  forward : ∀ script, ∀ fields ∈ (processCandidate site world script).writes,
    Forward world.reference fields
  referenceKept : world.reference.Terminal →
    ∀ actions, (run site world actions).reference = world.reference
  recordKept : world.record.status.Terminal →
    ∀ actions, (run site world actions).record = world.record
  readBack : ∀ script, (processCandidate site world script).world.record ≠ world.record →
    ∃ projection, reviewLifecycleProjection site world.task = .lifecycle projection ∧
      (processCandidate site world script).world.record.review = projection.review ∧
      (processCandidate site world script).world.reference.Holds projection.fields
  settles : ∀ script, Settled script (processCandidate site world script).outcome →
    let first := processCandidate site world script
    let second := processCandidate site first.world clean
    second.writes = [] ∧ (second.outcome = .unchanged ∨
      ∃ code, first.outcome = .attention code ∧ second.outcome = .attention code)

/-- A pass gets as far as the lifecycle fields of the reference. -/
structure Reached (site : Site) (world : World) (projection : Projection) : Prop where
  task : TaskIdentityMatches site world.task
  shown : reviewLifecycleProjection site world.task = .lifecycle projection
  matchesLocal : LocalTerminalMatches world.record projection
  exactly : site.exactIds = [site.improvementId]
  reference : identityCode site world.reference = none
  free : (lifecycleReadback world.reference projection.fields).1 = none

/-- The employee has a number that fits, and nothing in progress is requested again. -/
structure InStep (site : Site) (world : World) : Prop where
  numbered : TaskIdentityMatches site world.task → ∀ status event,
    projectionEvent world.task = some (status, some event) → status.Terminal →
      event.actorEmployeeId ≤ maxSigned64
  notReopened : ∀ projection, Reached site world projection → projection.status = .requested →
    world.record.status ≠ .inProgress ∧ world.reference.status ≠ .text "In-Progress"

/-! ## The local rule -/

theorem adopt_eq_some {record changed : Record} {review : Review} :
    record.adopt record.status record.projectionVersion review = some changed ↔
      review.WellFormed ∧ (review.status = record.status ∨
        review.status ∈ transitions record.status) ∧
      (record.status.Terminal → review = record.review) ∧
      changed =
        { record with
          status := review.status
          finishedAt := review.finishedAt
          finishedBy := review.finishedBy
          resolutionNote := review.resolutionNote
          projectionVersion :=
            if review ≠ record.review then record.projectionVersion + 1
            else record.projectionVersion } := by
  unfold Record.adopt
  simp only [ne_eq, not_true_eq_false, or_self, ↓reduceIte]
  split
  · rename_i malformed
    exact ⟨nofun, fun holds => absurd holds.1 malformed⟩
  rename_i wellFormed
  split
  · rename_i backward
    exact ⟨nofun, fun holds => (holds.2.1.elim backward.1 backward.2).elim⟩
  rename_i allowed
  split
  · rename_i rewritten
    exact ⟨nofun, fun holds => (rewritten.2 (holds.2.2.1 rewritten.1)).elim⟩
  rename_i kept
  rw [Option.some.injEq]
  constructor
  · rintro rfl
    refine ⟨not_not.mp wellFormed, ?_, ?_, rfl⟩
    · by_cases same : review.status = record.status
      · exact .inl same
      · exact .inr (by_contra fun refused => allowed ⟨same, refused⟩)
    · intro terminal
      by_contra differs
      exact kept ⟨terminal, differs⟩
  · rintro ⟨-, -, -, rfl⟩
    rfl

theorem adoptable_iff {record : Record} {review : Review} :
    Adoptable record review ↔ review.WellFormed ∧
      (review.status = record.status ∨ review.status ∈ transitions record.status) ∧
      (record.status.Terminal → review = record.review) := by
  unfold Adoptable
  rw [Option.isSome_iff_exists]
  constructor
  · rintro ⟨changed, adopted⟩
    obtain ⟨wellFormed, allowed, kept, -⟩ := adopt_eq_some.mp adopted
    exact ⟨wellFormed, allowed, kept⟩
  · rintro ⟨wellFormed, allowed, kept⟩
    exact ⟨_, adopt_eq_some.mpr ⟨wellFormed, allowed, kept, rfl⟩⟩

theorem review_of_adopt {record changed : Record} {review : Review}
    (adopted : record.adopt record.status record.projectionVersion review = some changed) :
    changed.review = review := by
  obtain ⟨-, -, -, rfl⟩ := adopt_eq_some.mp adopted
  rfl

/-- A record that a result was adopted into takes no other one. -/
theorem adopt_of_terminal {record changed : Record} {review : Review}
    (terminal : record.status.Terminal)
    (adopted : record.adopt record.status record.projectionVersion review = some changed) :
    changed = record := by
  obtain ⟨-, -, kept, rfl⟩ := adopt_eq_some.mp adopted
  obtain rfl := kept terminal
  rw [if_neg (not_not_intro rfl)]
  rfl

/-- Adopting a review again changes nothing. -/
theorem adopt_again {record changed : Record} {review : Review}
    (adopted : record.adopt record.status record.projectionVersion review = some changed) :
    changed.adopt changed.status changed.projectionVersion review = some changed := by
  have same := review_of_adopt adopted
  obtain ⟨wellFormed, -, -, -⟩ := adopt_eq_some.mp adopted
  refine adopt_eq_some.mpr ⟨wellFormed, .inl (congrArg Review.status same).symm,
    fun _ => same.symm, ?_⟩
  rw [if_neg (not_not_intro same.symm), ← same]
  rfl

/-! ## The reference -/

theorem linkedId_eq {value : Value} {id : ℤ} (linked : linkedId value = some (some id)) :
    ∃ name, value = .linked id name := by
  unfold linkedId at linked
  split at linked
  · cases linked
  · cases linked
  · rename_i other name
    split at linked
    · cases linked
      exact ⟨name, rfl⟩
    · cases linked
  · cases linked

theorem holds_of_matches {reference : Reference} {fields : Fields}
    (same : lifecycleMatches reference fields = some true) : reference.Holds fields := by
  unfold lifecycleMatches at same
  split at same
  · cases same
  rename_i status
  refine ⟨not_not.mp status, fun result held => ?_⟩
  rw [Option.mem_def.mp held] at same
  dsimp only at same
  split at same
  · cases same
  rename_i stopped
  split at same
  · cases same
  rename_i employee linked
  obtain ⟨rfl, notes⟩ := of_decide_eq_true (Option.some.inj same)
  exact ⟨not_not.mp stopped, linkedId_eq linked, notes⟩

theorem matches_of_readback {reference : Reference} {fields : Fields}
    (read : lifecycleReadback reference fields = (none, true)) :
    lifecycleMatches reference fields = some true := by
  unfold lifecycleReadback at read
  split at read
  · rename_i same
    cases read
    exact same
  · cases read

/-- Fields that Odoo stored match, for an employee with a number. -/
theorem matches_store {fields : Fields} (reference : Reference)
    (numbered : ∀ result ∈ fields.result, 0 < result.completedBy) :
    lifecycleMatches (reference.store site fields) fields = some true := by
  unfold lifecycleMatches Reference.store
  cases held : fields.result with
  | none => simp
  | some result => simp [linkedId, numbered result held]

@[simp]
theorem identityCode_store (reference : Reference) (fields : Fields) :
    identityCode site (reference.store site fields) = identityCode site reference := by
  unfold Reference.store
  split <;> rfl

/-- A reference with a result and no conflict has exactly the result. -/
theorem matches_of_terminal {reference : Reference} {fields : Fields}
    (terminal : reference.Terminal) (free : (lifecycleReadback reference fields).1 = none) :
    lifecycleReadback reference fields = (none, true) := by
  have text : ∃ status, reference.status = .text status ∧
      (status = "Completed" ∨ status = "Declined") := by
    rcases terminal with status | status
    · exact ⟨_, status, .inl rfl⟩
    · exact ⟨_, status, .inr rfl⟩
  obtain ⟨status, held, finished⟩ := text
  unfold lifecycleReadback referenceConflictCode at free ⊢
  rw [held] at free ⊢
  dsimp only at free ⊢
  rw [if_pos finished] at free ⊢
  by_cases other : status ≠ fields.status
  · rw [if_pos other] at free
    cases same : lifecycleMatches reference fields <;> rw [same] at free <;> cases free
  rw [if_neg other] at free ⊢
  cases same : lifecycleMatches reference fields with
  | none =>
      rw [same] at free
      cases free
  | some held =>
      rw [same] at free
      cases held
      · cases free
      · rfl

/-! ## The task -/

theorem latest_valid {events : List ReviewEvent} {actions : List ReviewAction}
    {event : ReviewEvent} (chosen : latest events actions = some event) : event.Valid := by
  unfold latest at chosen
  split at chosen
  · rename_i inOrder
    dsimp only at chosen
    split at chosen
    · rename_i only
      cases chosen
      have member := List.mem_of_mem_filter (only ▸ List.mem_singleton_self event)
      exact inOrder.2 event (List.mem_of_mem_filter member)
    · cases chosen
  · cases chosen

theorem closing_valid {task : Task} {action : ReviewAction} {status shown : Status}
    {event : ReviewEvent} (closed : closing task action status = some (shown, some event)) :
    event.Valid := by
  unfold closing at closed
  split at closed
  · cases closed
  · rename_i chosen
    split at closed
    · cases closed
    · cases closed
      exact latest_valid chosen

theorem projectionEvent_valid {task : Task} {status : Status} {event : ReviewEvent}
    (shown : projectionEvent task = some (status, some event)) : event.Valid := by
  unfold projectionEvent at shown
  split at shown
  · cases shown
  · split at shown
    · split at shown <;> cases shown
    · split at shown
      · cases shown
      · rename_i chosen
        dsimp only at shown
        split_ifs at shown
        cases shown
        exact latest_valid chosen
    · exact closing_valid shown
    · exact closing_valid shown
    · cases shown

/-- A projection raises only for an employee whose number is too large. -/
theorem raised_iff {task : Task} :
    reviewLifecycleProjection site task = .raised ↔ ∃ status event,
      projectionEvent task = some (status, some event) ∧ status.Terminal ∧
        maxSigned64 < event.actorEmployeeId := by
  unfold reviewLifecycleProjection
  cases shown : projectionEvent task with
  | none => simp
  | some pair =>
      obtain ⟨status, event⟩ := pair
      unfold reviewLifecycleFields
      by_cases terminal : status.Terminal
      · obtain ⟨selected, rfl, note⟩ := projectionEvent_note shown terminal
        have positive : ¬selected.actorEmployeeId ≤ 0 :=
          not_le.mpr (projectionEvent_valid shown).2.2.1
        by_cases large : maxSigned64 < selected.actorEmployeeId
        · simp [terminal, large]
        · simp [terminal, positive, large, note]
      · simp only [terminal, ↓reduceIte, reduceCtorEq, false_iff]
        rintro ⟨status', event', same, terminal', -⟩
        obtain ⟨rfl, -⟩ := Prod.mk.inj (Option.some.inj same)
        exact terminal terminal'

theorem wellFormed_review {task : Task}
    (shown : reviewLifecycleProjection site task = .lifecycle projection) :
    projection.review.WellFormed := by
  have projected := (reviewLifecycleProjection_eq shown).1
  unfold Review.WellFormed Projection.review
  by_cases terminal : projection.status.Terminal
  · obtain ⟨selected, held, -⟩ := projectionEvent_note projected terminal
    simp [terminal, held]
  · simp [terminal]

theorem fields_numbered {task : Task}
    (shown : reviewLifecycleProjection site task = .lifecycle projection) :
    projection.fields.status = statusValue projection.status ∧
      ∀ result ∈ projection.fields.result, 0 < result.completedBy := by
  have made := (reviewLifecycleProjection_eq shown).2
  unfold reviewLifecycleFields at made
  split at made
  · split at made
    · cases made
    · split at made
      · cases made
      · rename_i fits
        rw [← Option.some.inj made]
        refine ⟨rfl, fun result held => ?_⟩
        cases held
        exact not_le.mp fun least => fits (.inl least)
  · rw [← Option.some.inj made]
    exact ⟨rfl, nofun⟩

/-- A closed record that agrees with the task has its review. -/
theorem LocalTerminalMatches.review {record : Record}
    (agrees : LocalTerminalMatches record projection) (terminal : record.status.Terminal) :
    projection.review = record.review := by
  obtain ⟨-, status, finishedAt, finishedBy, note⟩ := agrees terminal
  have finished : projection.status.Terminal := status ▸ terminal
  unfold Projection.review Record.review
  simp only [finished, ↓reduceIte]
  rw [status, finishedAt, finishedBy, note]

theorem LocalTerminalMatches.of_review {record : Record}
    (same : record.review = projection.review)
    (closed : projection.status.Terminal → projection.event.isSome) :
    LocalTerminalMatches record projection := by
  intro terminal
  have status : record.status = projection.status := congrArg Review.status same
  have finished : projection.status.Terminal := status ▸ terminal
  refine ⟨closed finished, status, ?_, ?_, ?_⟩
  · exact (congrArg Review.finishedAt same).trans (if_pos finished)
  · exact (congrArg Review.finishedBy same).trans (if_pos finished)
  · exact (congrArg Review.resolutionNote same).trans (if_pos finished)

/-! ## What a pass does -/

/-- A pass ends before it gets to the lifecycle of the reference. -/
structure Stops (site : Site) (world : World) (script : Script) (outcome : Outcome) : Prop where
  unsettled : outcome ≠ .adopted ∧ outcome ≠ .unchanged
  clean : script = clean → (∃ code, outcome = .attention code) ∨
    TaskIdentityMatches site world.task ∧ reviewLifecycleProjection site world.task = .raised

/-- A pass stops, or it adopts or writes the lifecycle that it reached. -/
def Follows (site : Site) (world : World) (script : Script) (passed : Passed) : Prop :=
  (∃ outcome, Stops site world script outcome ∧ passed = ⟨outcome, world, []⟩) ∨
    ∃ projection, Reached site world projection ∧
      (lifecycleReadback world.reference projection.fields = (none, true) ∧
          passed = adoptReviewLifecycle script world projection [] ∨
        lifecycleReadback world.reference projection.fields = (none, false) ∧
          passed = writeImprovement site script world projection)

theorem attention_unsettled (code : Code) :
    attention script code ≠ .adopted ∧ attention script code ≠ .unchanged := by
  unfold attention
  split <;> exact ⟨nofun, nofun⟩

theorem Follows.attention (code : Code) :
    Follows site world script ⟨attention script code, world, []⟩ := by
  refine .inl ⟨_, ⟨attention_unsettled code, ?_⟩, rfl⟩
  rintro rfl
  exact .inl ⟨code, rfl⟩

theorem Follows.stop {outcome : Outcome} (unsettled : outcome ≠ .adopted ∧ outcome ≠ .unchanged)
    (failed : script ≠ clean) : Follows site world script ⟨outcome, world, []⟩ :=
  .inl ⟨outcome, ⟨unsettled, fun same => absurd same failed⟩, rfl⟩

theorem Follows.next {verdict : Verdict} {refused : Code} {passed : Passed}
    (answers : script = clean → verdict = .answers)
    (rest : Follows site world script passed) :
    Follows site world script (verdict.next script world refused passed) := by
  cases verdict with
  | answers => exact rest
  | refused =>
      exact .stop (attention_unsettled refused) fun same => nomatch answers same
  | fails | raises | cut =>
      exact .stop ⟨nofun, nofun⟩ fun same => nomatch answers same

theorem processCandidate_follows (site : Site) (world : World) (script : Script) :
    Follows site world script (processCandidate site world script) := by
  refine .next (fun same => same ▸ rfl) (.next (fun same => same ▸ rfl) ?_)
  split
  · exact .attention _
  rename_i task
  refine .next (fun same => same ▸ rfl) ?_
  split
  · rename_i raised
    exact .inl ⟨.isolated, ⟨⟨nofun, nofun⟩, fun _ => .inr ⟨not_not.mp task, raised⟩⟩, rfl⟩
  · exact .attention _
  rename_i projection shown
  split
  · exact .attention _
  rename_i matchesLocal
  refine .next (fun same => same ▸ rfl) ?_
  split
  · exact .attention _
  rename_i exactly
  refine .next (fun same => same ▸ rfl) ?_
  split
  · exact .attention _
  rename_i reference
  have reached (free : (lifecycleReadback world.reference projection.fields).1 = none) :
      Reached site world projection :=
    ⟨not_not.mp task, shown, not_not.mp matchesLocal, not_not.mp exactly, reference, free⟩
  split
  · exact .attention _
  · rename_i read
    exact .inr ⟨projection, reached (congrArg Prod.fst read), .inl ⟨read, rfl⟩⟩
  · rename_i read
    exact .inr ⟨projection, reached (congrArg Prod.fst read), .inr ⟨read, rfl⟩⟩

/-- The local record took a lifecycle that the reference was seen to have. -/
structure Adopts (site : Site) (record : Record) (projection : Projection) (later : World) :
    Prop where
  adopted : record.adopt record.status record.projectionVersion projection.review =
    some later.record
  identity : identityCode site later.reference = none
  read : lifecycleReadback later.reference projection.fields = (none, true)

/-- What a pass does with a lifecycle that it reached. -/
structure Moves (site : Site) (world : World) (projection : Projection) (passed : Passed) :
    Prop where
  task : passed.world.task = world.task
  record : passed.world.record = world.record ∨
    Adopts site world.record projection passed.world
  settled : passed.outcome = .adopted ∨ passed.outcome = .unchanged →
    Adopts site world.record projection passed.world

theorem Moves.stay {outcome : Outcome} {writes : List Fields} {later : World}
    (unsettled : outcome ≠ .adopted ∧ outcome ≠ .unchanged) (task : later.task = world.task)
    (record : later.record = world.record) :
    Moves site world projection ⟨outcome, later, writes⟩ where
  task := task
  record := .inl record
  settled := fun settled => (settled.elim unsettled.1 unsettled.2).elim

theorem adoptReviewLifecycle_moves {writes : List Fields} {later : World}
    (task : later.task = world.task) (record : later.record = world.record)
    (identity : identityCode site later.reference = none)
    (read : lifecycleReadback later.reference projection.fields = (none, true)) :
    Moves site world projection (adoptReviewLifecycle script later projection writes) := by
  unfold adoptReviewLifecycle
  dsimp only
  split
  · exact .stay ⟨nofun, nofun⟩ task record
  · rename_i landed _
    cases landed with
    | false => exact .stay ⟨nofun, nofun⟩ task record
    | true =>
        cases adopted : later.record.adopt later.record.status
            later.record.projectionVersion projection.review with
        | none => exact .stay ⟨nofun, nofun⟩ task record
        | some changed =>
            have moved : Adopts site world.record projection { later with record := changed } :=
              ⟨record ▸ adopted, identity, read⟩
            exact ⟨task, .inr moved, fun _ => moved⟩
  · split
    · refine .stay ?_ task record
      split
      · exact attention_unsettled _
      · exact ⟨nofun, nofun⟩
    · rename_i changed adopted
      have moved : Adopts site world.record projection { later with record := changed } :=
        ⟨record ▸ adopted, identity, read⟩
      exact ⟨task, .inr moved, fun _ => moved⟩

theorem readBack_moves {later : World} {answered : Bool} (task : later.task = world.task)
    (record : later.record = world.record) :
    Moves site world projection (readBack site script later projection answered) := by
  unfold readBack
  dsimp only
  split
  · exact .stay ⟨nofun, nofun⟩ task record
  · exact .stay ⟨nofun, nofun⟩ task record
  · exact .stay ⟨nofun, nofun⟩ task record
  · exact .stay ⟨nofun, nofun⟩ task record
  · split
    · exact .stay (attention_unsettled _) task record
    · rename_i identity
      split
      · exact .stay (attention_unsettled _) task record
      · rename_i read
        exact adoptReviewLifecycle_moves task record identity read
      · refine .stay ?_ task record
        split
        · exact attention_unsettled _
        · exact ⟨nofun, nofun⟩

theorem writeImprovement_moves :
    Moves site world projection (writeImprovement site script world projection) := by
  unfold writeImprovement
  dsimp only
  have task : (if script.write.landed then
      { world with reference := world.reference.store site projection.fields }
      else world).task = world.task := by
    split <;> rfl
  have record : (if script.write.landed then
      { world with reference := world.reference.store site projection.fields }
      else world).record = world.record := by
    split <;> rfl
  split
  · exact readBack_moves task record
  · exact readBack_moves task record
  · exact .stay (attention_unsettled _) task record
  · exact .stay ⟨nofun, nofun⟩ task record
  · exact .stay ⟨nofun, nofun⟩ task record

theorem adoptReviewLifecycle_frame (writes : List Fields) :
    (adoptReviewLifecycle script world projection writes).writes = writes ∧
      (adoptReviewLifecycle script world projection writes).world.reference =
        world.reference := by
  unfold adoptReviewLifecycle
  dsimp only
  split
  · exact ⟨rfl, rfl⟩
  · refine ⟨rfl, ?_⟩
    split <;> rfl
  · split <;> exact ⟨rfl, rfl⟩

theorem readBack_writes {answered : Bool} :
    (readBack site script world projection answered).writes = [projection.fields] := by
  unfold readBack
  dsimp only
  split
  · rfl
  · rfl
  · rfl
  · rfl
  · split
    · rfl
    · split
      · rfl
      · exact (adoptReviewLifecycle_frame _).1
      · rfl

theorem writeImprovement_writes :
    (writeImprovement site script world projection).writes = [projection.fields] := by
  unfold writeImprovement
  dsimp only
  split
  · exact readBack_writes
  · exact readBack_writes
  · rfl
  · rfl
  · rfl

/-! ## A pass and the next one -/

/-- A pass without a failing call gets to the reference. -/
theorem processCandidate_clean (task : TaskIdentityMatches site world.task)
    (shown : reviewLifecycleProjection site world.task = .lifecycle projection)
    (agrees : LocalTerminalMatches world.record projection)
    (exactly : site.exactIds = [site.improvementId])
    (reference : identityCode site world.reference = none) :
    processCandidate site world clean =
      match lifecycleReadback world.reference projection.fields with
      | (some code, _) => ⟨.attention code, world, []⟩
      | (none, true) => adoptReviewLifecycle clean world projection []
      | (none, false) => writeImprovement site clean world projection := by
  change (if ¬TaskIdentityMatches site world.task then _ else _) = _
  rw [if_neg (not_not_intro task), shown]
  change (if ¬LocalTerminalMatches world.record projection then _ else _) = _
  rw [if_neg (not_not_intro agrees)]
  rw [if_neg (not_not_intro exactly), reference]
  rfl

theorem adoptReviewLifecycle_clean {record : Record} {writes : List Fields}
    (adopted : world.record.adopt world.record.status world.record.projectionVersion
      projection.review = some record) :
    adoptReviewLifecycle clean world projection writes =
      ⟨if projection.review ≠ world.record.review then .adopted else .unchanged,
        { world with record }, writes⟩ := by
  unfold adoptReviewLifecycle
  dsimp only [clean]
  rw [adopted]

section

variable (reached : Reached site world projection)
include reached

theorem Reached.numbered :
    projection.fields.status = statusValue projection.status ∧
      ∀ result ∈ projection.fields.result, 0 < result.completedBy :=
  fields_numbered reached.shown

/-- Once a lifecycle is adopted, a pass finds nothing to do. -/
theorem Reached.again {later : World} (task : later.task = world.task)
    (adopts : Adopts site world.record projection later) :
    processCandidate site later clean = ⟨.unchanged, later, []⟩ := by
  have same := review_of_adopt adopts.adopted
  have agrees : LocalTerminalMatches later.record projection := by
    refine .of_review same fun terminal => ?_
    obtain ⟨event, held, -⟩ :=
      projectionEvent_note (reviewLifecycleProjection_eq reached.shown).1 terminal
    exact held ▸ rfl
  rw [processCandidate_clean (task ▸ reached.task) (task ▸ reached.shown) agrees
    reached.exactly adopts.identity, adopts.read]
  dsimp only
  rw [adoptReviewLifecycle_clean (adopt_again adopts.adopted),
    if_neg (not_not_intro same.symm)]

/-- A lifecycle that a pass in step reaches can be adopted. -/
theorem Reached.adoptable (inStep : InStep site world) :
    Adoptable world.record projection.review := by
  refine adoptable_iff.mpr
    ⟨wellFormed_review reached.shown, ?_, fun terminal => reached.matchesLocal.review terminal⟩
  change projection.status = world.record.status ∨ _
  cases held : world.record.status with
  | requested =>
      change _ ∨ projection.status ∈ _
      cases projection.status <;> decide
  | inProgress =>
      change _ ∨ projection.status ∈ _
      cases shown : projection.status with
      | requested => exact absurd held (inStep.notReopened projection reached shown).1
      | inProgress | completed | declined => decide
  | completed => exact .inl ((reached.matchesLocal (.inl held)).2.1.symm.trans held)
  | declined => exact .inl ((reached.matchesLocal (.inr held)).2.1.symm.trans held)

end

theorem statusValue_injective : Function.Injective statusValue := by
  intro first second same
  cases first <;> cases second <;> first | rfl | exact absurd same (by decide)

theorem terminal_of_status {reference : Reference} {status : Status}
    (terminal : status.Terminal) (held : reference.status = .text (statusValue status)) :
    reference.Terminal := by
  rcases terminal with rfl | rfl
  · exact .inl held
  · exact .inr held

/-- A lifecycle that a pass in step writes is not behind the reference. -/
theorem Reached.forward (reached : Reached site world projection) (inStep : InStep site world)
    (differs : lifecycleReadback world.reference projection.fields = (none, false)) :
    Forward world.reference projection.fields := by
  intro status held
  refine ⟨projection.status, reached.numbered.1, ?_⟩
  cases status with
  | requested => cases projection.status <;> decide
  | inProgress =>
      cases shown : projection.status with
      | requested => exact absurd held (inStep.notReopened projection reached shown).2
      | inProgress | completed | declined => decide
  | completed =>
      have same := matches_of_terminal (terminal_of_status (.inl rfl) held) reached.free
      cases differs.symm.trans same
  | declined =>
      have same := matches_of_terminal (terminal_of_status (.inr rfl) held) reached.free
      cases differs.symm.trans same

/-- A pass writes nothing, or the one lifecycle that it reached. -/
theorem writes_cases (site : Site) (world : World) (script : Script) :
    ((processCandidate site world script).writes = [] ∧
      (processCandidate site world script).world.reference = world.reference) ∨
    ∃ projection, Reached site world projection ∧
      lifecycleReadback world.reference projection.fields = (none, false) ∧
      (processCandidate site world script).writes = [projection.fields] := by
  obtain ⟨outcome, -, same⟩ | ⟨projection, reached, ⟨-, same⟩ | ⟨differs, same⟩⟩ :=
    processCandidate_follows site world script
  · exact .inl (same ▸ ⟨rfl, rfl⟩)
  · exact .inl (same ▸ adoptReviewLifecycle_frame [])
  · exact .inr ⟨projection, reached, differs, same ▸ writeImprovement_writes⟩

/-- A pass leaves everything unsettled as it was, or moves to the lifecycle that it reached. -/
theorem moves_cases (site : Site) (world : World) (script : Script) :
    (∃ outcome, Stops site world script outcome ∧
      processCandidate site world script = ⟨outcome, world, []⟩) ∨
    ∃ projection, Reached site world projection ∧
      Moves site world projection (processCandidate site world script) := by
  obtain stopped | ⟨projection, reached, ⟨read, same⟩ | ⟨-, same⟩⟩ :=
    processCandidate_follows site world script
  · exact .inl stopped
  · exact .inr ⟨projection, reached,
      same ▸ adoptReviewLifecycle_moves rfl rfl reached.reference read⟩
  · exact .inr ⟨projection, reached, same ▸ writeImprovement_moves⟩

/-! ## Results stay -/

theorem act_reference (terminal : world.reference.Terminal) (action : Action) :
    (world.act site action).reference = world.reference := by
  cases action with
  | edit task => rfl
  | pass script =>
      obtain ⟨-, same⟩ | ⟨projection, reached, differs, -⟩ := writes_cases site world script
      · exact same
      · cases differs.symm.trans (matches_of_terminal terminal reached.free)

theorem act_record (terminal : world.record.status.Terminal) (action : Action) :
    (world.act site action).record = world.record := by
  cases action with
  | edit task => rfl
  | pass script =>
      change (processCandidate site world script).world.record = _
      obtain ⟨outcome, -, same⟩ | ⟨projection, -, moves⟩ := moves_cases site world script
      · rw [same]
      · obtain same | adopts := moves.record
        · exact same
        · exact adopt_of_terminal terminal adopts.adopted

theorem run_reference (terminal : world.reference.Terminal) (actions : List Action) :
    (run site world actions).reference = world.reference := by
  induction actions generalizing world with
  | nil => rfl
  | cons action rest ih =>
      have same : (world.act site action).reference = world.reference := act_reference terminal action
      exact (ih (same ▸ terminal)).trans same

theorem run_record (terminal : world.record.status.Terminal) (actions : List Action) :
    (run site world actions).record = world.record := by
  induction actions generalizing world with
  | nil => rfl
  | cons action rest ih =>
      have same : (world.act site action).record = world.record := act_record terminal action
      exact (ih (same ▸ terminal)).trans same

/-! ## The next pass finds nothing to do -/

theorem readback_store {reference : Reference} {fields : Fields}
    (numbered : ∀ result ∈ fields.result, 0 < result.completedBy)
    (free : (lifecycleReadback (reference.store site fields) fields).1 = none) :
    lifecycleReadback (reference.store site fields) fields = (none, true) := by
  unfold lifecycleReadback at free ⊢
  rw [matches_store reference numbered] at free ⊢
  split at free
  · rename_i matched
    cases matched
    exact congrArg (·, true) free
  · cases free

/-- What a pass without a failing call does with a lifecycle that it writes. -/
theorem Reached.write_clean (reached : Reached site world projection)
    (inStep : InStep site world) :
    let stored := { world with reference := world.reference.store site projection.fields }
    (∃ code, writeImprovement site clean world projection =
        ⟨.attention code, stored, [projection.fields]⟩ ∧
      processCandidate site stored clean = ⟨.attention code, stored, []⟩) ∨
    ∃ outcome record, (outcome = .adopted ∨ outcome = .unchanged) ∧
      writeImprovement site clean world projection =
        ⟨outcome, { stored with record }, [projection.fields]⟩ := by
  intro stored
  have identity : identityCode site stored.reference = none :=
    (identityCode_store _ _).trans reached.reference
  have wrote : writeImprovement site clean world projection =
      readBack site clean stored projection true := rfl
  simp only [readBack, identity] at wrote
  have next : processCandidate site stored clean = _ := processCandidate_clean reached.task
    reached.shown reached.matchesLocal reached.exactly identity
  cases conflict : (lifecycleReadback stored.reference projection.fields).1 with
  | some code =>
      have read : lifecycleReadback stored.reference projection.fields = (some code, _) :=
        Prod.ext conflict rfl
      rw [read] at wrote next
      exact .inl ⟨code, wrote, next⟩
  | none =>
      obtain ⟨record, adopted⟩ := Option.isSome_iff_exists.mp (reached.adoptable inStep)
      rw [readback_store reached.numbered.2 conflict] at wrote
      have settled : adoptReviewLifecycle clean stored projection [projection.fields] = _ :=
        adoptReviewLifecycle_clean adopted
      rw [settled] at wrote
      refine .inr ⟨_, record, ?_, wrote⟩
      split
      · exact .inl rfl
      · exact .inr rfl

/-- A pass without a failing call settles, or says twice why it does not. -/
theorem clean_cases (inStep : InStep site world) :
    ((processCandidate site world clean).outcome = .adopted ∨
      (processCandidate site world clean).outcome = .unchanged) ∨
    ∃ code, (processCandidate site world clean).outcome = .attention code ∧
      processCandidate site (processCandidate site world clean).world clean =
        ⟨.attention code, (processCandidate site world clean).world, []⟩ := by
  obtain ⟨outcome, stops, same⟩ | ⟨projection, reached, ⟨-, same⟩ | ⟨-, same⟩⟩ :=
    processCandidate_follows site world clean
  · obtain ⟨code, rfl⟩ | ⟨task, raised⟩ := stops.clean rfl
    · refine .inr ⟨code, ?_, ?_⟩ <;> rw [same]
      exact same
    · obtain ⟨status, event, shown, terminal, large⟩ := raised_iff.mp raised
      exact absurd (inStep.numbered task status event shown terminal) (not_le.mpr large)
  · obtain ⟨record, adopted⟩ := Option.isSome_iff_exists.mp (reached.adoptable inStep)
    rw [adoptReviewLifecycle_clean adopted] at same
    rw [same]
    left
    split
    · exact .inl rfl
    · exact .inr rfl
  · rw [same]
    obtain ⟨code, wrote, next⟩ | ⟨outcome, record, settled, wrote⟩ := reached.write_clean inStep
    · rw [wrote]
      exact .inr ⟨code, rfl, next⟩
    · rw [wrote]
      exact .inl settled

theorem InStep.settles (inStep : InStep site world) (script : Script)
    (settled : Settled script (processCandidate site world script).outcome) :
    let first := processCandidate site world script
    let second := processCandidate site first.world clean
    second.writes = [] ∧ (second.outcome = .unchanged ∨
      ∃ code, first.outcome = .attention code ∧ second.outcome = .attention code) := by
  intro first second
  have quiet (moved : first.outcome = .adopted ∨ first.outcome = .unchanged) :
      second = ⟨.unchanged, first.world, []⟩ := by
    obtain ⟨outcome, stops, same⟩ | ⟨projection, reached, moves⟩ :=
      moves_cases site world script
    · have unsettled := stops.unsettled
      change (processCandidate site world script).outcome = _ ∨
        (processCandidate site world script).outcome = _ at moved
      rw [same] at moved
      exact (moved.elim unsettled.1 unsettled.2).elim
    · exact reached.again moves.task (moves.settled moved)
  rcases settled with rfl | moved
  · rcases clean_cases inStep with moved | ⟨code, outcome, next⟩
    · rw [quiet moved]
      exact ⟨rfl, .inl rfl⟩
    · change second = _ at next
      rw [next]
      exact ⟨rfl, .inr ⟨code, outcome, rfl⟩⟩
  · rw [quiet moved]
    exact ⟨rfl, .inl rfl⟩

theorem InStep.reconciles (inStep : InStep site world) : Reconciles site world where
  once := by
    intro script
    obtain ⟨none, -⟩ | ⟨projection, -, -, one⟩ := writes_cases site world script
    · rw [none]
      exact Nat.zero_le 1
    · rw [one]
      exact Nat.le_refl 1
  adoptable := by
    intro script fields written
    obtain ⟨none, -⟩ | ⟨projection, reached, -, one⟩ := writes_cases site world script
    · rw [none] at written
      cases written
    · rw [one, List.mem_singleton] at written
      exact ⟨projection, reached.shown, written.symm, reached.adoptable inStep⟩
  forward := by
    intro script fields written
    obtain ⟨none, -⟩ | ⟨projection, reached, differs, one⟩ := writes_cases site world script
    · rw [none] at written
      cases written
    · rw [one, List.mem_singleton] at written
      exact written ▸ reached.forward inStep differs
  referenceKept := fun terminal => run_reference terminal
  recordKept := fun terminal => run_record terminal
  readBack := by
    intro script changed
    obtain ⟨outcome, -, same⟩ | ⟨projection, reached, moves⟩ := moves_cases site world script
    · rw [same] at changed
      exact absurd rfl changed
    · obtain same | adopts := moves.record
      · exact absurd same changed
      · exact ⟨projection, reached.shown, review_of_adopt adopts.adopted,
          holds_of_matches (matches_of_readback adopts.read)⟩
  settles := inStep.settles

/-! ## What goes wrong otherwise -/

theorem Reconciles.numbered (holds : Reconciles site world)
    (task : TaskIdentityMatches site world.task)
    (raised : reviewLifecycleProjection site world.task = .raised) : False := by
  have isolated : processCandidate site world clean = ⟨.isolated, world, []⟩ := by
    change (if ¬TaskIdentityMatches site world.task then _ else _) = _
    rw [if_neg (not_not_intro task), raised]
    rfl
  have settles := (holds.settles clean (.inl rfl)).2
  rw [isolated] at settles
  rw [isolated] at settles
  rcases settles with same | ⟨code, same, -⟩ <;> cases same

theorem Reached.written (reached : Reached site world projection)
    (differs : lifecycleReadback world.reference projection.fields = (none, false)) :
    projection.fields ∈ (processCandidate site world clean).writes := by
  rw [processCandidate_clean reached.task reached.shown reached.matchesLocal reached.exactly
    reached.reference, differs]
  rw [writeImprovement_writes]
  exact List.mem_singleton_self _

theorem Reached.readback (reached : Reached site world projection) :
    lifecycleReadback world.reference projection.fields = (none, false) ∨
      lifecycleReadback world.reference projection.fields = (none, true) := by
  cases same : (lifecycleReadback world.reference projection.fields).2 with
  | false => exact .inl (Prod.ext reached.free same)
  | true => exact .inr (Prod.ext reached.free same)

/-- A record in progress refuses a request, which is written or tried again and again. -/
theorem Reconciles.record_notReopened (holds : Reconciles site world)
    (reached : Reached site world projection) (requested : projection.status = .requested) :
    world.record.status ≠ .inProgress := by
  intro inProgress
  have refused : ¬Adoptable world.record projection.review := by
    intro adoptable
    have allowed : projection.status = world.record.status ∨
      projection.status ∈ transitions world.record.status := (adoptable_iff.mp adoptable).2.1
    rw [requested, inProgress] at allowed
    exact absurd allowed (by decide)
  rcases reached.readback with differs | read
  · obtain ⟨other, shown, -, adoptable⟩ := holds.adoptable clean _ (reached.written differs)
    cases shown.symm.trans reached.shown
    exact refused adoptable
  · have retried : processCandidate site world clean = ⟨.retry, world, []⟩ := by
      rw [processCandidate_clean reached.task reached.shown reached.matchesLocal
        reached.exactly reached.reference, read]
      unfold adoptReviewLifecycle
      rw [Option.not_isSome_iff_eq_none.mp refused]
      dsimp only
      rw [inProgress]
      rfl
    have settles := (holds.settles clean (.inl rfl)).2
    rw [retried] at settles
    rw [retried] at settles
    rcases settles with same | ⟨code, same, -⟩ <;> cases same

/-- A reference in progress would be moved back to a request. -/
theorem Reconciles.reference_notReopened (holds : Reconciles site world)
    (reached : Reached site world projection) (requested : projection.status = .requested) :
    world.reference.status ≠ .text "In-Progress" := by
  intro inProgress
  have status : projection.fields.status = "Requested" := by
    rw [reached.numbered.1, requested]
    rfl
  rcases reached.readback with differs | read
  · obtain ⟨later, same, forward⟩ :=
      holds.forward clean _ (reached.written differs) .inProgress inProgress
    obtain rfl : later = .requested := statusValue_injective (same.symm.trans status)
    exact absurd forward (by decide)
  · have same := (holds_of_matches (matches_of_readback read)).1
    rw [inProgress, status] at same
    exact absurd same (by decide)

theorem reconciles_iff : Reconciles site world ↔ InStep site world := by
  refine ⟨fun holds => ⟨?_, ?_⟩, InStep.reconciles⟩
  · intro task status event shown terminal
    by_contra large
    exact holds.numbered task
      (raised_iff.mpr ⟨status, event, shown, terminal, not_le.mp large⟩)
  · intro projection reached requested
    exact ⟨holds.record_notReopened reached requested,
      holds.reference_notReopened reached requested⟩

/-- Along a run, local record and reference stay on one forward lifecycle exactly as long as every
state on the way is in step. -/
theorem stays_forward (site : Site) (first : World) (actions : List Action) :
    (∀ done, done <+: actions → Reconciles site (run site first done)) ↔
      ∀ done, done <+: actions → InStep site (run site first done) :=
  forall₂_congr fun _ _ => reconciles_iff

/-! ## A task that is reopened -/

/-- The pair of a task and a reference with these numbers. -/
private def pair : Site where
  taskId := 7
  improvementId := 9
  sourceId := "GPI-PM-FB-1"
  expectedType := "Other"
  projectId := 3
  stageId := fun _ => some 4
  exactIds := [9]
  stopText := fun _ => "2026-01-05"
  employeeName := fun _ => "Ana"

/-- Work began, and then somebody put the task back without its events. -/
private def reopened : World where
  record :=
    { behavior := .review
      status := .inProgress
      finishedAt := none
      finishedBy := none
      resolutionNote := none
      projectionVersion := 2 }
  reference :=
    { source := .text "GPI Plant Manager"
      sourceId := .text "GPI-PM-FB-1"
      type := .text "Other"
      status := .text "In-Progress"
      dateStop := .false
      completedBy := .false
      notes := .false
      linkedTask := .linked 7 "Review"
      linkedWo := .false }
  task :=
    { id := 7
      projectId := 3
      projectName := reviewTaskProject
      stageId := 4
      stageName := "General"
      userIds := [5]
      state := "01_in_progress"
      active := true
      writeDate := 0
      hasSourceMetadata := true
      events := [] }

theorem reopened_written : ¬∀ site world, Reconciles site world := by
  intro holds
  have written : (processCandidate pair reopened clean).writes = [⟨"Requested", none⟩] := by
    decide +kernel
  obtain ⟨projection, shown, same, adoptable⟩ :=
    (holds pair reopened).adoptable clean ⟨"Requested", none⟩ (written ▸ List.mem_singleton_self _)
  have requested : projection.status = .requested :=
    statusValue_injective ((fields_numbered shown).1.symm.trans (congrArg Fields.status same))
  have allowed : projection.status = .inProgress ∨ projection.status ∈ transitions .inProgress :=
    (adoptable_iff.mp adoptable).2.1
  rw [requested] at allowed
  exact absurd allowed (by decide)

end PlantManager.Feedback.ReviewReconciler

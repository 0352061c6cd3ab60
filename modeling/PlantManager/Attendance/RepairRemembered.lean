import PlantManager.Attendance.RepairFence

/-! # Wrong departments are remembered

A newer projection that reads the version of the mirror and finds a wrong department leaves the
repair open, or failed with its attempts spent:
`Attendance.Repair.wrong_department_remembered`. Nothing is said of a repair that
was completed for the same version, work center and department.
-/

namespace PlantManager.Attendance.Repair

open Checks Mapping Transition
open Projection (PlantCalendar)
open Mirror (AttendanceRow MirrorRow)

variable {W : Type} [DecidableEq W] {calendar : PlantCalendar} {attendanceId : ℤ}

/-- The repair is open, or the same was attempted as often as allowed. -/
def Remembered (row : RepairRow) (wanted : Intent) : Prop :=
  row.status = .pending ∨ row.status = .applying ∨
    row.status = .failed ∧ row.intent.key = wanted.key ∧ maxAttempts ≤ row.attemptCount

/-- The projection read the version in the mirror, and found a wrong department. -/
structure FindsWrong (attendanceId : ℤ) (tables : Tables) (proof : RepairProjectionProof) :
    Prop where
  exact : ∃ mirror, tables.live attendanceId = some mirror ∧ ExactProjection mirror proof
  wrong : proof.departmentId ≠ some proof.targetDepartmentId

/-- The projection is newer than the repair, of no older version, and the repair is not complete
for what the projection asks for. -/
structure Newer (row : RepairRow) (wanted : Intent) : Prop where
  projected : row.intent.projectedAt < wanted.projectedAt
  version : row.intent.writeDate ≤ wanted.writeDate
  incomplete : row.status = .complete → row.intent.key ≠ wanted.key

variable (live : Option MirrorRow)

variable {candidate : Intent}

theorem rebase_of_le {newest : ℤ} (version : newest ≤ candidate.writeDate) :
    rebase live candidate newest = some candidate :=
  if_neg (not_lt.mpr version)

theorem applying_enqueueApplying (candidate : Intent) {row : RepairRow}
    (applying : row.status = .applying) :
    (enqueueApplying live candidate row).2.status = .applying := by
  dsimp only [enqueueApplying]
  split
  · exact applying
  · split
    · exact applying
    · split
      · exact applying
      · exact applying

theorem remembered_enqueueSettled (now : ℤ) {row : RepairRow} (formed : row.Formed)
    (newer : Newer row candidate) (settled : row.status ≠ .applying) :
    Remembered (enqueueSettled live candidate now row).2 candidate := by
  unfold enqueueSettled
  rw [if_neg (not_le.mpr newer.projected), rebase_of_le live newer.version]
  dsimp only
  split
  · rename_i same
    cases status : row.status with
    | pending => exact .inl rfl
    | applying => exact absurd status settled
    | complete => exact absurd same.symm (newer.incomplete status)
    | failed => exact .inr (.inr ⟨rfl, same.symm, formed.spent status⟩)
  · exact .inl rfl

theorem remembered_enqueue (now : ℤ) {repair : Option RepairRow}
    (formed : ∀ row ∈ repair, row.Formed)
    (newer : ∀ row ∈ repair, row.status ≠ .applying → Newer row candidate) :
    Remembered (enqueueCur live candidate now repair).2 candidate := by
  cases repair with
  | none => exact .inl rfl
  | some row =>
      dsimp only [enqueueCur]
      split
      · rename_i applying
        exact .inr (.inl (applying_enqueueApplying live candidate applying))
      · rename_i settled
        exact remembered_enqueueSettled live now (formed row rfl) (newer row rfl settled) settled

theorem formed_step {state next : State W} {action : Action W}
    (formed : ∀ row ∈ state.tables.repair, row.Formed)
    (taken : step calendar attendanceId state action = some next) :
    ∀ row ∈ next.tables.repair, row.Formed := by
  rcases step_cases formed taken with ⟨worker, now, -, claims⟩ | moves
  · obtain ⟨repair, claim, row, found, claimed, after, -⟩ := claims.taken
    intro other shown
    rw [after] at shown
    obtain rfl := Option.some.inj shown
    exact formed_claimed claimed (formed repair found)
  · exact moves.repair.formed formed

/-- After every run, a reconciliation that finds a wrong department leaves it remembered. -/
theorem wrong_department_remembered (calendar : PlantCalendar) (attendanceId : ℤ)
    (mirror : Mirror.Tables) {state next : State W}
    (reachable : Reachable (State.start mirror) (step calendar attendanceId) (fun _ _ => True)
      state)
    {proof : RepairProjectionProof} {candidate : Bool} {now : ℤ}
    (taken : step calendar attendanceId state (.reconcile proof candidate now) = some next)
    (finds : FindsWrong attendanceId state.tables proof)
    (newer : ∀ row ∈ state.tables.repair, row.status ≠ .applying → Newer row proof.candidate) :
    ∃ row, next.tables.repair = some row ∧ Remembered row proof.candidate := by
  have formed : ∀ row ∈ state.tables.repair, row.Formed :=
    reachable.invariant (fun _ found => by cases found)
      fun _ _ _ formed _ taken => formed_step formed taken
  obtain ⟨⟨live, found, exact⟩, wrong⟩ := finds
  dsimp only [step] at taken
  split at taken
  · rename_i covered
    obtain rfl : candidate = true := covered.resolve_right wrong
    obtain ⟨repair, reconciled, rfl⟩ := Option.map_eq_some_iff.mp taken
    have reconciled := eq_ok_of_toOption reconciled
    rw [found] at reconciled
    dsimp only [reconcileRow] at reconciled
    rw [if_neg (by nofun), if_neg fun both => both.1 exact, if_pos rfl, if_neg wrong] at reconciled
    exact ⟨_, (Except.ok.inj reconciled).symm, remembered_enqueue _ now formed newer⟩
  · cases taken

/-- The department is asked for, tried three times in vain, and asked for again. -/
def failedRepair : List (Action ℕ) :=
  let attempt (now : ℤ) : List (Action ℕ) :=
    [.claim 0 now, .read 0 (.error "timeout"), .settle 0]
  [.reconcile (wrongDepartment 30) true 30] ++ attempt 40 ++ attempt 50 ++ attempt 60

theorem wrong_department_remembered_failed :
    ∃ state next, run (step Projection.uniformCalendar 901) (State.start oneMirror)
        failedRepair = some state ∧
      step Projection.uniformCalendar 901 state (.reconcile (wrongDepartment 70) true 70) =
        some next ∧
      ∃ row, next.tables.repair = some row ∧ Remembered row (wrongDepartment 70).candidate := by
  obtain ⟨state, next, ran, taken, finds, newer⟩ : ∃ state next,
      run (step Projection.uniformCalendar 901) (State.start oneMirror) failedRepair =
        some state ∧
      step Projection.uniformCalendar 901 state (.reconcile (wrongDepartment 70) true 70) =
        some next ∧ FindsWrong 901 state.tables (wrongDepartment 70) ∧
      ∀ row ∈ state.tables.repair, row.status ≠ .applying →
        Newer row (wrongDepartment 70).candidate := by
    refine ⟨_, _, rfl, rfl, ⟨⟨_, rfl, by decide⟩, by decide⟩, fun row found _ => ?_⟩
    obtain rfl := Option.some.inj found
    exact ⟨by decide, by decide, by decide⟩
  have reachable := Reachable.initial.run (fun _ _ _ => trivial) ran
  exact ⟨state, next, ran, taken, wrong_department_remembered Projection.uniformCalendar 901
    oneMirror reachable taken finds newer⟩

/-- A newer projection finds the department correct, as the work center is mapped otherwise. -/
def correctDepartment (projectedAt : ℤ) : RepairProjectionProof :=
  { wrongDepartment projectedAt with targetDepartmentId := 7 }

/-- An older projection that finds a wrong department does not open the repair again. -/
theorem older_projection_not_remembered :
    ∃ state next, run (step Projection.uniformCalendar 901) (State.start (W := ℕ) oneMirror)
        [.reconcile (wrongDepartment 30) true 30, .reconcile (correctDepartment 50) false 50] =
          some state ∧
      step Projection.uniformCalendar 901 state (.reconcile (wrongDepartment 40) true 60) =
        some next ∧
      FindsWrong 901 state.tables (wrongDepartment 40) ∧
      ¬∃ row, next.tables.repair = some row ∧
        Remembered row (wrongDepartment 40).candidate := by
  refine ⟨_, _, rfl, rfl, ⟨⟨_, rfl, by decide⟩, by decide⟩, ?_⟩
  rintro ⟨row, found, remembered⟩
  obtain rfl := Option.some.inj found
  rcases remembered with pending | applying | failed
  · cases pending
  · cases applying
  · cases failed.1

end PlantManager.Attendance.Repair

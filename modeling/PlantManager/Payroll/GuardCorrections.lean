import PlantManager.Payroll.GuardSafe

/-! # The corrections of the guard

In every history each event of the guard has the past that it must have, and every attempt that
was saved is pending without an audit row or finalized with one
(`Payroll.guard_history`). An attempt that an earlier run left is sent again from its
saved duration alone, whatever its day is classified as by then
(`Payroll.retry_unclassified`).
-/

namespace PlantManager.Payroll

open Transition

variable {H : Type} [Hours H]

theorem Lawful.follows {history later past : List (Event H)} {event : Event H}
    (lawful : Lawful history) (same : history = later ++ event :: past) :
    Follows past event ∧ Due past event := by
  induction later generalizing history with
  | nil =>
      subst same
      exact ⟨lawful.1, lawful.2.1⟩
  | cons first later ih =>
      subst same
      exact ih lawful.2.2 rfl

/-- The audit rows of an attempt. -/
def World.auditOf (world : World H) (attemptId : ℕ) : List (Correction H) :=
  world.corrections.filter fun row => row.attemptId = attemptId

omit [Hours H] in
theorem filter_eq_singleton {rows : List (Correction H)}
    (distinct : (rows.map fun row => row.attemptId).Nodup) {row : Correction H}
    (member : row ∈ rows) :
    rows.filter (fun other => other.attemptId = row.attemptId) = [row] := by
  induction rows with
  | nil => exact absurd member List.not_mem_nil
  | cons first rest ih =>
      obtain ⟨apart, others⟩ := List.nodup_cons.mp distinct
      rcases List.mem_cons.mp member with rfl | later
      · have none : rest.filter (fun other => other.attemptId = row.attemptId) = [] :=
          List.filter_eq_nil_iff.mpr fun other inside same =>
            apart (List.mem_map.mpr ⟨other, inside, of_decide_eq_true same⟩)
        rw [List.filter_cons_of_pos (by simp), none]
      · have other : first.attemptId ≠ row.attemptId := fun same =>
          apart (List.mem_map.mpr ⟨row, later, same.symm⟩)
        rw [List.filter_cons_of_neg (by simpa using other), ih others later]

theorem Sound.audit {world : World H} (sound : Sound world) {intent : Intent H}
    (saved : .saved intent ∈ world.history) :
    (intent ∈ world.intents ∧ .finalized intent ∉ world.history ∧
        world.auditOf intent.attemptId = []) ∨
      (intent ∉ world.intents ∧ .finalized intent ∈ world.history ∧
        ∃ row, row.toIntent = intent ∧ world.auditOf intent.attemptId = [row]) := by
  rcases sound.kept intent saved with pending | audited
  · refine .inl ⟨pending, fun done => ?_, List.filter_eq_nil_iff.mpr fun row member same => ?_⟩
    · exact sound.apart intent pending intent ((sound.finalized intent).mp done) rfl
    · exact sound.apart intent pending row.toIntent (List.mem_map_of_mem member)
        (of_decide_eq_true same)
  · refine .inr ⟨fun pending => sound.apart intent pending intent audited rfl,
      (sound.finalized intent).mpr audited, ?_⟩
    obtain ⟨row, member, rfl⟩ := List.mem_map.mp audited
    have distinct := sound.audited_nodup
    rw [World.audited, List.map_map] at distinct
    exact ⟨row, rfl, filter_eq_singleton distinct member⟩

/-- What every history of the guard looks like. -/
theorem guard_history [DecidableEq H] {start : Odoo H} {world : World H}
    (occurs : Occurs start world) :
    (∀ later past event, world.history = later ++ event :: past →
      Follows past event ∧ Due past event) ∧
    ∀ intent, .saved intent ∈ world.history →
      (intent ∈ world.intents ∧ .finalized intent ∉ world.history ∧
          world.auditOf intent.attemptId = []) ∨
        (intent ∉ world.intents ∧ .finalized intent ∈ world.history ∧
          ∃ row, row.toIntent = intent ∧ world.auditOf intent.attemptId = [row]) :=
  ⟨fun _ _ _ same => occurs.calm.1.lawful.follows same, fun _ saved => occurs.calm.1.audit saved⟩

/-! ## A retry of a day that is right by then -/

/-- A regular entry of a day that has half an hour too much. -/
def lunchEntry : WorkRow ℚ :=
  { id := 8502
    employeeId := 19
    employeeName := "Employee 19"
    date := 205
    duration := 7 / 2
    state := "draft"
    conflict := false
    active := true
    numericDataValid := true
    typeCode := "WORK100"
    attendanceId := some 3811
    writeDate := 0 }

def lunchAttendance (expectedHours : ℚ) : AttendanceRow ℚ :=
  { id := 3811
    employeeId := 19
    date := 205
    expectedHours
    overtimeHours := 5
    validatedOvertimeHours := 5
    overtimeStatus := "approved"
    numericDataValid := true }

def lunchOdoo (expectedHours : ℚ) : Odoo ℚ :=
  { entries := [lunchEntry,
      { lunchEntry with id := 8503, duration := 5, typeCode := "OVERTIME" }]
    attendances := [lunchAttendance expectedHours] }

def lunchDecision (expectedHours : ℚ) : Decision ℚ :=
  dayDecision (lunchOdoo expectedHours).entries (lunchOdoo expectedHours).attendances 19
    "Employee 19" 205

/-- The world after some runs and edits. -/
def World.after [DecidableEq H] (world : World H) (actions : List (Action H)) : World H :=
  actions.foldl (fun world action => (step world action).getD world) world

theorem Occurs.after [DecidableEq H] {start : Odoo H} (actions : List (Action H)) {world : World H}
    (occurs : Occurs start world) : Occurs start (world.after actions) := by
  induction actions generalizing world with
  | nil => exact occurs
  | cons action rest ih =>
      have taken : step world action = some ((step world action).getD world) := by
        cases action <;> rfl
      exact ih (occurs.step trivial taken)

/-- The write of the first run is lost, the attendance is set to what payroll has, and another
run begins. -/
def lunchWorld : World ℚ :=
  (World.initial (lunchOdoo 3)).after
    [.run 1 [.answers, .answers, .answers, .answers, .answers, .fails false],
      .edit (lunchOdoo (7 / 2)), .run 2 []]

theorem lunch_occurs : Occurs (lunchOdoo 3) lunchWorld := Occurs.after _ .initial

theorem guard_history_lunch :
    (∀ later past event, lunchWorld.history = later ++ event :: past →
      Follows past event ∧ Due past event) ∧
    ∀ intent, .saved intent ∈ lunchWorld.history →
      (intent ∈ lunchWorld.intents ∧ .finalized intent ∉ lunchWorld.history ∧
          lunchWorld.auditOf intent.attemptId = []) ∨
        (intent ∉ lunchWorld.intents ∧ .finalized intent ∈ lunchWorld.history ∧
          ∃ row, row.toIntent = intent ∧ lunchWorld.auditOf intent.attemptId = [row]) :=
  guard_history lunch_occurs

/-- No read of the day says to correct it. -/
def Event.uncorrected (employeeId : ℤ) (employeeName : String) (workDate : ℤ) : Event ℚ → Bool
  | .fetched workRows attendanceRows =>
      (dayDecision workRows attendanceRows employeeId employeeName workDate).kind ≠ .correct
  | _ => true

/-- A retry changes an entry whose day needs no correction any more, in a run that does not read
the day as one to correct. -/
theorem retry_unclassified : Occurs (lunchOdoo 3) lunchWorld ∧
    (lunchDecision (7 / 2)).kind = .noop ∧
    .tookEffect ⟨0, lunchDecision 3⟩ ∈ thisRun lunchWorld.history ∧
    ∀ workRows attendanceRows, .fetched workRows attendanceRows ∈ thisRun lunchWorld.history →
      (dayDecision workRows attendanceRows 19 "Employee 19" 205).kind ≠ .correct := by
  have unread : (thisRun lunchWorld.history).all (·.uncorrected 19 "Employee 19" 205) = true := by
    decide +kernel
  refine ⟨lunch_occurs, by decide +kernel, by decide +kernel, fun _ _ read => ?_⟩
  exact of_decide_eq_true (List.all_eq_true.mp unread _ read)

end PlantManager.Payroll

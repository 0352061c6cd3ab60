import PlantManager.Attendance.MirrorStore
import PlantManager.Attendance.ProjectionReference
import PlantManager.Transition.Marks

/-! # Every change of coverage is queued

The days that a batch enqueues include every plant day at whose instants the mirror places an
employee somewhere else afterwards: `Attendance.Mirror.changes_requeued`. An open
row lasts until the batch was completed, before the batch and after it.
-/

namespace PlantManager.Attendance.Mirror

open Checks Mapping Transition
open Projection (PlantCalendar)
open Recalc (QueueRow)

/-- An employee, a work center and a department. -/
abbrev Fact := ℤ × Option ℤ × Option ℤ

def AttendanceRow.fact (row : AttendanceRow) : Fact :=
  (row.employeeId, row.workCenterId, row.departmentId)

/-- The row covers an instant; if it is open, until `openEnd`. -/
def AttendanceRow.Covers (row : AttendanceRow) (openEnd moment : ℤ) : Prop :=
  row.checkIn ≤ moment ∧ moment < row.checkOut.getD openEnd

/-- What the rows that are not deleted say of an instant. -/
def factsAt (openEnd : ℤ) (mirror : SortedMap ℤ MirrorRow) (moment : ℤ) : Set Fact :=
  {fact | ∃ id row, mirror.get id = some row ∧ row.deletedAt = none ∧
    row.Covers openEnd moment ∧ row.fact = fact}

/-- The day is in the queue, and no worker has begun it since. -/
def Requested (queue : SortedMap ℤ QueueRow) (day requestedAt : ℤ) : Prop :=
  ∃ row, queue.get day = some row ∧ row.startedAt = none ∧ row.completedAt = none ∧
    row.requestedAt ≤ requestedAt

/-! ## The queue -/

theorem requested_enqueueRecalc (reason : String) (requestedAt : ℤ) (prior : Option QueueRow) :
    (Recalc.enqueueRecalc reason requestedAt prior).startedAt = none ∧
      (Recalc.enqueueRecalc reason requestedAt prior).completedAt = none ∧
      (Recalc.enqueueRecalc reason requestedAt prior).requestedAt ≤ requestedAt := by
  cases prior with
  | none => exact ⟨rfl, rfl, Int.le_refl requestedAt⟩
  | some row =>
      refine ⟨rfl, rfl, ?_⟩
      change (if row.completedAt = none then min row.requestedAt requestedAt else requestedAt) ≤ _
      split
      · exact Int.min_le_right ..
      · exact Int.le_refl requestedAt

variable {queue : SortedMap ℤ QueueRow}

theorem requested_foldl {days : List ℤ} {reason : String} {requestedAt day : ℤ}
    (requested : day ∈ days ∨ Requested queue day requestedAt) :
    Requested (days.foldl (fun queue day => queue.set day
      (Recalc.enqueueRecalc reason requestedAt (queue.get day))) queue) day requestedAt := by
  induction days generalizing queue with
  | nil => exact requested.resolve_left List.not_mem_nil
  | cons first rest ih =>
      apply ih
      by_cases same : day = first
      · subst same
        exact .inr ⟨_, SortedMap.get_set_self .., requested_enqueueRecalc ..⟩
      · rcases requested with member | ⟨row, found, waiting⟩
        · exact .inl (List.mem_of_ne_of_mem same member)
        · exact .inr ⟨row, (SortedMap.get_set_of_ne same ..).trans found, waiting⟩

theorem requested_enqueueRecalcs {days : Finset ℤ} {reason : String} {requestedAt day : ℤ}
    (requested : day ∈ days ∨ Requested queue day requestedAt) :
    Requested (enqueueRecalcs days reason requestedAt queue) day requestedAt :=
  requested_foldl (requested.imp_left (Finset.mem_sort (· ≤ ·)).mpr)

/-! ## The days of a row -/

theorem dayOf_mem_rowDays (calendar : PlantCalendar) {row : AttendanceRow} {openEnd moment : ℤ}
    (covers : row.Covers openEnd moment) : calendar.dayOf moment ∈ rowDays calendar row openEnd := by
  obtain ⟨started, lasts⟩ := covers
  have positive : row.checkOut.getD openEnd ≠ row.checkIn := by omega
  rw [rowDays, localDaysTouched, if_neg positive, List.mem_toFinset, Int.mem_range_iff]
  have stops := calendar.dayOf_mono (Int.le_sub_one_of_lt lasts)
  exact ⟨calendar.dayOf_mono started, by omega⟩

/-- Two rows that are not materially different say the same. -/
theorem covers_iff_of_same {existing incoming : AttendanceRow}
    (same : ¬MateriallyDifferent existing incoming) (openEnd moment : ℤ) :
    existing.fact = incoming.fact ∧
      (existing.Covers openEnd moment ↔ incoming.Covers openEnd moment) := by
  simp only [MateriallyDifferent, ne_eq, not_or, not_not] at same
  obtain ⟨employee, checkIn, checkOut, center, -, department, -⟩ := same
  simp only [AttendanceRow.fact, AttendanceRow.Covers, employee, checkIn, checkOut, center,
    department, and_self]

/-! ## One row at a time -/

/-- What a row that may be missing says of an instant. -/
def rowFact (openEnd moment : ℤ) (row : Option MirrorRow) (fact : Fact) : Prop :=
  ∃ live, row = some live ∧ live.deletedAt = none ∧ live.Covers openEnd moment ∧ live.fact = fact

theorem not_rowFact_none {openEnd moment : ℤ} {fact : Fact} : ¬rowFact openEnd moment none fact :=
  fun ⟨_, missing, _⟩ => Option.some_ne_none _ missing.symm

theorem rowFact_some {openEnd moment : ℤ} {row : MirrorRow} {fact : Fact} :
    rowFact openEnd moment (some row) fact ↔
      row.deletedAt = none ∧ row.Covers openEnd moment ∧ row.fact = fact := by
  constructor
  · rintro ⟨live, same, shown⟩
    exact Option.some.inj same ▸ shown
  · exact fun shown => ⟨row, rfl, shown⟩

/-- The facts at an instant change with the facts of some row. -/
theorem exists_rowFact_of_factsAt_ne {openEnd moment : ℤ} {before after : SortedMap ℤ MirrorRow}
    (differs : factsAt openEnd before moment ≠ factsAt openEnd after moment) :
    ∃ id fact, ¬(rowFact openEnd moment (before.get id) fact ↔
      rowFact openEnd moment (after.get id) fact) := by
  by_contra same
  push Not at same
  apply differs
  ext fact
  exact exists_congr fun id => same id fact

/-- Where only one row changes, its instants are marked if both versions are. -/
theorem marks_set {calendar : PlantCalendar} {openEnd : ℤ} {mirror : SortedMap ℤ MirrorRow}
    {id : ℤ} {row : MirrorRow} {marked : Finset ℤ}
    (days : ∀ moment fact, ¬(rowFact openEnd moment (mirror.get id) fact ↔
      rowFact openEnd moment (some row) fact) → calendar.dayOf moment ∈ marked) :
    Marks (factsAt openEnd) calendar.dayOf mirror (mirror.set id row) marked := by
  intro moment differs
  obtain ⟨changed, fact, other⟩ := exists_rowFact_of_factsAt_ne differs
  rw [SortedMap.get_set] at other
  by_cases same : changed = id
  · subst same
    rw [if_pos rfl] at other
    exact days moment fact other
  · rw [if_neg same] at other
    exact absurd Iff.rfl other

theorem marks_upsertRow {cycle : Cycle} (after : cycle.baselineCompleted = true)
    (current : SortedMap ℤ MirrorRow × Finset ℤ) (incoming : AttendanceRow) :
    Marks (factsAt cycle.completedAt) cycle.calendar.dayOf current.1
      (upsertRow cycle current incoming).1 (upsertRow cycle current incoming).2 := by
  obtain ⟨mirror, affected⟩ := current
  rw [upsertRow]
  dsimp only
  cases found : mirror.get incoming.attendanceId with
  | none =>
      rw [if_pos after]
      refine marks_set fun moment fact other => Finset.mem_union_right _ ?_
      rw [found] at other
      by_contra outside
      apply other
      rw [rowFact_some]
      constructor
      · exact fun nothing => absurd nothing not_rowFact_none
      · exact fun shown => absurd (dayOf_mem_rowDays cycle.calendar shown.2.1) outside
  | some existing =>
      dsimp only
      split
      · exact .of_same fun _ => rfl
      · split
        · exact .of_same fun _ => rfl
        · refine marks_set fun moment fact other => ?_
          rw [found] at other
          by_cases changed : existing.deletedAt ≠ none ∨
              MateriallyDifferent existing.toAttendanceRow incoming
          · rw [if_pos ⟨after, changed⟩]
            -- One of the two versions covers the instant.
            by_contra outside
            rw [Finset.mem_union, Finset.mem_union, not_or, not_or] at outside
            apply other
            rw [rowFact_some, rowFact_some]
            constructor
            · exact fun shown => absurd (dayOf_mem_rowDays cycle.calendar shown.2.1) outside.1.2
            · exact fun shown => absurd (dayOf_mem_rowDays cycle.calendar shown.2.1) outside.2
          · rw [not_or, not_not] at changed
            obtain ⟨fact_, covers⟩ := covers_iff_of_same changed.2 cycle.completedAt moment
            refine absurd ?_ other
            rw [rowFact_some, rowFact_some]
            rw [covers, fact_, changed.1]

theorem subset_upsertRow (cycle : Cycle) (current : SortedMap ℤ MirrorRow × Finset ℤ)
    (incoming : AttendanceRow) : current.2 ⊆ (upsertRow cycle current incoming).2 := by
  obtain ⟨mirror, affected⟩ := current
  rw [upsertRow]
  dsimp only
  cases mirror.get incoming.attendanceId with
  | none =>
      dsimp only
      split
      · exact Finset.subset_union_left
      · exact fun _ => id
  | some existing =>
      dsimp only
      split
      · exact fun _ => id
      · split
        · exact fun _ => id
        · dsimp only
          split
          · exact Finset.subset_union_left.trans Finset.subset_union_left
          · exact fun _ => id

/-! ## Batches -/

theorem marks_upsertRows {cycle : Cycle} (after : cycle.baselineCompleted = true)
    (rows : List AttendanceRow) (tables : Tables) :
    Marks (factsAt cycle.completedAt) cycle.calendar.dayOf tables.mirror
      (upsertRows cycle rows tables).1.mirror (upsertRows cycle rows tables).2 :=
  (Marks.foldl (subset_upsertRow cycle)
    (fun current row _ => marks_upsertRow after current row) (tables.mirror, ∅)).2

theorem marks_sweep {calendar : PlantCalendar} {openEnd generation observedAt : ℤ}
    {presentIds : Finset ℤ} {mirror : SortedMap ℤ MirrorRow} :
    Marks (factsAt openEnd) calendar.dayOf mirror
      (mirror.mapValues (sweepRow presentIds generation observedAt))
      ((deletedRows presentIds mirror).toFinset.biUnion fun row =>
        rowDays calendar row.toAttendanceRow openEnd) := by
  intro moment differs
  obtain ⟨id, fact, other⟩ := exists_rowFact_of_factsAt_ne differs
  rw [SortedMap.get_mapValues] at other
  cases found : mirror.get id with
  | none =>
      rw [found] at other
      exact absurd Iff.rfl other
  | some row =>
      rw [found, Option.map_some] at other
      by_contra outside
      apply other
      unfold sweepRow
      by_cases live : row.deletedAt = none
      · rw [if_neg (not_not.mpr live)]
        by_cases present : id ∈ presentIds
        · rw [if_pos present, rowFact_some, rowFact_some]
        · -- The row is buried, and its days are marked.
          rw [if_neg present]
          have missed : row ∈ deletedRows presentIds mirror :=
            List.mem_map.mpr ⟨(id, row), List.mem_filter.mpr
              ⟨SortedMap.get_eq_some_iff.mp found, decide_eq_true ⟨live, present⟩⟩, rfl⟩
          rw [rowFact_some, rowFact_some]
          constructor
          · exact fun shown => absurd (Finset.mem_biUnion.mpr ⟨row, List.mem_toFinset.mpr missed,
              dayOf_mem_rowDays calendar shown.2.1⟩) outside
          · exact fun shown => absurd shown.1 (Option.some_ne_none observedAt)
      · rw [if_pos live]

theorem requested_incremental {calendar : PlantCalendar} {rows : List AttendanceRow}
    {cursorWriteDate cursorId : Option ℤ} {completedAt observedAt moment : ℤ}
    {tables next : Tables} {affected : Finset ℤ}
    (after : tables.sync.baselineCompletedAt.isSome = true)
    (stored : storeIncrementalCycle calendar rows cursorWriteDate cursorId completedAt observedAt
      tables = .ok (next, affected))
    (differs : factsAt completedAt tables.mirror moment ≠ factsAt completedAt next.mirror moment) :
    Requested next.queue (calendar.dayOf moment) completedAt := by
  obtain ⟨normalized, -, rest⟩ := bind_eq_ok.mp stored
  obtain ⟨-, -, returned⟩ := bind_eq_ok.mp rest
  obtain ⟨rfl, -⟩ := Prod.mk.inj (Except.ok.inj returned)
  have marks := @marks_upsertRows ⟨calendar, completedAt, observedAt, _⟩ after normalized tables
  exact requested_enqueueRecalcs (.inl (marks moment differs))

theorem requested_fullSweep {calendar : PlantCalendar} {ids : List ℤ}
    {recoveryRows : List AttendanceRow} {generation completedAt observedAt moment : ℤ}
    {tables next : Tables} {affected : Finset ℤ}
    (after : tables.sync.baselineCompletedAt.isSome = true)
    (stored : storeFullSweep calendar ids recoveryRows generation completedAt observedAt tables =
      .ok (next, affected))
    (differs : factsAt completedAt tables.mirror moment ≠ factsAt completedAt next.mirror moment) :
    Requested next.queue (calendar.dayOf moment) completedAt := by
  obtain ⟨present, -, rest⟩ := bind_eq_ok.mp stored
  obtain ⟨recovery, -, rest⟩ := bind_eq_ok.mp rest
  obtain ⟨-, rest⟩ := raiseIf_bind_eq_ok.mp rest
  obtain ⟨number, -, rest⟩ := bind_eq_ok.mp rest
  obtain ⟨-, rest⟩ := raiseIf_bind_eq_ok.mp rest
  obtain ⟨-, returned⟩ := raiseIf_bind_eq_ok.mp rest
  obtain ⟨rfl, -⟩ := Prod.mk.inj (Except.ok.inj returned)
  -- The instant changes with the recovered rows, or with the buried ones.
  have recovered := @marks_upsertRows ⟨calendar, completedAt, observedAt,
    tables.sync.baselineCompletedAt.isSome⟩ after recovery tables moment
  apply requested_enqueueRecalcs
  rw [if_pos after]
  by_cases same : calendar.dayOf moment ∈ (upsertRows ⟨calendar, completedAt, observedAt,
      tables.sync.baselineCompletedAt.isSome⟩ recovery tables).2
  · exact .inr (requested_enqueueRecalcs (.inl same))
  · have unchanged := not_not.mp (mt recovered same)
    apply Or.inl
    apply @marks_sweep calendar completedAt number observedAt present.toFinset _ moment
    exact fun swept => differs (unchanged.trans swept)

/-- After the baseline, a batch enqueues every day with an instant at which the mirror places the
employees differently before it and after it. -/
theorem changes_requeued (calendar : PlantCalendar) (batch : Batch) {tables next : Tables}
    {affected : Finset ℤ} (baseline : tables.sync.baselineCompletedAt ≠ none)
    (stored : batch.store calendar tables = .ok (next, affected)) :
    ∀ day, (∃ moment, calendar.dayOf moment = day ∧
      factsAt batch.completedAt tables.mirror moment ≠
        factsAt batch.completedAt next.mirror moment) →
      Requested next.queue day batch.completedAt := by
  rintro _ ⟨moment, rfl, differs⟩
  have after : tables.sync.baselineCompletedAt.isSome = true :=
    Option.isSome_iff_ne_none.mpr baseline
  cases batch with
  | incremental rows cursorWriteDate cursorId completedAt observedAt =>
      exact requested_incremental after stored differs
  | fullSweep ids recoveryRows generation completedAt observedAt =>
      exact requested_fullSweep after stored differs

/-- One new attendance of an hour, on the second day. -/
def oneArrival : Batch :=
  let hour : ℤ := 3600000000
  .incremental
    [{ attendanceId := 7
       employeeId := 3
       employeeName := none
       checkIn := 30 * hour
       checkOut := some (31 * hour)
       workCenterId := some 5
       workCenterName := none
       departmentId := none
       departmentName := none
       writeDate := 31 * hour }]
    (some (31 * hour)) (some 7) (32 * hour) (32 * hour)

/-- The tables after a baseline that found no attendance. -/
def emptyMirror : Tables where
  mirror := ∅
  sync :=
    { cursorWriteDate := none
      cursorId := none
      lastIncrementalCompletedAt := some 0
      lastFullSweepCompletedAt := some 0
      lastFullSweepDeletionCount := 0
      fullSweepGeneration := 1
      baselineCompletedAt := some 0 }
  queue := ∅

theorem changes_requeued_oneArrival :
    ∃ next affected, oneArrival.store Projection.uniformCalendar emptyMirror =
        .ok (next, affected) ∧
      ∀ day, (∃ moment, Projection.uniformCalendar.dayOf moment = day ∧
        factsAt oneArrival.completedAt emptyMirror.mirror moment ≠
          factsAt oneArrival.completedAt next.mirror moment) →
        Requested next.queue day oneArrival.completedAt :=
  ⟨_, _, rfl, changes_requeued Projection.uniformCalendar oneArrival (by decide) rfl⟩

end PlantManager.Attendance.Mirror

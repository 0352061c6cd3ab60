import PlantManager.Attendance.MirrorRequeue
import PlantManager.Transition.Again

/-! # Rows that are fetched again

Polls overlap, so the mirror is given rows that it has stored before. As long as no deleted row is
revived, they change nothing but the time at which they were last seen, and no day is queued for
recalculation (`Attendance.Mirror.storeIncrementalCycle_again`).
-/

namespace PlantManager.Attendance.Mirror

open Checks Mapping Transition
open Projection (PlantCalendar)

/-- A row of the mirror except for the time at which it was last seen. -/
def MirrorRow.unseen (row : MirrorRow) : MirrorRow := { row with lastSeenAt := 0 }

/-- What the mirror has under the id of a fetched row is newer, cannot be revived, or says the
same. -/
def Known (observedAt : ℤ) (incoming : AttendanceRow) (row : Option MirrorRow) : Prop :=
  ∃ existing, row = some existing ∧ (incoming.writeDate < existing.writeDate ∨
    ¬ObservationCanRevive observedAt existing.deletedAt ∨
    existing.toAttendanceRow = incoming ∧ existing.deletedAt = none)

variable {cycle : Cycle} {incoming : AttendanceRow} {current : SortedMap ℤ MirrorRow × Finset ℤ}
  {observedAt : ℤ}

theorem known_congr {row other : Option MirrorRow}
    (same : row.map MirrorRow.unseen = other.map MirrorRow.unseen)
    (known : Known observedAt incoming row) : Known observedAt incoming other := by
  obtain ⟨existing, rfl, reason⟩ := known
  obtain ⟨found, rfl, alike⟩ := Option.map_eq_some_iff.mp same.symm
  refine ⟨found, rfl, ?_⟩
  have written : found.writeDate = existing.writeDate := congrArg (·.writeDate) alike
  have deleted : found.deletedAt = existing.deletedAt := congrArg (·.deletedAt) alike
  have content : found.toAttendanceRow = existing.toAttendanceRow :=
    (congrArg MirrorRow.toAttendanceRow alike :)
  rwa [written, deleted, content]

theorem get_upsertRow_of_ne {id : ℤ} (different : id ≠ incoming.attendanceId) :
    (upsertRow cycle current incoming).1.get id = current.1.get id := by
  unfold upsertRow
  dsimp only
  split
  · exact SortedMap.get_set_of_ne different _ _
  split
  · rfl
  split
  · rfl
  · exact SortedMap.get_set_of_ne different _ _

theorem known_upsertRow : Known cycle.observedAt incoming
    ((upsertRow cycle current incoming).1.get incoming.attendanceId) := by
  unfold upsertRow
  dsimp only
  split
  · rw [SortedMap.get_set_self]
    exact ⟨_, rfl, .inr (.inr ⟨rfl, rfl⟩)⟩
  next existing found =>
  split
  · next older => exact ⟨existing, found, .inl older⟩
  split
  · next buried => exact ⟨existing, found, .inr (.inl buried)⟩
  · rw [SortedMap.get_set_self]
    exact ⟨_, rfl, .inr (.inr ⟨rfl, rfl⟩)⟩

/-- A row that the mirror knows leaves it as it is. -/
theorem upsertRow_of_known
    (known : Known cycle.observedAt incoming (current.1.get incoming.attendanceId)) :
    (upsertRow cycle current incoming).2 = current.2 ∧ ∀ id,
      ((upsertRow cycle current incoming).1.get id).map MirrorRow.unseen =
        (current.1.get id).map MirrorRow.unseen := by
  obtain ⟨existing, found, reason⟩ := known
  unfold upsertRow
  dsimp only
  rw [found]
  dsimp only
  split
  · exact ⟨rfl, fun _ => rfl⟩
  next recent =>
  split
  · exact ⟨rfl, fun _ => rfl⟩
  next revivable =>
  obtain ⟨same, live⟩ := (reason.resolve_left recent).resolve_left revivable
  constructor
  · rw [if_neg]
    rintro ⟨-, deleted | different⟩
    · exact deleted live
    · simp [MateriallyDifferent, same] at different
  · intro id
    rw [SortedMap.get_set]
    split
    · next here =>
        rw [here, found]
        simp [MirrorRow.unseen, ← same, ← live]
    · rfl

theorem attendanceId_of_normalized {rows fetched : List AttendanceRow}
    (normalized : normalizedRows rows = .ok fetched) :
    fetched.Pairwise fun first second => first.attendanceId ≠ second.attendanceId := by
  obtain ⟨read, -, returned⟩ := bind_eq_ok.mp normalized
  obtain rfl := Except.ok.inj returned
  have step : ∀ row ∈ read, ∀ newest next : SortedMap ℤ AttendanceRow,
      keepNewest newest row = next → (∀ id found, newest.get id = some found →
        found.attendanceId = id) → ∀ id found, next.get id = some found →
          found.attendanceId = id := by
    rintro row - newest _ rfl keyed id found here
    have stored : (newest.set row.attendanceId row).get id = some found →
        found.attendanceId = id := by
      rw [SortedMap.get_set]
      split
      · next same => exact fun equal => Option.some.inj equal ▸ same.symm
      · exact keyed id found
    unfold keepNewest at here
    split at here
    · exact stored here
    split at here
    · exact stored here
    · exact keyed id found here
  have keyed : ∀ id found, (read.foldl keepNewest ∅).get id = some found →
      found.attendanceId = id := by
    apply (does_foldl keepNewest read ∅).keeps step
    intro id found missing
    cases missing
  rw [List.pairwise_map]
  refine (SortedMap.sorted _).imp_of_mem fun first second below => ?_
  rw [keyed _ _ (SortedMap.get_eq_some_iff.mpr first),
    keyed _ _ (SortedMap.get_eq_some_iff.mpr second)]
  exact below.ne

theorem laterCursor_again (currentDate currentId candidateDate candidateId : Option ℤ) :
    laterCursor (laterCursor currentDate currentId candidateDate candidateId).1
        (laterCursor currentDate currentId candidateDate candidateId).2 candidateDate candidateId =
      laterCursor currentDate currentId candidateDate candidateId := by
  unfold laterCursor
  cases candidateDate with
  | none => rfl
  | some candidate =>
      cases currentDate with
      | none => simp
      | some current =>
          by_cases newer : current < candidate ∨
              current = candidate ∧ currentId.getD 0 < candidateId.getD 0
          · simp [newer]
          · simp [newer]

theorem storeIncrementalCycle_eq {calendar : PlantCalendar} {rows fetched : List AttendanceRow}
    {cursorWriteDate cursorId : Option ℤ} {completedAt observedAt : ℤ} {tables : Tables}
    (normalized : normalizedRows rows = .ok fetched)
    (valid : validateCursor cursorWriteDate cursorId = .ok ()) :
    storeIncrementalCycle calendar rows cursorWriteDate cursorId completedAt observedAt tables =
      let state := fetched.foldl (upsertRow ⟨calendar, completedAt, observedAt,
        tables.sync.baselineCompletedAt.isSome⟩) (tables.mirror, ∅)
      let cursor := laterCursor tables.sync.cursorWriteDate tables.sync.cursorId cursorWriteDate
        cursorId
      .ok ({
        mirror := state.1
        sync := { tables.sync with
          cursorWriteDate := cursor.1
          cursorId := cursor.2
          lastIncrementalCompletedAt := some completedAt }
        queue := enqueueRecalcs state.2 "odoo_attendance_changed" completedAt tables.queue },
        state.2) := by
  unfold storeIncrementalCycle
  rw [normalized, valid]
  rfl

/-- **Rows that are fetched again are harmless.** -/
theorem storeIncrementalCycle_again {calendar : PlantCalendar}
    {rows fetched : List AttendanceRow} {cursorWriteDate cursorId : Option ℤ}
    {completedAt observedAt nextCompletedAt nextObservedAt : ℤ} {tables next : Tables}
    {affected : Finset ℤ} (normalized : normalizedRows rows = .ok fetched)
    (stored : storeIncrementalCycle calendar rows cursorWriteDate cursorId completedAt observedAt
      tables = .ok (next, affected))
    (buried : ∀ row ∈ fetched, ∀ existing ∈ next.mirror.get row.attendanceId,
      existing.deletedAt ≠ none → ¬ObservationCanRevive nextObservedAt existing.deletedAt) :
    ∃ mirror, storeIncrementalCycle calendar rows cursorWriteDate cursorId nextCompletedAt
        nextObservedAt next = .ok ({ next with
          mirror := mirror
          sync := { next.sync with lastIncrementalCompletedAt := some nextCompletedAt } }, ∅) ∧
      ∀ id, (mirror.get id).map MirrorRow.unseen = (next.mirror.get id).map MirrorRow.unseen := by
  obtain ⟨_, same, rest⟩ := bind_eq_ok.mp stored
  obtain ⟨_, valid, -⟩ := bind_eq_ok.mp rest
  rw [storeIncrementalCycle_eq normalized valid] at stored
  obtain ⟨rfl, -⟩ := Prod.mk.inj (Except.ok.inj stored)
  let cycle : Cycle :=
    ⟨calendar, completedAt, observedAt, tables.sync.baselineCompletedAt.isSome⟩
  let again : Cycle := { cycle with completedAt := nextCompletedAt, observedAt := nextObservedAt }
  let mirror := (fetched.foldl (upsertRow cycle) (tables.mirror, ∅)).1
  let state := fetched.foldl (upsertRow again) (mirror, ∅)
  have known : ∀ row ∈ fetched, Known observedAt row (mirror.get row.attendanceId) := by
    have own : ∀ row current next, upsertRow cycle current row = next →
        Known observedAt row (next.1.get row.attendanceId) := by
      rintro row current _ rfl
      exact known_upsertRow
    apply (does_foldl (upsertRow cycle) fetched (tables.mirror, ∅)).forall_holds own _
      (attendanceId_of_normalized normalized)
    rintro first second current _ different here rfl
    rwa [get_upsertRow_of_ne different]
  have unchanged : state.2 = ∅ ∧ ∀ id,
      (state.1.get id).map MirrorRow.unseen = (mirror.get id).map MirrorRow.unseen := by
    have step : ∀ row ∈ fetched, ∀ current next, upsertRow again current row = next →
        (current.2 = ∅ ∧ ∀ id,
          (current.1.get id).map MirrorRow.unseen = (mirror.get id).map MirrorRow.unseen) →
        next.2 = ∅ ∧ ∀ id,
          (next.1.get id).map MirrorRow.unseen = (mirror.get id).map MirrorRow.unseen := by
      rintro row member current _ rfl ⟨silent, same⟩
      have still : Known nextObservedAt row (mirror.get row.attendanceId) := by
        obtain ⟨existing, found, reason⟩ := known row member
        refine ⟨existing, found, reason.imp_right (Or.imp_left fun gone => ?_)⟩
        apply buried row member existing found
        intro live
        apply gone
        rw [live]
        rintro _ ⟨⟩
      obtain ⟨quiet, alike⟩ := @upsertRow_of_known again row current (known_congr (same _).symm still)
      exact ⟨quiet.trans silent, fun id => (alike id).trans (same id)⟩
    exact (does_foldl (upsertRow again) fetched (mirror, ∅)).keeps step ⟨rfl, fun _ => rfl⟩
  obtain ⟨silent, same⟩ := unchanged
  refine ⟨state.1, ?_, same⟩
  rw [storeIncrementalCycle_eq normalized valid]
  have quiet : ∀ queue, enqueueRecalcs state.2 "odoo_attendance_changed" nextCompletedAt queue =
      queue := by
    intro queue
    simp [enqueueRecalcs, silent]
  refine congrArg Except.ok (Prod.ext ?_ silent)
  simp only [laterCursor_again]
  exact congrArg (Tables.mk _ _) (quiet _)

theorem storeIncrementalCycle_again_oneArrival :
    ∃ next affected again, oneArrival.store Projection.uniformCalendar emptyMirror =
        .ok (next, affected) ∧
      oneArrival.store Projection.uniformCalendar next = .ok (again, ∅) := by
  have first : oneArrival.store Projection.uniformCalendar emptyMirror = .ok (_, _) := rfl
  obtain ⟨_, stored, -⟩ := @storeIncrementalCycle_again _ _ _ _ _ _ _ (32 * 3600000000)
    (32 * 3600000000) _ _ _ rfl first (by decide +kernel)
  exact ⟨_, _, _, first, stored⟩

end PlantManager.Attendance.Mirror

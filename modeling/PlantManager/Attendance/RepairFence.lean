import PlantManager.Attendance.ProjectionReference
import PlantManager.Attendance.RepairWorker

/-! # The fence of the repair claims

While no claim is issued under a fence that a worker still holds, and no refreshed version drops
a successor, a worker whose claim was superseded changes nothing:
`Attendance.Repair.repair_fenced`.
-/

namespace PlantManager.Attendance.Repair

open Checks Mapping Transition
open Projection (PlantCalendar)
open Mirror (AttendanceRow MirrorRow)

variable {W : Type} [DecidableEq W] {calendar : PlantCalendar} {attendanceId : ℤ}

/-- The later projection of the row and of its successor. -/
def RepairRow.later (row : RepairRow) : ℤ :=
  match row.successor with
  | none => row.intent.projectedAt
  | some successor => max row.intent.projectedAt successor.projectedAt

/-- Only a row that is being applied has a successor, a newer one; a failed row has spent its
attempts. -/
structure RepairRow.Formed (row : RepairRow) : Prop where
  alone : row.status ≠ .applying → row.successor = none
  ordered : ∀ successor ∈ row.successor, row.intent.projectedAt < successor.projectedAt
  spent : row.status = .failed → maxAttempts ≤ row.attemptCount

/-- The successor is what the row asks for, perhaps at a newer version. -/
structure BecomesActive (successor : Intent) (row : RepairRow) : Prop where
  department : row.intent.departmentId = successor.departmentId
  workCenter : row.intent.workCenterId = successor.workCenterId
  projected : row.intent.projectedAt = successor.projectedAt
  version : successor.writeDate ≤ row.intent.writeDate

/-- The projections grow, and a successor stays, gives way to a newer one or becomes active. -/
structure Advances (row next : RepairRow) : Prop where
  later : row.later ≤ next.later
  successor : ∀ successor ∈ row.successor,
    (∃ newer ∈ next.successor, successor.projectedAt ≤ newer.projectedAt) ∨
      BecomesActive successor next

/-! ## What a transaction does to the row -/

/-- How the row changes, unless it is claimed or loses its successor. -/
inductive Changes (row : RepairRow) : RepairRow → Prop
  | same : Changes row row
  | renew (now : ℤ) : Changes row { row with updatedAt := now }
  | project (projectedAt : ℤ) (newer : row.intent.projectedAt < projectedAt)
      (alone : row.successor = none) :
      Changes row { row with intent := { row.intent with projectedAt := projectedAt } }
  | follow (value : Intent) (applying : row.status = .applying)
      (newer : (row.successor.getD row.intent).projectedAt < value.projectedAt) :
      Changes row { row with successor := some value }
  | promote {next : RepairRow} {successor : Intent} (waiting : row.successor = some successor)
      (active : BecomesActive successor next) (pending : next.status = .pending)
      (alone : next.successor = none) : Changes row next
  | settle {next : RepairRow} (before : row.successor = none)
      (status : next.status ≠ .applying) (alone : next.successor = none)
      (newer : row.intent.projectedAt ≤ next.intent.projectedAt)
      (spent : next.status = .failed → maxAttempts ≤ next.attemptCount) : Changes row next

/-- A refreshed version drops the successor. -/
structure Drops (row next : RepairRow) : Prop where
  pending : next.status = .pending
  alone : next.successor = none

theorem later_of_alone (row : RepairRow) (alone : row.successor = none) :
    row.later = row.intent.projectedAt := by
  rw [RepairRow.later, alone]

theorem RepairRow.Formed.later {row : RepairRow} (formed : row.Formed) {successor : Intent}
    (waiting : row.successor = some successor) : row.later = successor.projectedAt := by
  rw [RepairRow.later, waiting]
  exact max_eq_right (formed.ordered successor waiting).le

namespace Changes

variable {row next : RepairRow}

/-- A row that is still being applied is applied under the same fence. -/
theorem applying (changes : Changes row next) (status : next.status = .applying) :
    row.status = .applying ∧ next.fence = row.fence := by
  cases changes with
  | same | renew _ | project _ _ _ | follow _ _ _ => exact ⟨status, rfl⟩
  | promote _ _ pending _ =>
      rw [pending] at status
      cases status
  | settle _ settled _ _ _ => exact absurd status settled

theorem formed (changes : Changes row next) (formed : row.Formed) : next.Formed := by
  cases changes with
  | same => exact formed
  | renew _ => exact ⟨formed.alone, formed.ordered, formed.spent⟩
  | project _ _ alone =>
      refine ⟨formed.alone, fun successor found => ?_, formed.spent⟩
      cases alone.symm.trans found
  | follow value applying newer =>
      refine ⟨fun settled => absurd applying settled, fun successor found => ?_, formed.spent⟩
      obtain rfl := Option.some.inj found
      cases waiting : row.successor with
      | none => rwa [waiting] at newer
      | some earlier =>
          rw [waiting] at newer
          exact (formed.ordered earlier waiting).trans newer
  | promote _ _ pending alone =>
      refine ⟨fun _ => alone, fun successor found => ?_, fun failed => ?_⟩
      · cases alone.symm.trans found
      · cases pending.symm.trans failed
  | settle _ _ alone _ spent =>
      refine ⟨fun _ => alone, fun successor found => ?_, spent⟩
      cases alone.symm.trans found

theorem advances (changes : Changes row next) (formed : row.Formed) : Advances row next := by
  cases changes with
  | same | renew _ => exact ⟨le_rfl, fun successor waiting => .inl ⟨successor, waiting, le_rfl⟩⟩
  | project projectedAt newer alone =>
      refine ⟨?_, fun successor waiting => by cases alone.symm.trans waiting⟩
      rw [later_of_alone _ alone]
      apply newer.le.trans
      have shown := later_of_alone
        { row with intent := { row.intent with projectedAt := projectedAt } } alone
      exact shown.ge
  | follow value applying newer =>
      constructor
      · cases waiting : row.successor with
        | none =>
            rw [later_of_alone _ waiting]
            exact le_max_left _ _
        | some successor =>
            rw [formed.later waiting]
            rw [waiting] at newer
            exact newer.le.trans (le_max_right _ _)
      · intro successor waiting
        rw [Option.mem_def.mp waiting] at newer
        exact .inl ⟨value, rfl, newer.le⟩
  | promote waiting active _ alone =>
      constructor
      · rw [formed.later waiting, later_of_alone _ alone, active.projected]
      · intro successor found
        obtain rfl := Option.some.inj (waiting.symm.trans found)
        exact .inr active
  | settle before _ alone newer _ =>
      refine ⟨?_, fun successor waiting => by cases before.symm.trans waiting⟩
      rwa [later_of_alone _ before, later_of_alone _ alone]

end Changes

theorem Drops.formed {row next : RepairRow} (drops : Drops row next) : next.Formed where
  alone _ := drops.alone
  ordered _ found := by cases drops.alone.symm.trans found
  spent failed := by cases drops.pending.symm.trans failed

theorem formed_opened (intent : Intent) (now : ℤ) : (RepairRow.opened intent now).Formed where
  alone _ := rfl
  ordered _ found := by cases found
  spent failed := by cases failed

theorem becomesActive_observe (successor : Intent) (observed : Option AttendanceRow) (now : ℤ) :
    BecomesActive successor (.opened (successor.observe observed) now) := by
  cases observed with
  | none => exact ⟨rfl, rfl, rfl, le_rfl⟩
  | some row =>
      dsimp only [Intent.observe, RepairRow.opened]
      split
      · rename_i newer
        exact ⟨rfl, rfl, rfl, newer.2.le⟩
      · exact ⟨rfl, rfl, rfl, le_rfl⟩

variable {observed : Option AttendanceRow} {live : Option MirrorRow}

theorem changes_promote {row promoted : RepairRow} {now : ℤ}
    (promotes : promoteSuccessor now observed row = some promoted) : Changes row promoted := by
  obtain ⟨successor, waiting, rfl⟩ := Option.map_eq_some_iff.mp promotes
  exact .promote waiting (becomesActive_observe successor observed now) rfl rfl

theorem alone_of_promoteSuccessor {row : RepairRow} {now : ℤ}
    (stays : promoteSuccessor now observed row = none) : row.successor = none :=
  Option.map_eq_none_iff.mp stays

/-- A settled row is what a successor became, or does not wait for one. -/
theorem changes_getD_promote {row other : RepairRow} {now : ℤ}
    (alone : row.successor = none → Changes row other) :
    Changes row ((promoteSuccessor now observed row).getD other) := by
  cases promotes : promoteSuccessor now observed row with
  | none => exact alone (alone_of_promoteSuccessor promotes)
  | some promoted => exact changes_promote promotes

theorem changes_completed {row : RepairRow} (alone : row.successor = none) (now : ℤ) :
    Changes row (row.completed now) :=
  .settle alone (by nofun) alone le_rfl (by nofun)

theorem projectedAt_of_rebase {candidate value : Intent} {newest : ℤ}
    (rebased : rebase live candidate newest = some value) :
    value.projectedAt = candidate.projectedAt := by
  unfold rebase at rebased
  split at rebased
  · split at rebased
    · cases rebased
    · split at rebased
      · cases rebased
      · rw [← Option.some.inj rebased]
  · rw [← Option.some.inj rebased]

theorem changes_enqueue (live : Option MirrorRow) (candidate : Intent) (now : ℤ) {row : RepairRow}
    (formed : row.Formed) : Changes row (enqueueCur live candidate now (some row)).2 := by
  dsimp only [enqueueCur]
  split
  · rename_i applying
    dsimp only [enqueueApplying]
    split
    · exact .same
    · rename_i newer
      split
      · exact .same
      · rename_i value rebased
        split
        · rename_i same
          rw [same.1] at newer
          exact .project candidate.projectedAt (not_le.mp newer) same.1
        · refine .follow value applying ?_
          rw [projectedAt_of_rebase rebased]
          exact not_le.mp newer
  · rename_i settled
    have alone := formed.alone settled
    dsimp only [enqueueSettled]
    split
    · exact .same
    · rename_i newer
      split
      · exact .same
      · rename_i value rebased
        split
        · exact .project candidate.projectedAt (not_le.mp newer) alone
        · refine .settle alone (by nofun) rfl ?_ (by nofun)
          dsimp only [RepairRow.opened]
          rw [projectedAt_of_rebase rebased]
          exact (not_le.mp newer).le

theorem changes_completeObsolete (proof : RepairProjectionProof) (now : ℤ) {row : RepairRow}
    (formed : row.Formed) : Changes row (completeObsolete proof now row) := by
  unfold completeObsolete
  split
  · rename_i obsolete
    obtain ⟨settled, newer, -⟩ := obsolete
    have alone := formed.alone settled
    exact .settle alone (by nofun) alone newer.le (by nofun)
  · exact .same

theorem changes_expire (now : ℤ) (row : RepairRow) : Changes row (expire now row) := by
  unfold expire
  split
  · rename_i expired
    split
    · rename_i successor waiting
      exact .promote waiting (becomesActive_observe successor none now) rfl rfl
    · rename_i alone
      exact .settle alone (by nofun) alone le_rfl fun _ => expired.2.2
  · exact .same

theorem changes_renew (live : Option MirrorRow) (claim : RepairClaim) (now : ℤ) (row : RepairRow) :
    Changes row (renewClaim live claim now row).2 := by
  unfold renewClaim
  split
  · rename_i promotes
    exact changes_promote promotes
  · rename_i promotes
    have alone := alone_of_promoteSuccessor promotes
    split
    · exact changes_completed alone now
    · split
      · exact .renew now
      · exact changes_completed alone now

theorem lockOwned_eq_some {claim : RepairClaim} {repair : Option RepairRow} {row : RepairRow}
    (locked : lockOwned claim repair = some row) : repair = some row ∧ Owned row claim := by
  obtain ⟨found, owned⟩ := Option.filter_eq_some_iff.mp locked
  exact ⟨found, of_decide_eq_true owned⟩

/-- How a transaction moves the repair; `allowed` rules out that it drops a successor. -/
inductive RowMoves (allowed : Prop) (repair : Option RepairRow) : Option RepairRow → Prop
  | same : RowMoves allowed repair repair
  | inserted (intent : Intent) (now : ℤ) (absent : repair = none) :
      RowMoves allowed repair (some (.opened intent now))
  | changed {row next : RepairRow} (found : repair = some row) (changes : Changes row next) :
      RowMoves allowed repair (some next)
  | dropped {row next : RepairRow} (found : repair = some row) (drops : Drops row next)
      (forbidden : ¬allowed) : RowMoves allowed repair (some next)

theorem RowMoves.mono {allowed stricter : Prop} {repair next : Option RepairRow}
    (moves : RowMoves allowed repair next) (weaker : stricter → allowed) :
    RowMoves stricter repair next := by
  cases moves with
  | same => exact .same
  | inserted intent now absent => exact .inserted intent now absent
  | changed found changes => exact .changed found changes
  | dropped found drops forbidden => exact .dropped found drops fun held => forbidden (weaker held)

theorem RowMoves.formed {allowed : Prop} {repair next : Option RepairRow}
    (moves : RowMoves allowed repair next) (formed : ∀ row ∈ repair, row.Formed) :
    ∀ row ∈ next, row.Formed := by
  intro row shown
  cases moves with
  | same => exact formed row shown
  | inserted intent now _ =>
      obtain rfl := Option.some.inj shown
      exact formed_opened intent now
  | changed found changes =>
      obtain rfl := Option.some.inj shown
      exact changes.formed (formed _ found)
  | dropped _ drops _ =>
      obtain rfl := Option.some.inj shown
      exact drops.formed

/-- A row that is being applied was applied under the same fence. -/
theorem RowMoves.applying {allowed : Prop} {repair next : Option RepairRow} {row : RepairRow}
    (moves : RowMoves allowed repair next) (shown : next = some row)
    (status : row.status = .applying) :
    ∃ before, repair = some before ∧ before.status = .applying ∧ before.fence = row.fence := by
  cases moves with
  | same => exact ⟨row, shown, status, rfl⟩
  | inserted intent now _ =>
      obtain rfl := Option.some.inj shown
      cases status
  | changed found changes =>
      obtain rfl := Option.some.inj shown
      obtain ⟨applying, same⟩ := changes.applying status
      exact ⟨_, found, applying, same.symm⟩
  | dropped _ drops _ =>
      obtain rfl := Option.some.inj shown
      cases drops.pending.symm.trans status

theorem RowMoves.advances {allowed : Prop} {repair next : Option RepairRow} (held : allowed)
    (moves : RowMoves allowed repair next) (formed : ∀ row ∈ repair, row.Formed) :
    ∀ row ∈ repair, ∃ after ∈ next, Advances row after := by
  intro row found
  cases moves with
  | same => exact ⟨row, found, Changes.same.advances (formed row found)⟩
  | inserted _ _ absent => cases absent.symm.trans found
  | changed known changes =>
      obtain rfl := Option.some.inj (known.symm.trans found)
      exact ⟨_, rfl, changes.advances (formed _ found)⟩
  | dropped _ _ forbidden => exact absurd held forbidden

/-- A session does not refresh a version that drops a successor. -/
def KeepsSuccessor (session : Session) (tables : Tables) : Prop :=
  ∀ row, session.task = .refreshExpected row → ∀ owned ∈ lockOwned session.claim tables.repair,
    ∀ successor ∈ owned.successor,
      row.writeDate ≤ successor.writeDate ∨ row.workCenterId = some successor.workCenterId

theorem rowMoves_refreshExpected {session : Session} {row : AttendanceRow} {tables : Tables}
    (task : session.task = .refreshExpected row) :
    RowMoves (KeepsSuccessor session tables) tables.repair
      (refreshExpected calendar attendanceId session.claim row session.startedAt
        tables).2.repair := by
  unfold refreshExpected
  split
  · exact .same
  · rename_i owned locked
    obtain ⟨found, -⟩ := lockOwned_eq_some locked
    split
    · dsimp only
      split
      · rename_i alone
        exact .changed found (.settle alone (by nofun) rfl le_rfl (by nofun))
      · rename_i successor waiting
        split
        · apply RowMoves.changed found
          exact .promote waiting (becomesActive_observe successor (some row) _) rfl rfl
        · rename_i drops
          refine .dropped found ⟨rfl, rfl⟩ fun keeps => drops ?_
          exact keeps row task owned locked successor waiting
    · exact .same

variable (allowed : Prop) (claim : RepairClaim)

theorem rowMoves_refreshTarget (claim : RepairClaim) (target now : ℤ) (tables : Tables) :
    RowMoves allowed tables.repair (refreshTarget claim target now tables).2.repair := by
  unfold refreshTarget
  split
  · exact .same
  · rename_i owned locked
    apply RowMoves.changed (lockOwned_eq_some locked).1
    apply changes_getD_promote
    intro alone
    exact .settle alone (by nofun) rfl (le_max_left _ _) (by nofun)

theorem rowMoves_discard (claim : RepairClaim) (now : ℤ) (tables : Tables) :
    RowMoves allowed tables.repair (discard claim now tables).2.repair := by
  unfold discard
  split
  · exact .same
  · rename_i owned locked
    apply RowMoves.changed (lockOwned_eq_some locked).1
    apply changes_getD_promote
    exact fun alone => changes_completed alone now

theorem rowMoves_finishVerified (claim : RepairClaim) (row : AttendanceRow) (now : ℤ)
    (tables : Tables) :
    RowMoves allowed tables.repair
      (finishVerified calendar attendanceId claim row now tables).2.repair := by
  unfold finishVerified
  split
  · exact .same
  · rename_i owned locked
    split
    · apply RowMoves.changed (lockOwned_eq_some locked).1
      apply changes_getD_promote
      exact fun alone => .settle alone (by nofun) alone le_rfl (by nofun)
    · exact .same

theorem rowMoves_retryOrFail (claim : RepairClaim) (error : String)
    (currentRow : Option AttendanceRow) (now : ℤ) (tables : Tables) :
    RowMoves allowed tables.repair
      (retryOrFail calendar attendanceId claim error currentRow now tables).2.repair := by
  unfold retryOrFail
  split
  · exact .same
  · rename_i owned locked
    obtain ⟨found, holds⟩ := lockOwned_eq_some locked
    split
    · dsimp only
      split
      · rename_i promoted promotes
        exact .changed found (changes_promote promotes)
      · rename_i promotes
        have alone := alone_of_promoteSuccessor promotes
        have attempts : owned.attemptCount = claim.attemptCount := congrArg Prod.fst holds.2
        apply RowMoves.changed found
        refine .settle alone ?_ alone le_rfl fun failed => ?_
        · dsimp only [RepairRow.retried]
          split <;> nofun
        · dsimp only [RepairRow.retried] at failed ⊢
          split at failed
          · rename_i spent
            rwa [attempts]
          · cases failed
    · exact .same

theorem rowMoves_settled {session : Session} {tables next : Tables}
    (taken : settled calendar attendanceId session tables = some next) :
    RowMoves (KeepsSuccessor session tables) tables.repair next.repair := by
  obtain ⟨claim, serial, startedAt, task⟩ := session
  cases task with
  | refreshExpected row =>
      obtain rfl := Option.some.inj taken
      exact rowMoves_refreshExpected rfl
  | refreshTarget target =>
      obtain rfl := Option.some.inj taken
      exact rowMoves_refreshTarget _ _ _ _ _
  | discard =>
      obtain rfl := Option.some.inj taken
      exact rowMoves_discard _ _ _ _
  | finish row =>
      obtain rfl := Option.some.inj taken
      exact rowMoves_finishVerified _ _ _ _ _
  | fail error currentRow =>
      obtain rfl := Option.some.inj taken
      exact rowMoves_retryOrFail _ _ _ _ _ _
  | read | resolve _ | reserve | write _ | reread _ => cases taken

theorem rowMoves_reconcile {proof : RepairProjectionProof} {candidate : Bool} {now : ℤ}
    {repair next : Option RepairRow} (formed : ∀ row ∈ repair, row.Formed)
    (taken : reconcileRow live proof candidate now repair = .ok next) :
    RowMoves allowed repair next := by
  unfold reconcileRow at taken
  split at taken
  · obtain rfl := Except.ok.inj taken
    exact .same
  · dsimp only at taken
    split at taken
    · obtain rfl := Except.ok.inj taken
      exact .same
    · split at taken
      · obtain rfl := Except.ok.inj taken
        exact .same
      · split at taken
        · split at taken
          · obtain rfl := Except.ok.inj taken
            exact .same
          · obtain rfl := Except.ok.inj taken
            cases repair with
            | none => exact .inserted proof.candidate now rfl
            | some row => exact .changed rfl (changes_enqueue _ _ now (formed row rfl))
        · split at taken
          · cases taken
          · obtain rfl := Except.ok.inj taken
            cases repair with
            | none => exact .same
            | some row => exact .changed rfl (changes_completeObsolete proof now (formed row rfl))

/-! ## What a step does -/

/-- The renewal found the row applied under the claim, alone, and the mirror at its version. -/
structure Renewal.Proves (renewal : Renewal) (claim : RepairClaim) : Prop where
  owned : ∃ row, renewal.repair = some row ∧ Owned row claim ∧ row.successor = none
  mirrored : ∃ mirror, renewal.live = some mirror ∧ InMirror claim mirror

/-- What a step other than a claim does: sessions go on with their claims or end, and one starts
to write only with the renewal it has just made. -/
structure Moves (attendanceId : ℤ) (allowed : Prop) (state next : State W) : Prop where
  issued : next.issued = state.issued
  repair : RowMoves allowed state.tables.repair next.tables.repair
  sessions : ∀ worker session, next.sessions worker = some session →
    ∃ before, state.sessions worker = some before ∧ session.claim = before.claim ∧
      session.serial = before.serial ∧
      ∀ renewal, session.task = .write renewal → before.task = .write renewal ∨
        renewal = ⟨state.tables.repair, state.tables.live attendanceId, state.issued⟩ ∧
          renewal.Proves session.claim

omit [DecidableEq W] in
/-- The sessions stay as they are. -/
theorem moves_tables {allowed : Prop} {state : State W} {tables : Tables}
    (repair : RowMoves allowed state.tables.repair tables.repair) :
    Moves attendanceId allowed state { state with tables := tables } where
  issued := rfl
  repair := repair
  sessions _ session found := ⟨session, found, rfl, rfl, fun _ task => .inl task⟩

/-- One session changes. -/
theorem moves_become {allowed : Prop} {state : State W} {tables : Tables} {worker : W}
    {before : Session} {session : Option Session} (found : state.sessions worker = some before)
    (repair : RowMoves allowed state.tables.repair tables.repair)
    (goes : ∀ after ∈ session, after.claim = before.claim ∧ after.serial = before.serial ∧
      ∀ renewal, after.task = .write renewal →
        renewal = ⟨state.tables.repair, state.tables.live attendanceId, state.issued⟩ ∧
          renewal.Proves after.claim) :
    Moves attendanceId allowed state { state.become worker session with tables := tables } where
  issued := rfl
  repair := repair
  sessions other after shown := by
    dsimp only [State.become] at shown
    by_cases same : other = worker
    · subst same
      rw [Function.update_self] at shown
      obtain ⟨claim, serial, writes⟩ := goes after shown
      exact ⟨before, found, claim, serial, fun renewal task => .inr (writes renewal task)⟩
    · rw [Function.update_of_ne same] at shown
      exact ⟨after, shown, rfl, rfl, fun _ task => .inl task⟩

/-- One session decides what it does next. -/
theorem moves_decide {allowed : Prop} {state : State W} {worker : W} {claim : RepairClaim}
    {serial : ℕ} {startedAt : ℤ} {task next : Task}
    (found : state.sessions worker = some ⟨claim, serial, startedAt, task⟩)
    (decides : ∀ renewal, next ≠ .write renewal) :
    Moves attendanceId allowed state
      (state.become worker (some ⟨claim, serial, startedAt, next⟩)) := by
  have unchanged : RowMoves allowed state.tables.repair state.tables.repair := .same
  refine moves_become found unchanged fun after shown => ?_
  obtain rfl := Option.some.inj shown
  exact ⟨rfl, rfl, fun renewal task => absurd task (decides renewal)⟩

/-- One session ends. -/
theorem moves_end {allowed : Prop} {state : State W} {tables : Tables} {worker : W}
    (repair : RowMoves allowed state.tables.repair tables.repair) :
    Moves attendanceId allowed state { state.become worker none with tables := tables } where
  issued := rfl
  repair := repair
  sessions other after shown := by
    dsimp only [State.become] at shown
    by_cases same : other = worker
    · subst same
      rw [Function.update_self] at shown
      cases shown
    · rw [Function.update_of_ne same] at shown
      exact ⟨after, shown, rfl, rfl, fun _ task => .inl task⟩

theorem afterRead_ne_write (answer : Except String (Option AttendanceRow)) (renewal : Renewal) :
    afterRead claim answer ≠ .write renewal := by
  unfold afterRead
  split
  · nofun
  · nofun
  · split <;> nofun

theorem afterTarget_ne_write (current : AttendanceRow) (target : ℤ) (renewal : Renewal) :
    afterTarget claim current target ≠ .write renewal := by
  unfold afterTarget
  split
  · nofun
  · split
    · nofun
    · split
      · nofun
      · split
        · split <;> nofun
        · nofun

theorem afterResolve_ne_write (current : AttendanceRow) (answer : Except String (Option ℤ))
    (renewal : Renewal) : afterResolve claim current answer ≠ .write renewal := by
  unfold afterResolve
  split
  · nofun
  · nofun
  · split
    · nofun
    · exact afterTarget_ne_write claim current _ renewal

theorem afterReread_ne_write (writeError : Option String)
    (answer : Except String (Option AttendanceRow)) (renewal : Renewal) :
    afterReread claim writeError answer ≠ .write renewal := by
  unfold afterReread
  split
  · nofun
  · nofun
  · split
    · nofun
    · split <;> nofun
  · nofun
  · nofun
  · split
    · nofun
    · split <;> nofun

theorem renewClaim_eq_true {claim : RepairClaim} {now : ℤ} {row : RepairRow}
    (renewed : (renewClaim live claim now row).1 = true) :
    row.successor = none ∧ ∃ mirror, live = some mirror ∧ InMirror claim mirror := by
  unfold renewClaim at renewed
  split at renewed
  · cases renewed
  · rename_i promotes
    split at renewed
    · cases renewed
    · rename_i mirror
      split at renewed
      · rename_i held
        exact ⟨alone_of_promoteSuccessor promotes, mirror, rfl, held⟩
      · cases renewed

theorem moves_reserve {allowed : Prop} {state : State W} {worker : W} {session : Session}
    (found : state.sessions worker = some session) (now : ℤ) :
    Moves attendanceId allowed state
      { state.become worker
          (reserveForWrite attendanceId session state.issued now state.tables).1 with
        tables := (reserveForWrite attendanceId session state.issued now state.tables).2 } := by
  unfold reserveForWrite
  cases locked : lockOwned session.claim state.tables.repair with
  | none => exact moves_end .same
  | some owned =>
      obtain ⟨held, owns⟩ := lockOwned_eq_some locked
      refine moves_become found (.changed held (changes_renew _ _ _ _)) fun after shown => ?_
      obtain ⟨renewed, shown⟩ := Option.ite_none_right_eq_some.mp shown
      obtain ⟨alone, mirrored⟩ := renewClaim_eq_true renewed
      obtain rfl := Option.some.inj shown
      refine ⟨rfl, rfl, fun renewal task => ?_⟩
      cases task
      exact ⟨rfl, ⟨owned, held, owns, alone⟩, mirrored⟩

/-- A claim is not issued under a fence that a worker holds, and a refreshed version does not
drop a successor. -/
def Permitted (attendanceId : ℤ) (state : State W) : Action W → Prop
  | .claim _ now => ∀ repair ∈ state.tables.repair,
      ∀ claimed ∈ claimNext (state.tables.live attendanceId) now repair,
        ∀ worker session, state.sessions worker = some session →
          session.claim.fence ≠ claimed.1.fence
  | .settle worker => ∀ session ∈ state.sessions worker, KeepsSuccessor session state.tables
  | _ => True

/-- What a claim does. -/
structure Claims (attendanceId : ℤ) (state next : State W) (worker : W) (now : ℤ) : Prop where
  idle : state.sessions worker = none
  issued : next.issued = state.issued + 1
  taken : ∃ repair claim row, state.tables.repair = some repair ∧
    claimNext (state.tables.live attendanceId) now repair = some (claim, row) ∧
      next.tables.repair = some row ∧ next.sessions = Function.update state.sessions worker
        (some ⟨claim, state.issued + 1, now, afterClaim claim⟩)

theorem step_cases {state next : State W} {action : Action W}
    (formed : ∀ row ∈ state.tables.repair, row.Formed)
    (taken : step calendar attendanceId state action = some next) :
    (∃ worker now, action = .claim worker now ∧ Claims attendanceId state next worker now) ∨
      Moves attendanceId (Permitted attendanceId state action) state next := by
  cases action with
  | enqueue candidate now =>
      obtain rfl := Option.some.inj taken
      refine .inr (moves_tables ?_)
      cases found : state.tables.repair with
      | none => exact .inserted candidate now rfl
      | some row => exact .changed rfl (changes_enqueue _ candidate now (formed row found))
  | reconcile proof candidate now =>
      obtain ⟨-, taken⟩ := Option.ite_none_right_eq_some.mp taken
      obtain ⟨repair, reconciled, rfl⟩ := Option.map_eq_some_iff.mp taken
      exact .inr (moves_tables (rowMoves_reconcile _ formed (eq_ok_of_toOption reconciled)))
  | store batch =>
      obtain ⟨stored, -, rfl⟩ := Option.map_eq_some_iff.mp taken
      exact .inr (moves_tables .same)
  | claim worker now =>
      dsimp only [step] at taken
      split at taken
      · rename_i repair idle found
        obtain ⟨⟨claim, row⟩, claimed, rfl⟩ := Option.map_eq_some_iff.mp taken
        exact .inl ⟨worker, now, rfl, idle, rfl, repair, claim, row, found, claimed, rfl, rfl⟩
      · cases taken
  | expire now =>
      obtain rfl := Option.some.inj taken
      refine .inr (moves_tables ?_)
      cases found : state.tables.repair with
      | none => exact .same
      | some row => exact .changed rfl (changes_expire now row)
  | read worker answer =>
      dsimp only [step] at taken
      split at taken
      · rename_i found
        obtain rfl := Option.some.inj taken
        exact .inr (moves_decide found (afterRead_ne_write _ _))
      · rename_i found
        obtain rfl := Option.some.inj taken
        exact .inr (moves_decide found (afterReread_ne_write _ _ _))
      · cases taken
  | resolve worker answer =>
      dsimp only [step] at taken
      split at taken
      · rename_i found
        obtain rfl := Option.some.inj taken
        exact .inr (moves_decide found (afterResolve_ne_write _ _ _))
      · cases taken
  | reserve worker now =>
      dsimp only [step] at taken
      split at taken
      · rename_i found
        obtain rfl := Option.some.inj taken
        exact .inr (moves_reserve found now)
      · cases taken
  | write worker error =>
      dsimp only [step] at taken
      split at taken
      · rename_i found
        obtain rfl := Option.some.inj taken
        have decides : ∀ renewal, Task.reread error ≠ .write renewal := fun _ same => by cases same
        exact .inr (moves_decide found decides)
      · cases taken
  | settle worker =>
      dsimp only [step] at taken
      split at taken
      · rename_i session found
        obtain ⟨tables, ended, rfl⟩ := Option.map_eq_some_iff.mp taken
        apply Or.inr
        apply moves_end
        exact (rowMoves_settled ended).mono fun permitted => permitted session found
      · cases taken
  | crash worker =>
      obtain rfl := Option.some.inj taken
      apply Or.inr
      apply moves_end
      exact .same

theorem claimNext_eq_some {now : ℤ} {repair row : RepairRow} {claim : RepairClaim}
    (claimed : claimNext live now repair = some (claim, row)) :
    Owned row claim ∧ row.intent = (expire now repair).intent ∧
      row.successor = (expire now repair).successor := by
  obtain ⟨-, claimed⟩ := Option.ite_none_right_eq_some.mp claimed
  obtain ⟨rfl, rfl⟩ := Prod.mk.inj (Option.some.inj claimed)
  exact ⟨⟨rfl, rfl⟩, rfl, rfl⟩

theorem formed_claimed {now : ℤ} {repair row : RepairRow} {claim : RepairClaim}
    (claimed : claimNext live now repair = some (claim, row)) (formed : repair.Formed) :
    row.Formed := by
  obtain ⟨owned, intent, successor⟩ := claimNext_eq_some claimed
  have expired := (changes_expire now repair).formed formed
  refine ⟨fun settled => absurd owned.1 settled, ?_, fun failed => ?_⟩
  · rw [intent, successor]
    exact expired.ordered
  · cases owned.1.symm.trans failed

theorem advances_claimed {now : ℤ} {repair row : RepairRow} {claim : RepairClaim}
    (claimed : claimNext live now repair = some (claim, row)) (formed : repair.Formed) :
    Advances repair row := by
  obtain ⟨-, intent, successor⟩ := claimNext_eq_some claimed
  obtain ⟨later, waits⟩ := (changes_expire now repair).advances formed
  constructor
  · rwa [RepairRow.later, RepairRow.later, intent, successor]
  · intro waiting found
    rw [successor]
    refine (waits waiting found).imp_right fun active => ⟨?_, ?_, ?_, ?_⟩
    · rw [intent, active.department]
    · rw [intent, active.workCenter]
    · rw [intent, active.projected]
    · rw [intent]
      exact active.version

/-! ## The invariant -/

/-- Every row is formed, a worker that owns the row has the last claim, and a session that writes
has renewed its claim while it was the last. -/
structure Fenced (state : State W) : Prop where
  formed : ∀ row ∈ state.tables.repair, row.Formed
  serials : ∀ worker session, state.sessions worker = some session → session.serial ≤ state.issued
  owner : ∀ worker session row, state.sessions worker = some session →
    state.tables.repair = some row → Owned row session.claim → session.serial = state.issued
  renewed : ∀ worker session renewal, state.sessions worker = some session →
    session.task = .write renewal → renewal.Proves session.claim ∧ session.serial = renewal.issued

omit [DecidableEq W] in
theorem Fenced.moves {allowed : Prop} {state next : State W} (fenced : Fenced state)
    (moves : Moves attendanceId allowed state next) : Fenced next where
  formed := moves.repair.formed fenced.formed
  serials worker session found := by
    obtain ⟨before, known, -, serial, -⟩ := moves.sessions worker session found
    rw [serial, moves.issued]
    exact fenced.serials worker before known
  owner worker session row found held owns := by
    obtain ⟨before, known, claim, serial, -⟩ := moves.sessions worker session found
    obtain ⟨earlier, was, applying, fence⟩ := moves.repair.applying held owns.1
    rw [serial, moves.issued]
    apply fenced.owner worker before earlier known was
    exact ⟨applying, fence.trans (claim ▸ owns.2)⟩
  renewed worker session renewal found task := by
    obtain ⟨before, known, claim, serial, writes⟩ := moves.sessions worker session found
    rw [claim, serial]
    rcases writes renewal task with earlier | ⟨rfl, proves⟩
    · exact fenced.renewed worker before renewal known earlier
    · rw [claim] at proves
      obtain ⟨row, held, owns, -⟩ := proves.owned
      exact ⟨proves, fenced.owner worker before row known held owns⟩

/-- The new claim is the last, and no other session holds its fence. -/
theorem Fenced.claims {state next : State W} {worker : W} {now : ℤ} (fenced : Fenced state)
    (claims : Claims attendanceId state next worker now)
    (permitted : Permitted attendanceId state (.claim worker now)) : Fenced next := by
  obtain ⟨repair, claim, row, found, claimed, after, sessions⟩ := claims.taken
  have owned := (claimNext_eq_some claimed).1
  have known : ∀ other session, next.sessions other = some session →
      session = ⟨claim, state.issued + 1, now, afterClaim claim⟩ ∨
        state.sessions other = some session := by
    intro other session shown
    rw [sessions] at shown
    by_cases same : other = worker
    · subst same
      rw [Function.update_self] at shown
      exact .inl (Option.some.inj shown).symm
    · rw [Function.update_of_ne same] at shown
      exact .inr shown
  refine ⟨fun shown held => ?_, fun other session shown => ?_,
    fun other session last shown held owns => ?_, fun other session renewal shown task => ?_⟩
  · rw [after] at held
    obtain rfl := Option.some.inj held
    exact formed_claimed claimed (fenced.formed repair found)
  · rw [claims.issued]
    rcases known other session shown with rfl | before
    · exact le_rfl
    · exact (fenced.serials other session before).trans (Nat.le_succ _)
  · rw [claims.issued]
    rcases known other session shown with rfl | before
    · rfl
    · rw [after] at held
      obtain rfl := Option.some.inj held
      have apart := permitted repair found (claim, row) claimed other session before
      exact absurd (owns.2.symm.trans owned.2) apart
  · rcases known other session shown with rfl | before
    · dsimp only [afterClaim] at task
      split at task <;> cases task
    · exact fenced.renewed other session renewal before task

theorem fenced_step {state next : State W} {action : Action W} (fenced : Fenced state)
    (permitted : Permitted attendanceId state action)
    (taken : step calendar attendanceId state action = some next) : Fenced next := by
  rcases step_cases fenced.formed taken with ⟨worker, now, rfl, claims⟩ | moves
  · exact fenced.claims claims permitted
  · exact fenced.moves moves

/-- No attendance has a repair yet, and every worker is idle. -/
def State.start (mirror : Mirror.Tables) : State W where
  tables := ⟨none, mirror⟩
  sessions _ := none
  issued := 0

omit [DecidableEq W] in
theorem fenced_start (mirror : Mirror.Tables) : Fenced (State.start (W := W) mirror) where
  formed _ found := by cases found
  serials _ _ found := by cases found
  owner _ _ _ found := by cases found
  renewed _ _ _ found := by cases found

/-! ## What a run keeps -/

def Action.worker : Action W → Option W
  | .claim worker _ => some worker
  | .read worker _ => some worker
  | .resolve worker _ => some worker
  | .reserve worker _ => some worker
  | .write worker _ => some worker
  | .settle worker => some worker
  | .crash worker => some worker
  | .enqueue _ _ => none
  | .reconcile _ _ _ => none
  | .store _ => none
  | .expire _ => none

/-- Somebody else claimed the row after the worker did, or took it out of its hands. -/
def Superseded (state : State W) (worker : W) : Prop :=
  ∃ session, state.sessions worker = some session ∧
    (session.serial ≠ state.issued ∨ ∀ row ∈ state.tables.repair, row.status ≠ .applying)

/-- What a step of a fenced run keeps. -/
structure KeepsFence (state next : State W) (action : Action W) : Prop where
  /-- A superseded worker does not change the row. -/
  silent : ∀ worker ∈ action.worker, Superseded state worker →
    next.tables.repair = state.tables.repair
  /-- A superseded worker stays so until it is done. -/
  stays : ∀ worker, Superseded state worker →
    next.sessions worker = none ∨ Superseded next worker
  advances : ∀ row ∈ state.tables.repair, ∃ after ∈ next.tables.repair, Advances row after
  /-- A worker that writes to Odoo has proved its claim, the last one, in its renewal. -/
  renewed : ∀ worker error, action = .write worker error →
    ∃ session renewal, state.sessions worker = some session ∧ session.task = .write renewal ∧
      renewal.Proves session.claim ∧ session.serial = renewal.issued

omit [DecidableEq W] in
theorem Fenced.unowned {state : State W} (fenced : Fenced state) {worker : W} {session : Session}
    (found : state.sessions worker = some session) (superseded : Superseded state worker) :
    lockOwned session.claim state.tables.repair = none := by
  obtain ⟨other, known, gone⟩ := superseded
  obtain rfl := Option.some.inj (known.symm.trans found)
  by_contra owns
  obtain ⟨row, locked⟩ := Option.ne_none_iff_exists'.mp owns
  obtain ⟨held, owned⟩ := lockOwned_eq_some locked
  rcases gone with later | settled
  · exact later (fenced.owner worker other row found held owned)
  · exact settled row held owned.1

theorem settled_of_unowned {session : Session} {tables next : Tables}
    (unowned : lockOwned session.claim tables.repair = none)
    (taken : settled calendar attendanceId session tables = some next) : next = tables := by
  obtain ⟨claim, serial, startedAt, task⟩ := session
  cases task with
  | refreshExpected row =>
      rw [← Option.some.inj taken, refreshExpected, unowned]
  | refreshTarget target =>
      rw [← Option.some.inj taken, refreshTarget, unowned]
  | discard =>
      rw [← Option.some.inj taken, discard, unowned]
  | finish row =>
      rw [← Option.some.inj taken, finishVerified, unowned]
  | fail error currentRow =>
      obtain rfl := Option.some.inj taken
      unfold retryOrFail
      rw [unowned]
  | read | resolve _ | reserve | write _ | reread _ => cases taken

theorem repair_of_superseded {state next : State W} {action : Action W} (fenced : Fenced state)
    {worker : W} (acts : worker ∈ action.worker) (superseded : Superseded state worker)
    (taken : step calendar attendanceId state action = some next) :
    next.tables.repair = state.tables.repair := by
  cases action with
  | enqueue _ _ | reconcile _ _ _ | store _ | expire _ => cases acts
  | claim other now =>
      obtain rfl := Option.some.inj acts
      obtain ⟨session, found, -⟩ := superseded
      dsimp only [step] at taken
      rw [found] at taken
      cases taken
  | read other answer =>
      dsimp only [step] at taken
      split at taken
      · rw [← Option.some.inj taken, State.become]
      · rw [← Option.some.inj taken, State.become]
      · cases taken
  | resolve other answer | write other error =>
      dsimp only [step] at taken
      split at taken
      · rw [← Option.some.inj taken, State.become]
      · cases taken
  | reserve other now =>
      obtain rfl := Option.some.inj acts
      dsimp only [step] at taken
      split at taken
      · rename_i found
        rw [← Option.some.inj taken]
        have unowned := fenced.unowned found superseded
        rw [reserveForWrite, unowned]
      · cases taken
  | settle other =>
      obtain rfl := Option.some.inj acts
      dsimp only [step] at taken
      split at taken
      · rename_i session found
        obtain ⟨tables, ended, rfl⟩ := Option.map_eq_some_iff.mp taken
        rw [settled_of_unowned (fenced.unowned found superseded) ended]
      · cases taken
  | crash other => rw [← Option.some.inj taken, State.become]

theorem superseded_step {state next : State W} {action : Action W} (fenced : Fenced state)
    {worker : W} (superseded : Superseded state worker)
    (taken : step calendar attendanceId state action = some next) :
    next.sessions worker = none ∨ Superseded next worker := by
  obtain ⟨session, found, gone⟩ := superseded
  rcases step_cases fenced.formed taken with ⟨other, now, -, claims⟩ | moves
  · obtain ⟨_, claim, _, -, -, -, sessions⟩ := claims.taken
    have apart : worker ≠ other := by
      rintro rfl
      cases claims.idle.symm.trans found
    refine .inr ⟨session, ?_, .inl ?_⟩
    · rw [sessions, Function.update_of_ne apart, found]
    · have earlier := fenced.serials worker session found
      have issued := claims.issued
      omega
  · cases shown : next.sessions worker with
    | none => exact .inl rfl
    | some after =>
        obtain ⟨before, known, -, serial, -⟩ := moves.sessions worker after shown
        obtain rfl := Option.some.inj (known.symm.trans found)
        refine .inr ⟨after, shown, gone.imp (fun later => ?_) fun settled row held applying => ?_⟩
        · rwa [serial, moves.issued]
        · obtain ⟨earlier, was, applied, -⟩ := moves.repair.applying held applying
          exact settled earlier was applied

theorem keepsFence_step {state next : State W} {action : Action W} (fenced : Fenced state)
    (permitted : Permitted attendanceId state action)
    (taken : step calendar attendanceId state action = some next) :
    KeepsFence state next action where
  silent worker acts superseded := repair_of_superseded fenced acts superseded taken
  stays worker superseded := superseded_step fenced superseded taken
  advances row found := by
    rcases step_cases fenced.formed taken with ⟨worker, now, -, claims⟩ | moves
    · obtain ⟨repair, claim, after, held, claimed, shown, -⟩ := claims.taken
      obtain rfl := Option.some.inj (held.symm.trans found)
      exact ⟨after, shown, advances_claimed claimed (fenced.formed _ found)⟩
    · exact moves.repair.advances permitted fenced.formed row found
  renewed worker error acts := by
    subst acts
    dsimp only [step] at taken
    split at taken
    · rename_i renewal found
      have proves := fenced.renewed worker _ renewal found rfl
      exact ⟨_, renewal, found, rfl, proves⟩
    · cases taken

/-- In every run of permitted steps the repair claims are fenced. -/
theorem repair_fenced (calendar : PlantCalendar) (attendanceId : ℤ) (mirror : Mirror.Tables)
    {state : State W} (reachable : Reachable (State.start mirror)
      (step calendar attendanceId) (Permitted attendanceId) state)
    {action : Action W} {next : State W} (permitted : Permitted attendanceId state action)
    (taken : step calendar attendanceId state action = some next) :
    KeepsFence state next action := by
  have fenced := reachable.invariant (fenced_start mirror)
    fun _ _ _ fenced permitted taken => fenced_step fenced permitted taken
  exact keepsFence_step fenced permitted taken

/-! ## Runs of workers -/

/-- One attendance in department 7 whose work center asks for department 8. -/
def oneAttendance : AttendanceRow where
  attendanceId := 901
  employeeId := 3
  employeeName := none
  checkIn := 1
  checkOut := none
  workCenterId := some 72
  workCenterName := none
  departmentId := some 7
  departmentName := none
  writeDate := 10

def oneMirror : Mirror.Tables where
  mirror := SortedMap.set ∅ 901
    { oneAttendance with
      firstSeenAt := 20
      lastSeenAt := 20
      lastSweepGeneration := none
      deletedAt := none }
  sync :=
    { cursorWriteDate := none
      cursorId := none
      lastIncrementalCompletedAt := some 20
      lastFullSweepCompletedAt := some 20
      lastFullSweepDeletionCount := 0
      fullSweepGeneration := 1
      baselineCompletedAt := some 20 }
  queue := ∅

def wrongDepartment (projectedAt : ℤ) : RepairProjectionProof where
  writeDate := 10
  workCenterId := 72
  departmentId := some 7
  targetDepartmentId := 8
  targetProjectedAt := projectedAt

/-- A worker claims the row and renews its claim before the write. -/
def oneRepair : List (Action ℕ) :=
  [.reconcile (wrongDepartment 30) true 30, .claim 0 40, .read 0 (.ok [oneAttendance]),
    .resolve 0 (.ok (some 8)), .reserve 0 50]

theorem repair_fenced_oneRepair :
    ∃ state next, run (step Projection.uniformCalendar 901) (State.start oneMirror) oneRepair =
        some state ∧
      step Projection.uniformCalendar 901 state (.write 0 none) = some next ∧
      KeepsFence state next (.write 0 none) := by
  obtain ⟨state, next, ran, taken⟩ : ∃ state next,
      run (step Projection.uniformCalendar 901) (State.start oneMirror) oneRepair = some state ∧
        step Projection.uniformCalendar 901 state (.write 0 none) = some next :=
    ⟨_, _, rfl, rfl⟩
  refine ⟨state, next, ran, taken, ?_⟩
  have permitted : Transition.Permitted (step Projection.uniformCalendar 901) (Permitted 901)
      (State.start oneMirror) oneRepair := by
    refine ⟨trivial, fun queued reconciled => ?_⟩
    obtain rfl := Option.some.inj reconciled
    refine ⟨fun repair _ claimed _ worker session found => ?_, fun _ _ => ?_⟩
    · cases found
    · exact ⟨trivial, fun _ _ => ⟨trivial, fun _ _ => ⟨trivial, fun _ _ => trivial⟩⟩⟩
  exact repair_fenced Projection.uniformCalendar 901 oneMirror
    (Reachable.initial.run_permitted permitted ran) trivial taken

/-- A worker refreshes the target of its claim. -/
def refreshes (worker : ℕ) (now target : ℤ) : List (Action ℕ) :=
  [.claim worker now, .read worker (.ok [oneAttendance]), .resolve worker (.ok (some target)),
    .settle worker]

/-- The first worker stalls past its lease. Two others refresh the target to another department
and back, and the last claim is issued under the fence of the first. The work center has been
changed when the first worker reads it. -/
def repeatedFence : List (Action ℕ) :=
  [.reconcile (wrongDepartment 30) true 30, .claim 0 40] ++
    refreshes 1 (40 + lease) 9 ++ refreshes 2 (50 + lease) 8 ++
    [.claim 3 (60 + lease), .read 0 (.ok [{ oneAttendance with workCenterId := some 73 }])]

theorem repair_fence_repeats :
    ∃ state next, run (step Projection.uniformCalendar 901) (State.start oneMirror)
        repeatedFence = some state ∧ Superseded state 0 ∧
      step Projection.uniformCalendar 901 state (.settle 0) = some next ∧
      next.tables.repair ≠ state.tables.repair := by
  refine ⟨_, _, rfl, ⟨_, rfl, .inl ?_⟩, rfl, ?_⟩
  · decide
  · decide

end PlantManager.Attendance.Repair

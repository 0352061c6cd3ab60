import PlantManager.Timeclock.PunchCalls

/-! # Punches that are synced in turn

A sweep can hold a punch that a call synced since, and calls can overtake each other; then a row is
created twice, or stays open (`Timeclock.PunchSync.twice_created`). If each punch is
taken up in its turn (`Timeclock.PunchSync.InTurn`), every punch has its effect once
(`Timeclock.PunchSync.once_in_turn`).
-/

namespace PlantManager.Timeclock.PunchSync

open Transition

def SyncEvent.isCreate : SyncEvent → Bool
  | .created _ _ => true
  | .closed _ _ => false

/-- Each punch has its effect once: there are no more rows created than in-punches, a punch closes
no row of a later one, and when all is done a row is open if the last punch is an in-punch. -/
structure OncePerPunch (world : World) : Prop where
  creates : (world.history.filter SyncEvent.isCreate).length ≤
    ((world.log.map Entry.punch).filter Punch.isIn).length
  order : ∀ inId outId row, .created inId row ∈ world.history → .closed outId row ∈ world.history →
    [inId, outId].Sublist (world.log.map (·.punch.id))
  ended : (∀ run, world.runs run = none) → (∀ entry ∈ world.log, entry.punch.id ∈ world.called) →
    ((∃ row ∈ world.odoo.rows, row.shift.checkOut = none) ↔
      ∃ last ∈ (world.log.map Entry.punch).getLast?, last.isIn = true)

/-- No other punch is being synced, every earlier punch is synced and no later one is. -/
def InTurn (world : World) : SyncAction → Prop
  | .advance run => ∀ punch rest, world.runs run = some ⟨punch :: rest, none⟩ →
      (∀ other state, world.runs other = some state → state.acting = none) ∧
        ∃ front entry back, world.log = front ++ entry :: back ∧ entry.punch = punch ∧
          (∀ earlier ∈ front, earlier.synced = true) ∧ ∀ later ∈ back, later.synced = false
  | _ => True

/-! ## Turns -/

/-- An in-punch comes first or after an out-punch. -/
theorem alternating_turn : ∀ {done : List Punch} {punch : Punch} {rest : List Punch},
    Alternating (done ++ punch :: rest) →
      (punch.isIn = true ↔ ¬ ∃ last ∈ done.getLast?, last.isIn = true)
  | [], punch, rest, turns => by
      have comes : punch.isIn = true := by
        cases rest with
        | nil => exact turns
        | cons _ _ => exact turns.1
      simp [comes]
  | [first], punch, rest, turns => by
      obtain ⟨comes, goes, -⟩ := turns
      simp [comes, goes]
  | [first, second], punch, rest, turns => by
      have later : punch.isIn = true ↔ ¬ ∃ last ∈ ([] : List Punch).getLast?, last.isIn = true :=
        alternating_turn turns.2.2
      simpa [turns.2.1] using later
  | first :: second :: third :: done, punch, rest, turns => by
      have later : punch.isIn = true ↔ ¬ ∃ last ∈ (third :: done).getLast?, last.isIn = true :=
        alternating_turn turns.2.2
      simpa [List.getLast?_cons_cons] using later

/-- Where the synced punches end. -/
theorem synced_unique {front back front' back' : List Entry} (same : front ++ back = front' ++ back')
    (before : ∀ entry ∈ front, entry.synced = true) (after : ∀ entry ∈ back, entry.synced = false)
    (before' : ∀ entry ∈ front', entry.synced = true)
    (after' : ∀ entry ∈ back', entry.synced = false) : front = front' := by
  have ends : ∀ {front back : List Entry}, (∀ entry ∈ front, entry.synced = true) →
      (∀ entry ∈ back, entry.synced = false) →
      (front ++ back).takeWhile Entry.synced = front := by
    intro front back before after
    rw [List.takeWhile_append_of_pos before]
    cases back with
    | nil => rw [List.takeWhile_nil, List.append_nil]
    | cons entry rest =>
        rw [List.takeWhile_cons_of_neg (by simp [after entry List.mem_cons_self]), List.append_nil]
  rw [← ends before after, same, ends before' after']


/-! ## What the punches so far did -/

/-- The punches so far had their effect, and no others. -/
structure Settled (done : List Punch) (odoo : Odoo) (history : List SyncEvent) : Prop where
  holds : ∃ rows current, odoo.Holds rows current ∧
    (current.isSome ↔ ∃ last ∈ done.getLast?, last.isIn = true)
  creates : (history.filter SyncEvent.isCreate).length ≤ (done.filter Punch.isIn).length
  created : ∀ inId row, .created inId row ∈ history → inId ∈ done.map Punch.id
  closed : ∀ outId row, .closed outId row ∈ history → row < odoo.nextId
  order : ∀ inId outId row, .created inId row ∈ history → .closed outId row ∈ history →
    [inId, outId].Sublist (done.map Punch.id)

/-- Calls that change neither which rows are open nor when a row ends. -/
inductive Harmless (punch : Punch) (odoo : Odoo) (calls : List OdooCall) : Prop
  | labels (row : Attendance) (opened : getCurrentAttendance odoo = some row)
      (label : ∀ call ∈ calls, (∃ wcName, call = .setWc row.id wcName) ∨
        ∃ departmentId, call = .setDepartment row.id departmentId)
  | checks (ended : ∀ row ∈ odoo.rows, row.shift.checkOut ≠ none)
      (check : ∀ call ∈ calls, call = .remaining ∨ ∃ ids, call = .verify ids ∧
        ∀ id ∈ ids, ∃ row ∈ odoo.rows, row.id = id ∧ row.shift.checkOut = some punch.occurredAt)

/-- Calls that begin with the effect of the punch. -/
inductive Due (punch : Punch) (odoo : Odoo) (calls : List OdooCall) : Prop
  | create (comes : punch.isIn = true) (calls_eq : calls = [.create])
  | close (goes : punch.isIn = false) (row : Attendance)
      (opened : getCurrentAttendance odoo = some row)
      (calls_eq : calls = [.close row.id] ∨
        calls = [.close row.id, .verify [row.id], .remaining])

variable {done : List Punch} {punch : Punch} {odoo : Odoo} {history : List SyncEvent}

theorem Settled.start (holds : ∃ rows, odoo.Holds rows none) : Settled [] odoo [] where
  holds := by
    obtain ⟨rows, holds⟩ := holds
    exact ⟨rows, none, holds, by simp⟩
  creates := Nat.le_refl _
  created := nofun
  closed := nofun
  order := nofun

/-- A punch that creates no row and closes none, where the last punch is as before. -/
theorem Settled.relabel {next : Odoo} (settled : Settled done odoo history)
    {row changed : Attendance} (opened : getCurrentAttendance odoo = some row)
    (nextId : next.nextId = odoo.nextId)
    (write : ∀ {rows}, odoo.Holds rows (some row) → next.Holds rows (some changed)) :
    Settled done next history where
  holds := by
    obtain ⟨rows, current, holds, last⟩ := settled.holds
    rw [holds.getCurrentAttendance] at opened
    subst opened
    exact ⟨rows, some changed, write holds, last⟩
  creates := settled.creates
  created := settled.created
  closed := by
    rw [nextId]
    exact settled.closed
  order := settled.order

/-- An in-punch whose row was created. -/
theorem Settled.create (settled : Settled done odoo history) (mapping : Mapping)
    (comes : punch.isIn = true) (turn : ¬ ∃ last ∈ done.getLast?, last.isIn = true) :
    Settled (done ++ [punch])
      (clockIn mapping punch.wcName punch.occurredAt punch.odooDepartmentId odoo).2
      (.created punch.id odoo.nextId :: history) where
  holds := by
    obtain ⟨rows, current, holds, last⟩ := settled.holds
    cases current with
    | some row => exact absurd (last.mp rfl) turn
    | none => exact ⟨rows, some _, holds.clockIn .., by simp [comes]⟩
  creates := by
    have before := settled.creates
    simp only [List.filter_append, List.filter_cons, SyncEvent.isCreate, comes, if_true,
      List.filter_nil, List.length_append, List.length_cons, List.length_nil]
    omega
  created := by
    intro inId row member
    rw [List.map_append]
    rcases List.mem_cons.mp member with same | member
    · injection same with same
      exact List.mem_append_right _ (List.mem_singleton.mpr same)
    · exact List.mem_append_left _ (settled.created inId row member)
  closed := by
    intro outId row member
    rcases List.mem_cons.mp member with same | member
    · cases same
    · exact Nat.lt_succ_of_lt (settled.closed outId row member)
  order := by
    intro inId outId row created closed
    rcases List.mem_cons.mp closed with same | closed
    · cases same
    rw [List.map_append]
    rcases List.mem_cons.mp created with same | created
    · injection same with _ same
      -- The new row was not closed before.
      exact absurd (settled.closed outId row closed) (same ▸ Nat.lt_irrefl _)
    · exact (settled.order inId outId row created closed).trans (List.sublist_append_left _ _)

/-- An out-punch whose row was closed. -/
theorem Settled.close (settled : Settled done odoo history) (goes : punch.isIn = false)
    {row : Attendance} (opened : getCurrentAttendance odoo = some row) :
    Settled (done ++ [punch]) (clockOut row.id punch.occurredAt odoo)
      (.closed punch.id row.id :: history) where
  holds := by
    obtain ⟨rows, current, holds, last⟩ := settled.holds
    rw [holds.getCurrentAttendance] at opened
    subst opened
    exact ⟨_, none, holds.clockOut _, by simp [goes]⟩
  creates := by
    simpa [SyncEvent.isCreate, goes] using settled.creates
  created := by
    intro inId id member
    rw [List.map_append]
    rcases List.mem_cons.mp member with same | member
    · cases same
    · exact List.mem_append_left _ (settled.created inId id member)
  closed := by
    intro outId id member
    rcases List.mem_cons.mp member with same | member
    · injection same with _ same
      obtain ⟨rows, current, holds, -⟩ := settled.holds
      rw [holds.getCurrentAttendance] at opened
      subst opened
      exact same ▸ holds.fresh row (holds.rows_eq ▸ List.mem_append_right _ (by simp))
    · exact settled.closed outId id member
  order := by
    intro inId outId id created closed
    rw [List.map_append]
    rcases List.mem_cons.mp created with same | created
    · cases same
    rcases List.mem_cons.mp closed with same | closed
    · injection same with same
      have before := List.singleton_sublist.mpr (settled.created inId id created)
      exact same ▸ before.append (List.Sublist.refl [punch.id])
    · exact (settled.order inId outId id created closed).trans (List.sublist_append_left _ _)

/-- Which row is open, by the last punch. -/
theorem Settled.current (settled : Settled done odoo history) :
    (getCurrentAttendance odoo).isSome ↔ ∃ last ∈ done.getLast?, last.isIn = true := by
  obtain ⟨rows, current, holds, last⟩ := settled.holds
  rwa [holds.getCurrentAttendance]

theorem Settled.ended (settled : Settled done odoo history)
    (none_ : getCurrentAttendance odoo = none) : ∀ row ∈ odoo.rows, row.shift.checkOut ≠ none := by
  obtain ⟨rows, current, holds, -⟩ := settled.holds
  rw [holds.getCurrentAttendance] at none_
  subst none_
  rw [holds.rows_eq, Option.toList_none, List.append_nil]
  exact holds.closed

/-- The only open row. -/
theorem Settled.opened_eq (settled : Settled done odoo history) {row : Attendance}
    (opened : getCurrentAttendance odoo = some row) :
    odoo.rows.filter (fun row => row.shift.checkOut = none) = [row] := by
  obtain ⟨rows, current, holds, -⟩ := settled.holds
  rw [holds.getCurrentAttendance] at opened
  subst opened
  have closed : rows.filter (fun row => row.shift.checkOut = none) = [] :=
    List.filter_eq_nil_iff.mpr fun other member => by simp [holds.closed other member]
  have still : row.shift.checkOut = none := holds.opened row rfl
  rw [holds.rows_eq, List.filter_append, closed]
  simp [still]

/-- What is left to do about a punch that had its effect. -/
theorem Settled.plan_again (settled : Settled (done ++ [punch]) odoo history) :
    Harmless punch odoo (plan punch odoo).calls := by
  have current := settled.current
  rw [List.getLast?_concat] at current
  cases comes : punch.isIn with
  | true =>
      obtain ⟨row, opened⟩ := Option.isSome_iff_exists.mp (current.mpr ⟨punch, rfl, comes⟩)
      refine .labels row opened fun call member => ?_
      simp only [plan, comes, opened, List.mem_append, List.mem_map] at member
      rcases member with ⟨wcName, -, rfl⟩ | ⟨departmentId, -, rfl⟩
      · exact .inl ⟨wcName, rfl⟩
      · exact .inr ⟨departmentId, rfl⟩
  | false =>
      have none_ : getCurrentAttendance odoo = none := by
        rw [← Option.not_isSome_iff_eq_none, current]
        simp [comes]
      have ended := settled.ended none_
      have no_open : odoo.rows.filter (fun row => row.shift.checkOut = none) = [] :=
        List.filter_eq_nil_iff.mpr fun row member => by simp [ended row member]
      refine .checks ended fun call member => ?_
      simp only [plan, comes, none_, no_open] at member
      split at member
      · rcases List.mem_cons.mp member with rfl | member
        · exact .inr ⟨[], rfl, nofun⟩
        · exact .inl (List.mem_singleton.mp member)
      · cases member

/-- What is left to do about a punch whose turn it is. -/
theorem Settled.plan_due (settled : Settled done odoo history)
    (turn : punch.isIn = true ↔ ¬ ∃ last ∈ done.getLast?, last.isIn = true) :
    Due punch odoo (plan punch odoo).calls := by
  cases comes : punch.isIn with
  | true =>
      have none_ : getCurrentAttendance odoo = none := by
        rw [← Option.not_isSome_iff_eq_none, settled.current]
        exact turn.mp comes
      refine .create comes ?_
      simp only [plan, comes, none_]
  | false =>
      have some_ : (getCurrentAttendance odoo).isSome := by
        rw [settled.current]
        by_contra before
        exact absurd (turn.mpr before) (by simp [comes])
      obtain ⟨row, opened⟩ := Option.isSome_iff_exists.mp some_
      refine .close comes row opened ?_
      simp only [plan, comes, opened, settled.opened_eq opened]
      split
      · exact .inr rfl
      · exact .inl rfl

/-- A call that is harmless succeeds. -/
theorem Harmless.perform {call : OdooCall} {calls : List OdooCall} (mapping : Mapping)
    (settled : Settled done odoo history) (harmless : Harmless punch odoo (call :: calls))
    (attendanceId : Option ℕ) : ∃ next marked,
      perform mapping punch odoo attendanceId call = some (next, marked, none) ∧
        Settled done next history ∧ Harmless punch next calls := by
  cases harmless with
  | labels row opened label =>
      obtain ⟨rows, current, holds, -⟩ := settled.holds
      obtain rfl : current = some row := holds.getCurrentAttendance.symm.trans opened
      have later {next : Odoo} {changed : Attendance}
          (written : ∀ {rows}, odoo.Holds rows (some row) → next.Holds rows (some changed))
          (nextId : next.nextId = odoo.nextId) (same : changed.id = row.id) :
          Settled done next history ∧ Harmless punch next calls :=
        ⟨settled.relabel opened nextId written,
          .labels changed (written holds).getCurrentAttendance
            (same ▸ fun other member => label other (List.mem_cons_of_mem _ member))⟩
      rcases label call List.mem_cons_self with ⟨wcName, rfl⟩ | ⟨departmentId, rfl⟩
      · exact ⟨_, _, rfl, later
          (fun holds => holds.write fun shift => shift.setWc_checkOut mapping wcName) rfl rfl⟩
      · exact ⟨_, _, rfl, later (fun holds => holds.write fun _ => rfl) rfl rfl⟩
  | checks ended check =>
      have later : Harmless punch odoo calls :=
        .checks ended fun other member => check other (List.mem_cons_of_mem _ member)
      rcases check call List.mem_cons_self with rfl | ⟨ids, rfl, closed⟩
      · refine ⟨odoo, attendanceId, ?_, settled, later⟩
        exact if_neg fun ⟨row, member, opened⟩ => ended row member opened
      · refine ⟨odoo, _, if_pos fun id member => ?_, settled, later⟩
        obtain ⟨row, present, rfl, closed⟩ := closed id member
        exact List.mem_map_of_mem (List.mem_filter.mpr ⟨present, by simpa using closed⟩)

/-- The first call has the effect of the punch. -/
theorem Due.perform {call : OdooCall} {calls : List OdooCall} (mapping : Mapping)
    (settled : Settled done odoo history) (due : Due punch odoo (call :: calls))
    (turn : punch.isIn = true ↔ ¬ ∃ last ∈ done.getLast?, last.isIn = true)
    (attendanceId : Option ℕ) : ∃ next marked event,
      perform mapping punch odoo attendanceId call = some (next, marked, some event) ∧
        Settled (done ++ [punch]) next (event :: history) ∧ Harmless punch next calls := by
  cases due with
  | create comes calls_eq =>
      obtain ⟨rfl, rfl⟩ := List.cons.inj calls_eq
      have created := settled.create mapping comes (turn.mp comes)
      have current := created.current
      rw [List.getLast?_concat] at current
      obtain ⟨row, opened⟩ := Option.isSome_iff_exists.mp (current.mpr ⟨punch, rfl, comes⟩)
      exact ⟨_, _, _, rfl, created, .labels row opened nofun⟩
  | close goes row opened calls_eq =>
      have closed := settled.close goes opened
      obtain ⟨rows, current, holds, -⟩ := settled.holds
      obtain rfl : current = some row := holds.getCurrentAttendance.symm.trans opened
      have out := holds.clockOut punch.occurredAt
      have ended := closed.ended out.getCurrentAttendance
      rcases calls_eq with calls_eq | calls_eq
      · obtain ⟨rfl, rfl⟩ := List.cons.inj calls_eq
        exact ⟨_, _, _, rfl, closed, .checks ended nofun⟩
      · obtain ⟨rfl, rfl⟩ := List.cons.inj calls_eq
        refine ⟨_, _, _, rfl, closed, .checks ended fun call member => ?_⟩
        rcases List.mem_cons.mp member with rfl | member
        · refine .inr ⟨_, rfl, fun id member => ?_⟩
          refine ⟨{ row with shift := row.shift.close punch.occurredAt }, ?_,
            (List.mem_singleton.mp member).symm, rfl⟩
          rw [out.rows_eq]
          simp
        · exact .inl (List.mem_singleton.mp member)

/-! ## Every step -/

/-- The punch that is being synced had its effect, or has it with the next call. -/
inductive Progress (done : List Punch) (punch : Punch) (odoo : Odoo) (history : List SyncEvent)
    (calls : List OdooCall) : Prop
  | acted (settled : Settled (done ++ [punch]) odoo history) (harmless : Harmless punch odoo calls)
  | due (settled : Settled done odoo history)
      (turn : punch.isIn = true ↔ ¬ ∃ last ∈ done.getLast?, last.isIn = true)
      (due : Due punch odoo calls)

/-- The synced punches come first. -/
structure Synced (front back : List Entry) : Prop where
  before : ∀ entry ∈ front, entry.synced = true
  later : ∀ entry ∈ back, entry.synced = false

/-- The synced punches had their effect, and at most one other punch is being synced. -/
inductive Phase (world : World) : Prop
  | idle (front back : List Entry) (log_eq : world.log = front ++ back) (synced : Synced front back)
      (resting : ∀ run state, world.runs run = some state → state.acting = none)
      (settled : Settled (front.map Entry.punch) world.odoo world.history)
  | busy (run : ℕ) (front : List Entry) (entry : Entry) (back : List Entry) (rest : List Punch)
      (left : Plan) (log_eq : world.log = front ++ entry :: back) (synced : Synced front back)
      (here : world.runs run = some ⟨entry.punch :: rest, some left⟩)
      (resting : ∀ other state, other ≠ run → world.runs other = some state → state.acting = none)
      (progress : Progress (front.map Entry.punch) entry.punch world.odoo world.history left.calls)

/-- The punch is before a call or a sweep. -/
def Queued (world : World) (punch : Punch) : Prop :=
  ∃ run state, world.runs run = some state ∧ punch ∈ state.queue

structure Sound (world : World) : Prop where
  turns : Alternating (world.log.map Entry.punch)
  ids : (world.log.map (·.punch.id)).Nodup
  logged : ∀ punch, Queued world punch → punch ∈ world.log.map Entry.punch
  known : ∀ id ∈ world.called, id ∈ world.log.map (·.punch.id)
  served : ∀ entry ∈ world.log, entry.punch.id ∈ world.called →
    entry.synced = true ∨ Queued world entry.punch
  phase : Phase world

variable {world : World} {run : ℕ} {state : Run} {mapping : Mapping}

variable {changed : Option Run}

theorem World.runs_setRun {other : ℕ} :
    (world.setRun run changed).runs other = some state ↔
      other = run ∧ changed = some state ∨ other ≠ run ∧ world.runs other = some state := by
  change Function.update world.runs run changed other = some state ↔ _
  rw [Function.update_apply]
  split <;> simp_all

/-- A run that is not acting changes nothing. -/
theorem Phase.setRun (phase : Phase world)
    (still : ∀ state, world.runs run = some state → state.acting = none)
    (rests : ∀ state ∈ changed, state.acting = none) : Phase (world.setRun run changed) := by
  cases phase with
  | idle front back log_eq synced resting settled =>
      refine .idle front back log_eq synced (fun other state held => ?_) settled
      rcases World.runs_setRun.mp held with ⟨-, begun⟩ | ⟨-, held⟩
      · exact rests state begun
      · exact resting other state held
  | busy acting front entry back rest left log_eq synced here resting progress =>
      have apart : acting ≠ run := by
        rintro rfl
        cases still _ here
      refine .busy acting front entry back rest left log_eq synced
        (World.runs_setRun.mpr (.inr ⟨apart, here⟩)) (fun other state ne held => ?_) progress
      rcases World.runs_setRun.mp held with ⟨-, begun⟩ | ⟨-, held⟩
      · exact rests state begun
      · exact resting other state ne held

theorem Queued.setRun {punch : Punch} (queued : Queued world punch)
    (kept : ∀ state, world.runs run = some state → punch ∈ state.queue →
      ∃ state ∈ changed, punch ∈ state.queue) : Queued (world.setRun run changed) punch := by
  obtain ⟨other, state, held, member⟩ := queued
  by_cases same : other = run
  · subst same
    obtain ⟨state, begun, member⟩ := kept state held member
    exact ⟨other, state, World.runs_setRun.mpr (.inl ⟨rfl, begun⟩), member⟩
  · exact ⟨other, state, World.runs_setRun.mpr (.inr ⟨same, held⟩), member⟩

theorem Queued.of_setRun {punch : Punch} (queued : Queued (world.setRun run changed) punch) :
    (∃ state ∈ changed, punch ∈ state.queue) ∨ Queued world punch := by
  obtain ⟨other, state, held, member⟩ := queued
  rcases World.runs_setRun.mp held with ⟨-, begun⟩ | ⟨-, held⟩
  · exact .inl ⟨state, begun, member⟩
  · exact .inr ⟨other, state, held, member⟩

/-- A run begins with logged punches, goes on with those it has, or ends with none left. -/
theorem Sound.setRun (sound : Sound world) {changed : Option Run} {odoo : Odoo}
    {history : List SyncEvent}
    (logged : ∀ state ∈ changed, ∀ punch ∈ state.queue, punch ∈ world.log.map Entry.punch)
    (kept : ∀ state, world.runs run = some state → ∀ punch ∈ state.queue,
      ∃ state ∈ changed, punch ∈ state.queue)
    (phase : Phase ({ world with odoo, history }.setRun run changed)) :
    Sound ({ world with odoo, history }.setRun run changed) where
  turns := sound.turns
  ids := sound.ids
  logged := by
    intro punch queued
    rcases Queued.of_setRun queued with ⟨state, begun, member⟩ | queued
    · exact logged state begun punch member
    · exact sound.logged punch queued
  known := sound.known
  served := by
    intro entry member called
    refine (sound.served entry member called).imp_right fun queued => ?_
    exact queued.setRun fun state held member => kept state held entry.punch member
  phase := phase

theorem Sound.insert (sound : Sound world) {punch : Punch}
    (fresh : punch.id ∉ world.log.map (·.punch.id))
    (turns : Alternating (world.log.map Entry.punch ++ [punch])) :
    Sound { world with log := world.log ++ [⟨punch, false, none⟩] } where
  turns := by
    rw [List.map_append]
    exact turns
  ids := by
    rw [List.map_append]
    refine List.nodup_append.mpr ⟨sound.ids, List.nodup_singleton _, ?_⟩
    rintro id present _ member rfl
    have same : id = punch.id := List.mem_singleton.mp member
    exact fresh (same ▸ present)
  logged := by
    intro other queued
    rw [List.map_append]
    exact List.mem_append_left _ (sound.logged other queued)
  known := by
    intro id called
    rw [List.map_append]
    exact List.mem_append_left _ (sound.known id called)
  served := by
    intro entry member called
    rcases List.mem_append.mp member with member | member
    · exact sound.served entry member called
    · rw [List.mem_singleton.mp member] at called
      exact absurd (sound.known _ called) fresh
  phase := by
    have later {back : List Entry} {front : List Entry} (synced : Synced front back) :
        Synced front (back ++ [⟨punch, false, none⟩]) := by
      refine ⟨synced.before, fun entry member => ?_⟩
      rcases List.mem_append.mp member with member | member
      · exact synced.later entry member
      · rw [List.mem_singleton.mp member]
    cases sound.phase with
    | idle front back log_eq synced resting settled =>
        exact .idle front _ (by rw [log_eq, List.append_assoc]) (later synced) resting settled
    | busy run front entry back rest left log_eq synced here resting progress =>
        exact .busy run front entry _ rest left
          (by rw [log_eq, List.append_assoc, List.cons_append]) (later synced) here resting progress

/-- Marking a punch changes no other entry. -/
theorem markSynced_append {front back : List Entry} {entry : Entry}
    (ids : ((front ++ entry :: back).map (·.punch.id)).Nodup) (attendanceId : Option ℕ) :
    markSynced entry.punch.id attendanceId (front ++ entry :: back) =
      front ++ ⟨entry.punch, true, attendanceId⟩ :: back := by
  rw [List.map_append, List.map_cons, List.nodup_append] at ids
  obtain ⟨-, nodup, apart⟩ := ids
  have others {others : List Entry} (ne : ∀ other ∈ others, other.punch.id ≠ entry.punch.id) :
      markSynced entry.punch.id attendanceId others = others :=
    (List.map_congr_left fun other member => if_neg (ne other member)).trans (List.map_id' others)
  have before := others fun other member =>
    apart _ (List.mem_map_of_mem member) _ List.mem_cons_self
  have later := others fun other member (same : other.punch.id = entry.punch.id) =>
    (List.nodup_cons.mp nodup).1 (same ▸ List.mem_map_of_mem member)
  rw [markSynced, List.map_append, List.map_cons, if_pos rfl]
  exact congrArg₂ _ before (congrArg₂ _ rfl later)

@[simp] theorem markSynced_punch (id : ℕ) (attendanceId : Option ℕ) (log : List Entry) :
    (markSynced id attendanceId log).map Entry.punch = log.map Entry.punch := by
  rw [markSynced, List.map_map]
  refine List.map_congr_left fun entry _ => ?_
  change (if _ then _ else _ : Entry).punch = _
  split <;> rfl

section

variable (sound : Sound world)
include sound

/-- The punch that is being synced is marked, and the run goes on. -/
theorem Sound.mark {punch : Punch} {rest : List Punch} {attendanceId : Option ℕ}
    (here : world.runs run = some ⟨punch :: rest, some ⟨[], attendanceId⟩⟩) :
    Sound ({ world with log := markSynced punch.id attendanceId world.log }.setRun run
      (some ⟨rest, none⟩)) := by
  have punches : (markSynced punch.id attendanceId world.log).map (·.punch.id) =
      world.log.map (·.punch.id) := by
    have same := congrArg (List.map Punch.id) (markSynced_punch punch.id attendanceId world.log)
    rwa [List.map_map, List.map_map] at same
  refine ⟨?_, ?_, ?_, ?_, ?_, ?_⟩
  · change Alternating ((markSynced _ _ _).map _)
    rw [markSynced_punch]
    exact sound.turns
  · exact punches ▸ sound.ids
  · intro other queued
    change other ∈ (markSynced _ _ _).map _
    rw [markSynced_punch]
    rcases Queued.of_setRun queued with ⟨_, ⟨⟩, member⟩ | queued
    · exact sound.logged other ⟨run, _, here, List.mem_cons_of_mem _ member⟩
    · exact sound.logged other queued
  · exact punches ▸ sound.known
  · intro entry member called
    obtain ⟨before, present, rfl⟩ := List.mem_map.mp member
    by_cases same : before.punch.id = punch.id
    · exact .inl (by simp [same])
    · rw [if_neg same] at called ⊢
      refine (sound.served before present called).imp_right fun queued => ?_
      refine queued.setRun fun state held member => ?_
      obtain rfl : _ = state := Option.some.inj (here.symm.trans held)
      rcases List.mem_cons.mp member with same' | member
      · exact absurd (congrArg Punch.id same') same
      · exact ⟨_, rfl, member⟩
  · cases sound.phase with
    | idle _ _ _ _ resting _ => cases resting run _ here
    | busy acting front entry back rest' left log_eq synced begun resting progress =>
        by_cases this : acting = run
        swap
        · cases resting run _ (Ne.symm this) here
        subst this
        obtain ⟨⟨rfl, rfl⟩, rfl⟩ :
            (entry.punch = punch ∧ rest' = rest) ∧ left = ⟨[], attendanceId⟩ := by
          simpa using begun.symm.trans here
        let marked : Entry := ⟨entry.punch, true, attendanceId⟩
        have settled : Settled ((front ++ [marked]).map Entry.punch) world.odoo world.history := by
          rw [List.map_append]
          cases progress with
          | acted settled _ => exact settled
          | due _ _ due => rcases due with ⟨-, calls⟩ | ⟨-, _, -, calls | calls⟩ <;> cases calls
        refine .idle (front ++ [marked]) back ?_ ⟨?_, synced.later⟩ ?_ settled
        · change markSynced _ _ world.log = _
          rw [log_eq, markSynced_append (log_eq ▸ sound.ids), List.append_assoc]
          rfl
        · intro entry member
          rcases List.mem_append.mp member with member | member
          · exact synced.before entry member
          · rw [List.mem_singleton.mp member]
        · intro other state held
          rcases World.runs_setRun.mp held with ⟨-, begun⟩ | ⟨ne, held⟩
          · exact Option.some.inj begun ▸ rfl
          · exact resting other state ne held

/-- A run looks which row is open, when its next punch has its turn. -/
theorem Sound.look {punch : Punch} {rest : List Punch}
    (here : world.runs run = some ⟨punch :: rest, none⟩) (inTurn : InTurn world (.advance run)) :
    Sound (world.setRun run (some ⟨punch :: rest, some (plan punch world.odoo)⟩)) := by
  obtain ⟨resting, front, entry, back, log_eq, rfl, before, later⟩ := inTurn punch rest here
  apply sound.setRun
  · rintro _ ⟨⟩ other member
    exact sound.logged other ⟨run, _, here, member⟩
  · intro state held other member
    obtain rfl : _ = state := Option.some.inj (here.symm.trans held)
    exact ⟨_, rfl, member⟩
  refine .busy run front entry back rest _ log_eq ⟨before, later⟩
    (World.runs_setRun.mpr (.inl ⟨rfl, rfl⟩)) (fun other state ne held => ?_) ?_
  · rcases World.runs_setRun.mp held with ⟨rfl, -⟩ | ⟨-, held⟩
    · exact absurd rfl ne
    · exact resting other state held
  cases sound.phase with
  | busy acting _ _ _ _ _ _ _ begun _ _ => cases resting acting _ begun
  | idle front' back' log_eq' synced _ settled =>
      have turns : Alternating (front.map Entry.punch ++ entry.punch :: back.map Entry.punch) := by
        have turns := sound.turns
        rwa [log_eq, List.map_append] at turns
      cases marked : entry.synced with
      | false =>
          -- The punch is the first that is not synced.
          have same : front' = front :=
            synced_unique (log_eq'.symm.trans log_eq) synced.before synced.later before
              (List.forall_mem_cons.mpr ⟨marked, later⟩)
          subst same
          have turn := alternating_turn turns
          exact .due settled turn (settled.plan_due turn)
      | true =>
          -- The punch is the last that is synced.
          have same : front' = front ++ [entry] := by
            have same : front' ++ back' = (front ++ [entry]) ++ back := by
              rw [← log_eq', log_eq, List.append_assoc, List.singleton_append]
            refine synced_unique same synced.before synced.later ?_ later
            · intro other member
              rcases List.mem_append.mp member with member | member
              · exact before other member
              · rwa [List.mem_singleton.mp member]
          subst same
          rw [List.map_append] at settled
          exact .acted settled settled.plan_again

/-- A run makes its next call. -/
theorem Sound.call {punch : Punch} {rest : List Punch} {call : OdooCall} {calls : List OdooCall}
    {attendanceId : Option ℕ}
    (here : world.runs run = some ⟨punch :: rest, some ⟨call :: calls, attendanceId⟩⟩) :
    Sound (world.advance mapping run ⟨punch :: rest, some ⟨call :: calls, attendanceId⟩⟩) := by
  cases sound.phase with
  | idle _ _ _ _ resting _ => cases resting run _ here
  | busy acting front entry back rest' left log_eq synced begun resting progress =>
      by_cases this : acting = run
      swap
      · cases resting run _ (Ne.symm this) here
      subst this
      obtain ⟨⟨rfl, rfl⟩, rfl⟩ :
          (entry.punch = punch ∧ rest' = rest) ∧ left = ⟨call :: calls, attendanceId⟩ := by
        simpa using begun.symm.trans here
      have acted : ∃ next marked event,
          perform mapping entry.punch world.odoo attendanceId call = some (next, marked, event) ∧
            Settled (front.map Entry.punch ++ [entry.punch]) next (event.toList ++ world.history) ∧
            Harmless entry.punch next calls := by
        cases progress with
        | acted settled harmless =>
            obtain ⟨next, marked, performed, after⟩ := harmless.perform mapping settled attendanceId
            exact ⟨next, marked, none, performed, after⟩
        | due settled turn due =>
            obtain ⟨next, marked, event, performed, after⟩ :=
              due.perform mapping settled turn attendanceId
            exact ⟨next, marked, some event, performed, after⟩
      obtain ⟨next, marked, event, performed, settled, harmless⟩ := acted
      simp only [World.advance, performed]
      apply sound.setRun
      · rintro _ ⟨⟩ other member
        exact sound.logged other ⟨acting, _, here, member⟩
      · intro state held other member
        obtain rfl : _ = state := Option.some.inj (here.symm.trans held)
        exact ⟨_, rfl, member⟩
      refine .busy acting front entry back _ _ log_eq synced
        (World.runs_setRun.mpr (.inl ⟨rfl, rfl⟩)) (fun other state ne held => ?_)
        (.acted settled harmless)
      rcases World.runs_setRun.mp held with ⟨rfl, -⟩ | ⟨-, held⟩
      · exact absurd rfl ne
      · exact resting other state ne held

theorem Sound.advance (held : world.runs run = some state) (inTurn : InTurn world (.advance run)) :
    Sound (world.advance mapping run state) := by
  match state, held with
  | ⟨[], acting⟩, held =>
      have still : ∀ state, world.runs run = some state → state.acting = none := by
        intro state held'
        cases sound.phase with
        | idle _ _ _ _ resting _ => exact resting run state held'
        | busy other _ _ _ _ _ _ _ begun resting _ =>
            by_cases this : run = other
            · subst this
              cases begun.symm.trans held
            · exact resting run state this held'
      refine sound.setRun nofun (fun state held' punch member => ?_)
        (sound.phase.setRun still nofun)
      obtain rfl : _ = state := Option.some.inj (held.symm.trans held')
      cases member
  | ⟨punch :: rest, none⟩, held => exact sound.look held inTurn
  | ⟨punch :: rest, some ⟨[], attendanceId⟩⟩, held => exact sound.mark held
  | ⟨punch :: rest, some ⟨call :: calls, attendanceId⟩⟩, held => exact sound.call held

/-- A call or a sweep begins. -/
theorem Sound.begin (free : world.runs run = none) {queue : List Punch}
    (logged : ∀ punch ∈ queue, punch ∈ world.log.map Entry.punch) :
    Sound (world.setRun run (some ⟨queue, none⟩)) := by
  refine sound.setRun ?_ ?_ (sound.phase.setRun ?_ ?_)
  · rintro _ ⟨⟩
    exact logged
  · intro state held
    cases free.symm.trans held
  · intro state held
    cases free.symm.trans held
  · rintro _ ⟨⟩
    rfl

/-- A call begins with its punch. -/
theorem Sound.begin_call {entry : Entry} (present : entry ∈ world.log)
    (free : world.runs run = none) :
    Sound ({ world with called := entry.punch.id :: world.called }.setRun run
      (some ⟨[entry.punch], none⟩)) := by
  have begun : Sound (world.setRun run (some ⟨[entry.punch], none⟩)) :=
    sound.begin free fun punch member =>
      List.mem_singleton.mp member ▸ List.mem_map_of_mem present
  refine ⟨begun.turns, begun.ids, begun.logged, ?_, ?_, ?_⟩
  · intro id member
    rcases List.mem_cons.mp member with rfl | member
    · exact List.mem_map_of_mem present
    · exact sound.known id member
  · intro other member called
    rcases List.mem_cons.mp called with same | called
    · obtain rfl : other = entry :=
        List.inj_on_of_nodup_map sound.ids member present same
      exact .inr ⟨run, _, World.runs_setRun.mpr (.inl ⟨rfl, rfl⟩), List.mem_cons_self⟩
    · exact begun.served other member called
  · cases begun.phase with
    | idle front back log_eq synced resting settled =>
        exact .idle front back log_eq synced resting settled
    | busy acting front entry back rest left log_eq synced here resting progress =>
        exact .busy acting front entry back rest left log_eq synced here resting progress

end

theorem mem_log_of_mem_batch {log : List Entry} {punch : Punch} (member : punch ∈ batch log) :
    punch ∈ log.map Entry.punch := by
  have sorted := List.mem_of_mem_take member
  obtain ⟨entry, present, rfl⟩ := List.mem_map.mp ((List.mem_insertionSort _).mp sorted)
  exact List.mem_map_of_mem (List.mem_filter.mp present).1

theorem Sound.step {action : SyncAction} {next : World} (sound : Sound world)
    (inTurn : InTurn world action) (taken : PunchSync.step mapping world action = some next) :
    Sound next := by
  cases action with
  | insert punch =>
      obtain ⟨_, taken⟩ := Option.ite_none_right_eq_some.mp taken
      obtain ⟨fresh, turns⟩ := ‹_ ∧ _›
      exact Option.some.inj taken ▸ sound.insert fresh turns
  | call run punchId =>
      simp only [PunchSync.step] at taken
      split at taken
      · cases taken
      · rename_i entry found
        obtain ⟨_, taken⟩ := Option.ite_none_right_eq_some.mp taken
        obtain ⟨free, -⟩ := ‹_ ∧ _›
        obtain rfl : entry.punch.id = punchId := by
          simpa using List.find?_some found
        exact Option.some.inj taken ▸ sound.begin_call (List.mem_of_find?_eq_some found) free
  | sweep run =>
      obtain ⟨_, taken⟩ := Option.ite_none_right_eq_some.mp taken
      exact Option.some.inj taken ▸ sound.begin ‹_› fun punch => mem_log_of_mem_batch
  | advance run =>
      obtain ⟨state, held, rfl⟩ := Option.map_eq_some_iff.mp taken
      exact sound.advance held inTurn

/-- A row is open if the last punch is an in-punch. -/
theorem Settled.open_iff (settled : Settled done odoo history) :
    (∃ row ∈ odoo.rows, row.shift.checkOut = none) ↔ ∃ last ∈ done.getLast?, last.isIn = true := by
  rw [← settled.current]
  constructor
  · rintro ⟨row, member, opened⟩
    by_contra none_
    exact settled.ended (Option.not_isSome_iff_eq_none.mp none_) row member opened
  · intro some_
    obtain ⟨row, opened⟩ := Option.isSome_iff_exists.mp some_
    have only : row ∈ odoo.rows.filter fun row => row.shift.checkOut = none := by
      rw [settled.opened_eq opened]
      exact List.mem_singleton_self row
    obtain ⟨member, still⟩ := List.mem_filter.mp only
    exact ⟨row, member, of_decide_eq_true still⟩

theorem Sound.initial (holds : ∃ rows, odoo.Holds rows none) : Sound (World.initial odoo) where
  turns := trivial
  ids := List.nodup_nil
  logged := by
    rintro punch ⟨run, state, held, -⟩
    cases held
  known := nofun
  served := nofun
  phase := .idle [] [] rfl ⟨nofun, nofun⟩ nofun (Settled.start holds)

/-- The punches of the log that had their effect so far are its first ones. -/
theorem Settled.oncePerPunch {later : List Punch} {log : List Entry}
    (settled : Settled done odoo history) (log_eq : log.map Entry.punch = done ++ later) :
    (history.filter SyncEvent.isCreate).length ≤ ((log.map Entry.punch).filter Punch.isIn).length ∧
      ∀ inId outId row, .created inId row ∈ history → .closed outId row ∈ history →
        [inId, outId].Sublist (log.map (·.punch.id)) := by
  constructor
  · rw [log_eq, List.filter_append, List.length_append]
    exact settled.creates.trans (Nat.le_add_right _ _)
  · intro inId outId row created closed
    have ids : log.map (·.punch.id) = done.map Punch.id ++ later.map Punch.id := by
      rw [← List.map_append, ← log_eq, List.map_map]
      rfl
    rw [ids]
    exact (settled.order inId outId row created closed).trans (List.sublist_append_left _ _)

theorem Sound.oncePerPunch (sound : Sound world) : OncePerPunch world := by
  have so_far : ∃ done later, world.log.map Entry.punch = done ++ later ∧
      Settled done world.odoo world.history := by
    cases sound.phase with
    | idle front back log_eq _ _ settled => exact ⟨_, _, log_eq ▸ List.map_append, settled⟩
    | busy _ front entry back _ _ log_eq _ _ _ progress =>
        rw [log_eq, List.map_append, List.map_cons]
        cases progress with
        | acted settled _ =>
            exact ⟨_, _, (List.append_cons ..), settled⟩
        | due settled _ _ => exact ⟨_, _, rfl, settled⟩
  obtain ⟨done, later, log_eq, settled⟩ := so_far
  obtain ⟨creates, order⟩ := settled.oncePerPunch log_eq
  refine ⟨creates, order, fun ended called => ?_⟩
  cases sound.phase with
  | busy run _ _ _ _ _ _ _ here _ _ => cases (ended run).symm.trans here
  | idle front back log_eq synced _ settled =>
      have none_later : back = [] := by
        refine List.eq_nil_iff_forall_not_mem.mpr fun entry member => ?_
        have present : entry ∈ world.log := log_eq ▸ List.mem_append_right _ member
        rcases sound.served entry present (called entry present) with marked | queued
        · simp [synced.later entry member] at marked
        · obtain ⟨run, state, held, -⟩ := queued
          cases (ended run).symm.trans held
      subst none_later
      rw [log_eq, List.append_nil]
      exact settled.open_iff

/-- Punches that are taken up in their turn have their effect once. -/
theorem once_in_turn (mapping : Mapping) {odoo : Odoo} (holds : ∃ rows, odoo.Holds rows none)
    {world : World}
    (reachable : Reachable (World.initial odoo) (step mapping) InTurn world) :
    OncePerPunch world := by
  have sound : Sound world :=
    reachable.invariant (Sound.initial holds) fun _ _ _ sound => sound.step
  exact sound.oncePerPunch

private def nowhere : Mapping := ⟨fun _ => none, fun _ => none⟩

private def comes : Punch := ⟨1, .clockIn, none, none, false, 100⟩

private def goes : Punch := ⟨2, .clockOut, none, none, false, 200⟩

private theorem nothing_held : ∃ rows, (⟨[], 0⟩ : Odoo).Holds rows none :=
  ⟨[], rfl, nofun, nofun, nofun, List.nodup_nil⟩

/-- A person who clocks in and is synced. -/
theorem once_in_turn_clocked_in : ∃ world : World,
    world.log.map (·.synced) = [true] ∧ world.odoo.rows.map (·.shift.checkIn) = [100] ∧
      OncePerPunch world := by
  have permitted : Permitted (step nowhere) InTurn (World.initial ⟨[], 0⟩)
      [.insert comes, .call 0 1, .advance 0, .advance 0, .advance 0] := by
    refine ⟨trivial, ?_⟩
    rintro _ ⟨⟩
    refine ⟨trivial, ?_⟩
    rintro _ ⟨⟩
    refine ⟨?_, ?_⟩
    · rintro punch rest ⟨⟩
      refine ⟨?_, [], _, [], rfl, rfl, nofun, nofun⟩
      intro other state held
      rcases World.runs_setRun.mp held with ⟨-, ⟨⟩⟩ | ⟨-, ⟨⟩⟩
      rfl
    rintro _ ⟨⟩
    refine ⟨nofun, ?_⟩
    rintro _ ⟨⟩
    refine ⟨nofun, ?_⟩
    rintro _ ⟨⟩
    trivial
  have ran : (Transition.run (step nowhere) (World.initial ⟨[], 0⟩)
      [.insert comes, .call 0 1, .advance 0, .advance 0, .advance 0]).map (fun world =>
        (world.log.map (·.synced), world.odoo.rows.map (·.shift.checkIn))) =
          some ([true], [100]) := by
    decide
  obtain ⟨last, ran, same⟩ := Option.map_eq_some_iff.mp ran
  obtain ⟨synced, rows⟩ := Prod.mk.inj same
  exact ⟨last, synced, rows, once_in_turn nowhere nothing_held
    (Reachable.initial.run_permitted permitted ran)⟩

/-- A sweep that holds a punch after its call, and creates its row again. -/
theorem twice_created : ¬ ∀ (mapping : Mapping) (odoo : Odoo), (∃ rows, odoo.Holds rows none) →
    ∀ world, Reachable (World.initial odoo) (step mapping) (fun _ _ => True) world →
      OncePerPunch world := by
  intro once
  have ran : (Transition.run (step nowhere) (World.initial ⟨[], 0⟩)
      [.insert comes, .sweep 1, .call 0 1, .advance 0, .advance 0, .advance 0,
        .insert goes, .call 2 2, .advance 2, .advance 2, .advance 2,
        .advance 1, .advance 1]).map (fun world =>
          ((world.history.filter SyncEvent.isCreate).length,
            ((world.log.map Entry.punch).filter Punch.isIn).length)) = some (2, 1) := by
    decide
  obtain ⟨last, ran, counts⟩ := Option.map_eq_some_iff.mp ran
  have reachable : Reachable (World.initial ⟨[], 0⟩) (step nowhere) (fun _ _ => True) last :=
    Reachable.initial.run (fun _ _ _ => trivial) ran
  have creates := (once nowhere _ nothing_held last reachable).creates
  rw [(Prod.mk.inj counts).1, (Prod.mk.inj counts).2] at creates
  omega

end PlantManager.Timeclock.PunchSync

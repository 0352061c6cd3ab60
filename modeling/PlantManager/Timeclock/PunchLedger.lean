import PlantManager.Timeclock.PunchSync

/-! # The rows that syncing leaves in Odoo

At most one row is open, and it is the last one that was created, so a ledger of the closed shifts
and the current one tells what syncing does (`Timeclock.PunchSync.Odoo.Reads.retryOne`). Immediate calls and then the retries
sync the punches whose call succeeded, and then the others, each in the order of the log
(`Timeclock.PunchSync.drained_odoo`).
-/

namespace PlantManager.Timeclock.PunchSync

structure Ledger where
  done : List Shift
  current : Option Shift

def Ledger.shifts (ledger : Ledger) : List Shift := ledger.done ++ ledger.current.toList

/-- What a punch writes on a row that is open already. -/
def Punch.adopt (mapping : Mapping) (punch : Punch) (shift : Shift) : Shift :=
  let labelled := match punch.wcName with
    | some wcName => shift.setWc mapping wcName
    | none => shift
  match punch.odooDepartmentId with
  | some departmentId => { labelled with departmentId := some departmentId }
  | none => labelled

def Punch.opens (mapping : Mapping) (punch : Punch) : Shift :=
  attendanceCreatePayload mapping punch.wcName punch.occurredAt punch.odooDepartmentId

def Ledger.sync (mapping : Mapping) (ledger : Ledger) (punch : Punch) : Ledger :=
  match punch.isIn, ledger.current with
  | true, none => { ledger with current := some (punch.opens mapping) }
  | true, some shift => { ledger with current := some (punch.adopt mapping shift) }
  | false, none => ledger
  | false, some shift => ⟨ledger.done ++ [shift.close punch.occurredAt], none⟩

/-- The closed rows and then the open one, if there is one. -/
structure Odoo.Holds (odoo : Odoo) (rows : List Attendance) (current : Option Attendance) :
    Prop where
  rows_eq : odoo.rows = rows ++ current.toList
  closed : ∀ row ∈ rows, row.shift.checkOut ≠ none
  opened : ∀ row ∈ current, row.shift.checkOut = none
  fresh : ∀ row ∈ odoo.rows, row.id < odoo.nextId
  nodup : (odoo.rows.map Attendance.id).Nodup

/-- The rows are the shifts of the ledger, in order. -/
def Odoo.Reads (odoo : Odoo) (ledger : Ledger) : Prop :=
  ∃ rows current, odoo.Holds rows current ∧
    ledger = ⟨rows.map Attendance.shift, current.map Attendance.shift⟩

variable (mapping : Mapping)

@[simp] theorem Shift.setWc_checkOut (wcName : String) (shift : Shift) :
    (shift.setWc mapping wcName).checkOut = shift.checkOut := by
  unfold Shift.setWc
  split <;> rfl

@[simp] theorem Punch.adopt_checkOut (punch : Punch) (shift : Shift) :
    (punch.adopt mapping shift).checkOut = shift.checkOut := by
  unfold Punch.adopt
  split <;> split <;> simp

@[simp] theorem Shift.setWc_checkIn (wcName : String) (shift : Shift) :
    (shift.setWc mapping wcName).checkIn = shift.checkIn := by
  unfold Shift.setWc
  split <;> rfl

@[simp] theorem Punch.adopt_checkIn (punch : Punch) (shift : Shift) :
    (punch.adopt mapping shift).checkIn = shift.checkIn := by
  unfold Punch.adopt
  split <;> split <;> simp

theorem Odoo.Reads.shifts {odoo : Odoo} {ledger : Ledger} (reads : odoo.Reads ledger) :
    odoo.rows.map Attendance.shift = ledger.shifts := by
  obtain ⟨rows, current, holds, rfl⟩ := reads
  rw [holds.rows_eq, List.map_append, Ledger.shifts]
  cases current <;> rfl

namespace Odoo.Holds

variable {odoo : Odoo} {rows : List Attendance} {current : Option Attendance}
  {row : Attendance}

theorem getCurrentAttendance (holds : odoo.Holds rows current) :
    getCurrentAttendance odoo = current := by
  have none_open : rows.filter (fun row => row.shift.checkOut = none) = [] :=
    List.filter_eq_nil_iff.mpr fun row member => by simp [holds.closed row member]
  rw [PunchSync.getCurrentAttendance, holds.rows_eq, List.filter_append, none_open,
    List.nil_append]
  cases current with
  | none => rfl
  | some row =>
      have opened : row.shift.checkOut = none := holds.opened row rfl
      simp [opened]

/-- The other rows have other identifiers. -/
theorem id_ne (holds : odoo.Holds rows (some row)) {other : Attendance} (member : other ∈ rows) :
    other.id ≠ row.id := by
  have nodup := holds.nodup
  rw [holds.rows_eq, Option.toList_some, List.map_append, List.nodup_append] at nodup
  exact nodup.2.2 _ (List.mem_map_of_mem member) _ (List.mem_singleton.mpr rfl)

theorem write_rows (holds : odoo.Holds rows (some row)) (change : Shift → Shift) :
    (odoo.write row.id change).rows = rows ++ [{ row with shift := change row.shift }] := by
  have others : rows.map (fun other => if other.id = row.id then
      { other with shift := change other.shift } else other) = rows :=
    (List.map_congr_left fun other member => if_neg (holds.id_ne member)).trans (List.map_id' rows)
  rw [Odoo.write, holds.rows_eq, Option.toList_some, List.map_append, others]
  simp

/-- A write keeps the identifiers of the rows. -/
theorem write_ids (odoo : Odoo) (id : ℕ) (change : Shift → Shift) :
    (odoo.write id change).rows.map Attendance.id = odoo.rows.map Attendance.id := by
  rw [Odoo.write, List.map_map]
  refine List.map_congr_left fun row _ => ?_
  change (if _ then _ else _ : Attendance).id = _
  split <;> rfl

theorem fresh_of_ids {next : Odoo} (holds : odoo.Holds rows current)
    (ids : next.rows.map Attendance.id = odoo.rows.map Attendance.id)
    (nextId : next.nextId = odoo.nextId) : ∀ row ∈ next.rows, row.id < next.nextId := by
  intro row member
  obtain ⟨before, present, same⟩ := List.mem_map.mp (ids ▸ List.mem_map_of_mem member)
  rw [← same, nextId]
  exact holds.fresh before present

/-- The open row is relabelled. -/
theorem write (holds : odoo.Holds rows (some row)) {change : Shift → Shift}
    (open_ : ∀ shift, (change shift).checkOut = shift.checkOut) :
    (odoo.write row.id change).Holds rows (some { row with shift := change row.shift }) where
  rows_eq := holds.write_rows change
  closed := holds.closed
  opened := by
    rintro _ ⟨⟩
    exact (open_ row.shift).trans (holds.opened row rfl)
  fresh := holds.fresh_of_ids (write_ids ..) rfl
  nodup := by
    rw [write_ids]
    exact holds.nodup

theorem clockOut (holds : odoo.Holds rows (some row)) (checkOut : ℤ) :
    (clockOut row.id checkOut odoo).Holds
      (rows ++ [{ row with shift := row.shift.close checkOut }]) none where
  rows_eq := (holds.write_rows _).trans (List.append_nil _).symm
  closed := by
    intro other member
    rcases List.mem_append.mp member with member | member
    · exact holds.closed other member
    · rw [List.mem_singleton.mp member]
      exact Option.some_ne_none _
  opened := nofun
  fresh := holds.fresh_of_ids (write_ids ..) rfl
  nodup := by
    change ((odoo.write row.id _).rows.map Attendance.id).Nodup
    rw [write_ids]
    exact holds.nodup

theorem clockIn (holds : odoo.Holds rows none) (mapping : Mapping) (wcName : Option String)
    (checkIn : ℤ) (odooDepartmentId : Option ℕ) :
    (clockIn mapping wcName checkIn odooDepartmentId odoo).2.Holds rows
      (some ⟨odoo.nextId, attendanceCreatePayload mapping wcName checkIn odooDepartmentId⟩) where
  rows_eq := by
    rw [PunchSync.clockIn, holds.rows_eq]
    simp
  closed := holds.closed
  opened := by
    rintro _ ⟨⟩
    rfl
  fresh := by
    intro other member
    rcases List.mem_append.mp member with member | member
    · exact Nat.lt_succ_of_lt (holds.fresh other member)
    · rw [List.mem_singleton.mp member]
      exact Nat.lt_succ_self _
  nodup := by
    rw [PunchSync.clockIn, List.map_append, List.nodup_append]
    refine ⟨holds.nodup, List.nodup_singleton _, ?_⟩
    intro id present _ member same
    obtain ⟨other, member', rfl⟩ := List.mem_map.mp present
    rw [List.mem_singleton.mp member] at same
    exact absurd same (Nat.ne_of_lt (holds.fresh other member'))

/-- Closing every open row closes the current one. -/
theorem closeAll_rows (holds : odoo.Holds rows current) (checkOut : ℤ) :
    (closeAllOpenAttendanceRows checkOut odoo).2.rows =
      rows ++ (current.map fun row => { row with shift := row.shift.close checkOut }).toList := by
  have closed : rows.map (fun row => if row.shift.checkOut = none then
      { row with shift := row.shift.close checkOut } else row) = rows :=
    (List.map_congr_left fun row member => if_neg (holds.closed row member)).trans
      (List.map_id' rows)
  rw [closeAllOpenAttendanceRows, holds.rows_eq, List.map_append, closed]
  cases current with
  | none => rfl
  | some row =>
      have opened : row.shift.checkOut = none := holds.opened row rfl
      simp [opened]

theorem closeAll (holds : odoo.Holds rows current) (checkOut : ℤ) :
    (closeAllOpenAttendanceRows checkOut odoo).2.Holds
      (rows ++ (current.map fun row => { row with shift := row.shift.close checkOut }).toList)
      none := by
  have ids : (closeAllOpenAttendanceRows checkOut odoo).2.rows.map Attendance.id =
      odoo.rows.map Attendance.id := by
    rw [holds.closeAll_rows, holds.rows_eq]
    cases current <;> simp
  exact {
    rows_eq := (holds.closeAll_rows checkOut).trans (List.append_nil _).symm
    closed := by
      intro row member
      rcases List.mem_append.mp member with member | member
      · exact holds.closed row member
      · cases current with
        | none => cases member
        | some held =>
            rw [List.mem_singleton.mp member]
            exact Option.some_ne_none _
    opened := nofun
    fresh := holds.fresh_of_ids ids rfl
    nodup := ids ▸ holds.nodup }

theorem adoptRow (holds : odoo.Holds rows (some row)) (mapping : Mapping) (punch : Punch) :
    (adoptRow mapping punch row.id odoo).Holds rows
      (some { row with shift := punch.adopt mapping row.shift }) := by
  have labelled : (match punch.wcName with
      | some wcName => setAttendanceWc mapping row.id wcName odoo
      | none => odoo : Odoo).Holds rows (some { row with shift := match punch.wcName with
        | some wcName => row.shift.setWc mapping wcName
        | none => row.shift }) := by
    cases punch.wcName with
    | none => exact holds
    | some name => exact holds.write fun shift => shift.setWc_checkOut mapping name
  unfold PunchSync.adoptRow Punch.adopt
  cases punch.odooDepartmentId with
  | none => exact labelled
  | some departmentId => exact labelled.write fun _ => rfl

end Odoo.Holds

namespace Odoo.Reads

variable {odoo : Odoo} {ledger : Ledger}

/-- A ledger that ends with the shift that was closed. -/
theorem close {rows : List Attendance} {row : Attendance} {next : Odoo} {checkOut : ℤ}
    (holds : next.Holds (rows ++ [{ row with shift := row.shift.close checkOut }]) none) :
    next.Reads ⟨rows.map Attendance.shift ++ [row.shift.close checkOut], none⟩ :=
  ⟨_, none, holds, by simp⟩

/-- Syncing a punch does to the rows what it does to the ledger. -/
theorem retryOne (reads : odoo.Reads ledger) (mapping : Mapping) (punch : Punch) :
    (retryOne mapping punch odoo).2.Reads (ledger.sync mapping punch) := by
  obtain ⟨rows, current, holds, rfl⟩ := reads
  have here := holds.getCurrentAttendance
  unfold PunchSync.retryOne
  rw [Ledger.sync, here]
  cases current with
  | none =>
      cases action : punch.action with
      | clockIn | transferIn =>
          rw [(by simp [Punch.isIn, action] : punch.isIn = true)]
          exact ⟨rows, _, holds.clockIn _ _ _ _, rfl⟩
      | transferOut =>
          rw [(by simp [Punch.isIn, action] : punch.isIn = false)]
          exact ⟨rows, none, holds, rfl⟩
      | clockOut =>
          rw [(by simp [Punch.isIn, action] : punch.isIn = false)]
          simp only
          split
          · exact ⟨_, none, holds.closeAll punch.occurredAt, by simp⟩
          · exact ⟨rows, none, holds, rfl⟩
  | some row =>
      cases action : punch.action with
      | clockIn | transferIn =>
          rw [(by simp [Punch.isIn, action] : punch.isIn = true)]
          exact ⟨rows, _, holds.adoptRow mapping punch, rfl⟩
      | transferOut =>
          rw [(by simp [Punch.isIn, action] : punch.isIn = false)]
          exact close (holds.clockOut punch.occurredAt)
      | clockOut =>
          rw [(by simp [Punch.isIn, action] : punch.isIn = false)]
          simp only
          split
          · exact close (holds.closeAll punch.occurredAt)
          · exact close (holds.clockOut punch.occurredAt)

/-- Syncing punches one after the other. -/
theorem syncInOrder (reads : odoo.Reads ledger) (mapping : Mapping) (log : List Punch) :
    (syncInOrder mapping log odoo).Reads (log.foldl (Ledger.sync mapping) ledger) := by
  induction log generalizing odoo ledger with
  | nil => exact reads
  | cons punch rest ih => exact ih (reads.retryOne mapping punch)

end Odoo.Reads

/-! ## The queue -/

/-- The punch of an entry, and whether it is synced. -/
def Entry.flag (entry : Entry) : Punch × Bool := (entry.punch, entry.synced)

theorem syncInOrder_append (first second : List Punch) (odoo : Odoo) :
    syncInOrder mapping (first ++ second) odoo =
      syncInOrder mapping second (syncInOrder mapping first odoo) := List.foldl_append ..

theorem unsynced_eq (log : List Entry) :
    unsynced log = ((log.map Entry.flag).filter fun flag => !flag.2).map Prod.fst := by
  induction log with
  | nil => rfl
  | cons entry rest ih =>
      cases synced : entry.synced <;> simp_all [unsynced, Entry.flag]

theorem markSynced_flag (id : ℕ) (odooAttendanceId : Option ℕ) (log : List Entry) :
    (markSynced id odooAttendanceId log).map Entry.flag =
      (log.map Entry.flag).map fun flag => if flag.1.id = id then (flag.1, true) else flag := by
  rw [markSynced, List.map_map, List.map_map]
  refine List.map_congr_left fun entry _ => ?_
  by_cases same : entry.punch.id = id <;> simp [Entry.flag, same]

theorem mark_other {flags : List (Punch × Bool)} {id : ℕ} (other : ∀ flag ∈ flags, flag.1.id ≠ id) :
    flags.map (fun flag => if flag.1.id = id then (flag.1, true) else flag) = flags :=
  (List.map_congr_left fun flag member => if_neg (other flag member)).trans (List.map_id' flags)

/-- The immediate call of a punch that was just logged. -/
theorem syncOneById_insert (punch : Punch) (ok : Bool) (state : State)
    (fresh : ∀ flag ∈ state.log.map Entry.flag, flag.1.id ≠ punch.id) :
    (syncOneById mapping punch.id ok (state.insert punch)).log.map Entry.flag =
        state.log.map Entry.flag ++ [(punch, ok)] ∧
      (syncOneById mapping punch.id ok (state.insert punch)).odoo =
        if ok then (retryOne mapping punch state.odoo).2 else state.odoo := by
  have found : (state.insert punch).log.find? (fun entry => entry.punch.id = punch.id) =
      some ⟨punch, false, none⟩ := by
    have earlier : state.log.find? (fun entry => entry.punch.id = punch.id) = none :=
      List.find?_eq_none.mpr fun entry member => by
        have different : entry.punch.id ≠ punch.id := fresh _ (List.mem_map_of_mem member)
        simpa using different
    rw [State.insert, List.find?_append, earlier]
    simp
  unfold syncOneById
  rw [found]
  cases ok with
  | false => exact ⟨by simp [State.insert, Entry.flag], rfl⟩
  | true =>
      refine ⟨?_, rfl⟩
      change (markSynced _ _ _).map Entry.flag = _
      rw [markSynced_flag, State.insert, List.map_append, List.map_append, mark_other fresh]
      simp [Entry.flag]

/-- The immediate calls sync the punches that they succeed for. -/
theorem punchAll_eq (punches : List (Punch × Bool)) (state : State)
    (fresh : (((state.log.map Entry.flag) ++ punches).map fun flag => flag.1.id).Nodup) :
    (punchAll mapping punches state).log.map Entry.flag = state.log.map Entry.flag ++ punches ∧
      (punchAll mapping punches state).odoo =
        syncInOrder mapping ((punches.filter Prod.snd).map Prod.fst) state.odoo := by
  induction punches generalizing state with
  | nil => exact ⟨(List.append_nil _).symm, rfl⟩
  | cons first rest ih =>
      obtain ⟨punch, ok⟩ := first
      have others : ∀ flag ∈ state.log.map Entry.flag, flag.1.id ≠ punch.id := by
        intro flag member same
        rw [List.map_append, List.nodup_append] at fresh
        exact fresh.2.2 _ (List.mem_map_of_mem member) _ List.mem_cons_self same
      obtain ⟨flags, odoo⟩ := syncOneById_insert mapping punch ok state others
      obtain ⟨logged, synced⟩ := ih (syncOneById mapping punch.id ok (state.insert punch)) (by
        rw [flags, List.append_assoc]
        exact fresh)
      rw [punchAll, logged, synced, flags, odoo, List.append_assoc]
      cases ok <;> exact ⟨rfl, rfl⟩

/-- The retries of some punches mark them and sync them in order. -/
theorem foldl_retryOne (punches : List Punch) (state : State) :
    (punches.foldl (State.retryOne mapping) state).odoo =
        syncInOrder mapping punches state.odoo ∧
      unsynced (punches.foldl (State.retryOne mapping) state).log =
        (unsynced state.log).filter fun punch => punch.id ∉ punches.map Punch.id := by
  induction punches generalizing state with
  | nil => exact ⟨rfl, by simp⟩
  | cons punch rest ih =>
      obtain ⟨odoo, left⟩ := ih (state.retryOne mapping punch)
      refine ⟨odoo, ?_⟩
      rw [List.foldl_cons, left]
      have marked : unsynced (state.retryOne mapping punch).log =
          (unsynced state.log).filter fun other => other.id ≠ punch.id := by
        change unsynced (markSynced _ _ _) = _
        rw [unsynced_eq, markSynced_flag, unsynced_eq]
        generalize state.log.map Entry.flag = flags
        induction flags with
        | nil => rfl
        | cons flag flags ih =>
            obtain ⟨other, synced⟩ := flag
            by_cases same : other.id = punch.id <;> cases synced <;> simp_all
      rw [marked, List.filter_filter]
      refine List.filter_congr fun other _ => ?_
      simp only [List.map_cons, List.mem_cons, not_or, Bool.decide_and, Bool.and_comm, ne_eq]

/-- What is left of a list when its first part is taken away. -/
theorem filter_notMem_take {punches : List Punch} (nodup : (punches.map Punch.id).Nodup)
    (count : ℕ) :
    (punches.filter fun punch => punch.id ∉ (punches.take count).map Punch.id) =
      punches.drop count := by
  conv_lhs => rw [← List.take_append_drop count punches, List.filter_append]
  rw [← List.take_append_drop count punches, List.map_append, List.nodup_append] at nodup
  have taken : (punches.take count).filter
      (fun punch => punch.id ∉ (punches.take count).map Punch.id) = [] :=
    List.filter_eq_nil_iff.mpr fun punch member kept =>
      of_decide_eq_true kept (List.mem_map_of_mem member)
  have left : (punches.drop count).filter
      (fun punch => punch.id ∉ (punches.take count).map Punch.id) = punches.drop count :=
    List.filter_eq_self.mpr fun punch member => decide_eq_true fun present =>
      nodup.2.2 _ present _ (List.mem_map_of_mem member) rfl
  rw [List.take_append_drop, taken, left, List.nil_append]

/-- One retry syncs a batch of the punches that are left. -/
theorem retryUnsyncedPunches_eq {state : State}
    (sorted : (unsynced state.log).Pairwise Punch.Before)
    (nodup : ((unsynced state.log).map Punch.id).Nodup) :
    (retryUnsyncedPunches mapping state).odoo =
        syncInOrder mapping ((unsynced state.log).take batchSize) state.odoo ∧
      unsynced (retryUnsyncedPunches mapping state).log =
        (unsynced state.log).drop batchSize := by
  unfold retryUnsyncedPunches
  rw [sorted.insertionSort_eq]
  obtain ⟨odoo, left⟩ := foldl_retryOne mapping ((unsynced state.log).take batchSize) state
  exact ⟨odoo, left.trans (filter_notMem_take nodup batchSize)⟩

theorem drain_eq (retries : ℕ) {state : State} (sorted : (unsynced state.log).Pairwise Punch.Before)
    (nodup : ((unsynced state.log).map Punch.id).Nodup) :
    (drain mapping retries state).odoo =
        syncInOrder mapping ((unsynced state.log).take (batchSize * retries)) state.odoo ∧
      unsynced (drain mapping retries state).log =
        (unsynced state.log).drop (batchSize * retries) := by
  induction retries generalizing state with
  | zero => exact ⟨rfl, rfl⟩
  | succ retries ih =>
      obtain ⟨odoo, left⟩ := retryUnsyncedPunches_eq mapping sorted nodup
      have later := ih (left ▸ sorted.sublist (List.drop_sublist ..))
        (left ▸ nodup.sublist ((List.drop_sublist ..).map _))
      rw [left, odoo, ← syncInOrder_append, List.drop_drop] at later
      rw [drain, later.1, later.2, Nat.mul_succ, Nat.add_comm, List.take_add]
      exact ⟨rfl, rfl⟩

/-- Immediate calls and then the retries sync the punches whose call succeeded, and then the
others. -/
theorem drained_odoo {punches : List (Punch × Bool)} {odoo : Odoo}
    (sorted : (punches.map Prod.fst).Pairwise fun first second =>
      first.occurredAt ≤ second.occurredAt ∧ first.id < second.id) {retries : ℕ}
    (drained : unsynced (drain mapping retries (punchAll mapping punches ⟨[], odoo⟩)).log = []) :
    (drain mapping retries (punchAll mapping punches ⟨[], odoo⟩)).odoo =
      syncInOrder mapping ((punches.filter Prod.snd).map Prod.fst ++
        (punches.filter fun flag => !flag.2).map Prod.fst) odoo := by
  have nodup : ((punches.map Prod.fst).map Punch.id).Nodup := by
    rw [List.Nodup, List.pairwise_map]
    exact sorted.imp fun before => Nat.ne_of_lt before.2
  obtain ⟨flags, synced⟩ := punchAll_eq mapping punches ⟨[], odoo⟩ (by
    rw [List.map_map] at nodup
    exact nodup)
  have left : unsynced (punchAll mapping punches ⟨[], odoo⟩).log =
      (punches.filter fun flag => !flag.2).map Prod.fst := by
    rw [unsynced_eq, flags]
    rfl
  have sublist : ((punches.filter fun flag => !flag.2).map Prod.fst).Sublist
      (punches.map Prod.fst) := List.filter_sublist.map _
  have before : (unsynced (punchAll mapping punches ⟨[], odoo⟩).log).Pairwise Punch.Before := by
    rw [left]
    refine (sorted.sublist sublist).imp fun {first second} order => ?_
    rcases Int.lt_or_eq_of_le order.1 with earlier | same
    · exact .inl earlier
    · exact .inr ⟨same, Nat.le_of_lt order.2⟩
  obtain ⟨retried, rest⟩ := drain_eq mapping retries before (by
    rw [left]
    exact nodup.sublist (sublist.map _))
  rw [rest, List.drop_eq_nil_iff] at drained
  rw [retried, List.take_of_length_le drained, left, synced, ← syncInOrder_append]

end PlantManager.Timeclock.PunchSync

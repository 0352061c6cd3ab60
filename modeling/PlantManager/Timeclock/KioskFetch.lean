import PlantManager.Timeclock.KioskState

/-! # What is fetched of Odoo

Rows of Odoo are only written, each later than before. A refresh has the rows of one instant; what a
cycle of the mirror stores has each row as of one of its two fetches
(`Timeclock.Kiosk.Fetched.store`). What was known of a fetch stays true
(`Timeclock.Kiosk.Later`).
-/

namespace PlantManager.Timeclock.Kiosk

open Mapping

/-- Each row is one that Odoo had after so many writes, or later. -/
def RowsAsOf (world : World) (seen : ℕ) (rows : Rows) : Prop :=
  ∀ id, ∃ write, seen ≤ write ∧ write ≤ world.writes ∧ rows.get id = (world.odoo write).get id

/-- The entry is that of rows that Odoo had after so many writes, or later. -/
def AsOf (wcName : Option ℤ → Option String) (world : World) (seen : ℕ) (entry : Option Entry) :
    Prop :=
  ∃ rows, RowsAsOf world seen rows ∧ entry = openEntry wcName rows

/-! ## Rows -/

/-- Each row is still there, and was not written earlier. -/
def Advances (before after : Rows) : Prop :=
  ∀ id row, before.get id = some row →
    ∃ next, after.get id = some next ∧ row.writeDate ≤ next.writeDate

theorem Advances.refl (rows : Rows) : Advances rows rows :=
  fun _ row held => ⟨row, held, le_rfl⟩

theorem Advances.trans {first second third : Rows} (before : Advances first second)
    (after : Advances second third) : Advances first third := by
  intro id row held
  obtain ⟨next, held, le⟩ := before id row held
  obtain ⟨last, held, le'⟩ := after id next held
  exact ⟨last, held, le.trans le'⟩

/-- A row that is written is written now. -/
theorem get_writeRows (now : ℤ) (odoo : Rows) (rows : List (ℕ × Row)) (id : ℕ) :
    (writeRows now odoo rows).get id = odoo.get id ∨
      ∃ row, (writeRows now odoo rows).get id = some row ∧ row.writeDate = now := by
  induction rows generalizing odoo with
  | nil => exact .inl rfl
  | cons row rest ih =>
      rcases ih (odoo.set row.1 { row.2 with writeDate := now }) with same | written
      · by_cases here : id = row.1
        · subst here
          rw [SortedMap.get_set_self] at same
          exact .inr ⟨_, same, rfl⟩
        · rw [SortedMap.get_set_of_ne here] at same
          exact .inl same
      · exact .inr written

theorem advances_writeRows {now : ℤ} {odoo : Rows}
    (known : ∀ id row, odoo.get id = some row → row.writeDate ≤ now) (rows : List (ℕ × Row)) :
    Advances odoo (writeRows now odoo rows) := by
  intro id row held
  rcases get_writeRows now odoo rows id with same | ⟨next, held', written⟩
  · exact ⟨row, same.trans held, le_rfl⟩
  · exact ⟨next, held', (known id row held).trans written.ge⟩

/-- The one of two rows that was written last. -/
def newer : Option Row → Option Row → Option Row
  | existing, none => existing
  | none, some row => some row
  | some existing, some row => if existing.writeDate ≤ row.writeDate then some row else some existing

@[simp] theorem newer_none (existing : Option Row) : newer existing none = existing := by
  cases existing <;> rfl

@[simp] theorem none_newer (row : Option Row) : newer none row = row := by
  cases row <;> rfl

theorem newer_some {existing : Option Row} {row : Row}
    (le : ∀ held ∈ existing, held.writeDate ≤ row.writeDate) :
    newer existing (some row) = some row := by
  cases existing with
  | none => rfl
  | some held => exact if_pos (le held rfl)

theorem get_keepNewest (rows : Rows) (row : ℕ × Row) (id : ℕ) :
    (keepNewest rows row).get id =
      if id = row.1 then newer (rows.get id) (some row.2) else rows.get id := by
  unfold keepNewest
  by_cases here : id = row.1
  · subst here
    rw [if_pos rfl]
    cases held : rows.get row.1 with
    | none => exact SortedMap.get_set_self _ _ _
    | some existing =>
        dsimp only [newer]
        split
        · exact SortedMap.get_set_self _ _ _
        · exact held
  · rw [if_neg here]
    split
    · exact SortedMap.get_set_of_ne here _ _
    · split
      · exact SortedMap.get_set_of_ne here _ _
      · rfl

theorem get_foldl_keepNewest {entries : List (ℕ × Row)} (rows : Rows) (id : ℕ)
    (sorted : entries.Pairwise fun first second => first.1 < second.1) :
    (entries.foldl keepNewest rows).get id = newer (rows.get id) (entries.lookup id) := by
  induction entries generalizing rows with
  | nil => exact (newer_none _).symm
  | cons row rest ih =>
      obtain ⟨above, sorted⟩ := List.pairwise_cons.mp sorted
      rw [List.foldl_cons, ih _ sorted, get_keepNewest, SortedMap.lookup_cons_eq]
      by_cases here : id = row.1
      · subst here
        have absent : rest.lookup row.1 = none :=
          List.lookup_eq_none_iff.mpr fun entry member => by
            simpa using (above entry member).ne
        rw [if_pos rfl, if_pos rfl, absent, newer_none]
      · rw [if_neg here, if_neg here]

theorem lookup_filter {rows : Rows} {keep : ℕ × Row → Bool} {id : ℕ} {row : Row} :
    (rows.entries.filter keep).lookup id = some row ↔ rows.get id = some row ∧ keep (id, row) := by
  have kept := @SortedMap.get_eq_some_iff _ _ _
    (⟨rows.entries.filter keep, rows.sorted.filter _⟩ : Rows) id row
  rw [List.mem_filter, ← SortedMap.get_eq_some_iff] at kept
  exact kept

theorem lookup_fetchAttendanceChanges {odoo : Rows} {cursor : Option (ℤ × ℕ)} {id : ℕ} {row : Row} :
    (fetchAttendanceChanges odoo cursor).lookup id = some row ↔
      odoo.get id = some row ∧ ∀ held ∈ cursor, held.1 - overlap ≤ row.writeDate := by
  unfold fetchAttendanceChanges
  rw [lookup_filter, decide_eq_true_iff]

theorem sorted_fetchAttendanceChanges (odoo : Rows) (cursor : Option (ℤ × ℕ)) :
    (fetchAttendanceChanges odoo cursor).Pairwise fun first second => first.1 < second.1 :=
  odoo.sorted.filter _

theorem sorted_fetchOpenAttendanceRows (odoo : Rows) :
    (fetchOpenAttendanceRows odoo).Pairwise fun first second => first.1 < second.1 :=
  odoo.sorted.filter _

variable {changed : List (ℕ × Row)}

/-- Opened rows that are fetched after changes win over them. -/
theorem get_mergedRows {opened : List (ℕ × Row)} (id : ℕ)
    (changedSorted : changed.Pairwise fun first second => first.1 < second.1)
    (openedSorted : opened.Pairwise fun first second => first.1 < second.1) :
    (mergedRows changed opened).get id = newer (changed.lookup id) (opened.lookup id) := by
  unfold mergedRows
  rw [List.foldl_append, get_foldl_keepNewest _ _ openedSorted,
    get_foldl_keepNewest _ _ changedSorted, SortedMap.get_empty, none_newer]

/-! ## Time passes -/

variable {world next : World}

/-- Time has passed, punches were logged, pushed or marked. -/
structure Later (world next : World) : Prop where
  now : world.now ≤ next.now
  writes : world.writes ≤ next.writes
  odoo : ∀ write ≤ world.writes, next.odoo write = world.odoo write
  written : ∀ write, world.writes ≤ write → write ≤ next.writes → ∀ id,
    (next.odoo write).get id = world.rows.get id ∨
      ∃ row, (next.odoo write).get id = some row ∧ world.now ≤ row.writeDate
  marked : ∀ punch ∈ next.log, punch.synced = true →
    (∃ before ∈ world.log, before.synced = true ∧ before.syncedAt = punch.syncedAt ∧
      before.pushed = punch.pushed) ∨ ∀ syncedAt ∈ punch.syncedAt, world.now ≤ syncedAt

/-- Every punch that was marked before a stamp is in what Odoo had after so many writes. -/
structure Covers (now : ℤ) (log : List Punch) (stamp : ℤ) (seen : ℕ) : Prop where
  past : stamp ≤ now
  marked : ∀ punch ∈ log, punch.synced = true → ∀ syncedAt ∈ punch.syncedAt,
    syncedAt < stamp → ∀ write ∈ punch.pushed, write ≤ seen

/-- What is written after so many writes is written at an instant or later. -/
structure Since (now : ℤ) (writes : ℕ) (odoo : ℕ → Rows) (write : ℕ) (instant : ℤ) : Prop where
  bounded : write ≤ writes
  past : instant ≤ now
  written : ∀ later, write ≤ later → later ≤ writes → ∀ id,
    (odoo later).get id = (odoo write).get id ∨
      ∃ row, (odoo later).get id = some row ∧ instant ≤ row.writeDate

theorem RowsAsOf.later {seen : ℕ} {rows : Rows} (asOf : RowsAsOf world seen rows)
    (later : Later world next) : RowsAsOf next seen rows := by
  intro id
  obtain ⟨write, above, below, same⟩ := asOf id
  exact ⟨write, above, below.trans later.writes, later.odoo write below ▸ same⟩

theorem RowsAsOf.mono {seen seen' : ℕ} {rows : Rows} (asOf : RowsAsOf world seen rows)
    (le : seen' ≤ seen) : RowsAsOf world seen' rows := by
  intro id
  obtain ⟨write, above, rest⟩ := asOf id
  exact ⟨write, le.trans above, rest⟩

theorem RowsAsOf.now (world : World) : RowsAsOf world world.writes world.rows :=
  fun _ => ⟨world.writes, le_rfl, le_rfl, rfl⟩

theorem AsOf.later {wcName : Option ℤ → Option String} {seen : ℕ} {entry : Option Entry}
    (asOf : AsOf wcName world seen entry) (later : Later world next) :
    AsOf wcName next seen entry := by
  obtain ⟨rows, asOf, same⟩ := asOf
  exact ⟨rows, asOf.later later, same⟩

theorem Covers.later {stamp : ℤ} {seen : ℕ} (covers : Covers world.now world.log stamp seen)
    (later : Later world next) : Covers next.now next.log stamp seen where
  past := covers.past.trans later.now
  marked := by
    intro punch member synced syncedAt marked before write pushed
    rcases later.marked punch member synced with ⟨old, member', synced', same, same'⟩ | now
    · exact covers.marked old member' synced' syncedAt (same ▸ marked) before write (same' ▸ pushed)
    · exact absurd (covers.past.trans (now syncedAt marked)) before.not_ge

theorem Since.later {write : ℕ} {instant : ℤ}
    (since : Since world.now world.writes world.odoo write instant)
    (later : Later world next) : Since next.now next.writes next.odoo write instant where
  bounded := since.bounded.trans later.writes
  past := since.past.trans later.now
  written := by
    intro last above below id
    rw [later.odoo write since.bounded]
    rcases le_total last world.writes with old | new
    · rw [later.odoo last old]
      exact since.written last above old id
    · rcases later.written last new below id with same | ⟨row, held, now⟩
      · rw [same]
        exact since.written world.writes since.bounded le_rfl id
      · exact .inr ⟨row, held, since.past.trans now⟩

theorem Since.now (world : World) :
    Since world.now world.writes world.odoo world.writes world.now where
  bounded := le_rfl
  past := le_rfl
  written := fun last above below id => by
    obtain rfl := le_antisymm above below
    exact .inl rfl

/-- What is written still later is also written at the instant or later. -/
theorem Since.mono {write last : ℕ} {instant : ℤ}
    (since : Since world.now world.writes world.odoo write instant)
    (above : write ≤ last) (below : last ≤ world.writes)
    (advances : ∀ first second, first ≤ second → second ≤ world.writes →
      Advances (world.odoo first) (world.odoo second)) :
    Since world.now world.writes world.odoo last instant where
  bounded := below
  past := since.past
  written := by
    intro later above' below' id
    rcases since.written later (above.trans above') below' id with same | written
    · rcases since.written last above below id with same' | ⟨row, held, le⟩
      · exact .inl (same.trans same'.symm)
      · obtain ⟨next, held', le'⟩ := advances last later above' below' id row held
        exact .inr ⟨next, held', le.trans le'⟩
    · exact .inr written

/-! ## The mirror -/

/-- The mirror has the rows of Odoo, except some that were written since its cursor; its rows may be
older. -/
structure Mirrors (mirror : Mirror) (odoo : Rows) : Prop where
  rows : ∀ id, mirror.rows.get id = odoo.get id ∨
    ∃ row, odoo.get id = some row ∧ ∀ cursor ∈ mirror.cursor, cursor.1 ≤ row.writeDate
  older : Advances mirror.rows odoo

/-- The mirror as of now, when rows were written since. -/
theorem Mirrors.later {mirror : Mirror} (mirrors : Mirrors mirror world.rows)
    (later : Later world next) (cursor : ∀ cursor ∈ mirror.cursor, cursor.1 ≤ world.now)
    (advances : Advances world.rows next.rows) : Mirrors mirror next.rows where
  rows := by
    intro id
    rcases later.written next.writes later.writes le_rfl id with same | ⟨row, held, now⟩
    · unfold World.rows at mirrors ⊢
      rw [same]
      exact mirrors.rows id
    · exact .inr ⟨row, held, fun held member => (cursor held member).trans now⟩
  older := mirrors.older.trans advances

theorem cursorFor_mem {cursor : ℤ × ℕ} (taken : cursorFor changed = some cursor) :
    ∃ row ∈ changed, cursor.1 = row.2.writeDate := by
  obtain ⟨key, greatest, rfl⟩ := Option.map_eq_some_iff.mp taken
  have : Std.MaxEqOr (ℤ ×ₗ ℕ) :=
    ⟨fun first second => (le_total second first).imp max_eq_left max_eq_right⟩
  obtain ⟨row, member, rfl⟩ := List.mem_map.mp (List.max?_mem greatest)
  exact ⟨row, member, rfl⟩

theorem laterCursor_le {current candidate : Option (ℤ × ℕ)} {instant : ℤ}
    (before : ∀ cursor ∈ current, cursor.1 ≤ instant)
    (found : ∀ cursor ∈ candidate, cursor.1 ≤ instant) :
    ∀ cursor ∈ laterCursor current candidate, cursor.1 ≤ instant := by
  unfold laterCursor
  split
  · exact before
  · exact found
  · split
    · exact found
    · exact before

/-- What a fetch of the changes found, after so many writes of Odoo and at an instant. -/
structure Fetched (world : World) (seen : ℕ) (changed : List (ℕ × Row)) (write : ℕ) (instant : ℤ) :
    Prop where
  seen : seen ≤ write
  since : Since world.now world.writes world.odoo write instant
  known : ∀ id row, (world.odoo write).get id = some row → row.writeDate ≤ instant
  cursor : ∀ cursor ∈ world.mirror.cursor, cursor.1 ≤ instant
  mirrors : Mirrors world.mirror (world.odoo write)
  changed : changed = fetchAttendanceChanges (world.odoo write) world.mirror.cursor

/-- A row is stored as it was when the changes were fetched, or the open rows. -/
theorem Fetched.get_rows {seen write last : ℕ} {instant completedAt : ℤ}
    (fetched : Fetched world seen changed write instant)
    (advances : Advances (world.odoo write) (world.odoo last)) (id : ℕ) :
    (storeIncrementalCycle world.mirror completedAt seen changed
        (fetchOpenAttendanceRows (world.odoo last))).rows.get id = (world.odoo write).get id ∨
      (storeIncrementalCycle world.mirror completedAt seen changed
        (fetchOpenAttendanceRows (world.odoo last))).rows.get id = (world.odoo last).get id := by
  obtain rfl := fetched.changed
  change ((mergedRows _ _).entries.foldl keepNewest _).get id = _ ∨
    ((mergedRows _ _).entries.foldl keepNewest _).get id = _
  rw [get_foldl_keepNewest _ _ (mergedRows _ _).sorted]
  change newer _ ((mergedRows _ _).get id) = _ ∨ newer _ ((mergedRows _ _).get id) = _
  rw [get_mergedRows id (sorted_fetchAttendanceChanges _ _) (sorted_fetchOpenAttendanceRows _)]
  cases opened : (fetchOpenAttendanceRows (world.odoo last)).lookup id with
  | some row =>
      have held := (lookup_filter.mp opened).1
      rw [newer_some, newer_some, held]
      · exact .inr rfl
      · intro old stored
        obtain ⟨between, found, le⟩ := fetched.mirrors.older id old stored
        obtain ⟨row', held', le'⟩ := advances id between found
        obtain rfl := Option.some.inj (held.symm.trans held')
        exact le.trans le'
      · intro old found
        obtain ⟨row', held', le⟩ := advances id old (lookup_fetchAttendanceChanges.mp found).1
        obtain rfl := Option.some.inj (held.symm.trans held')
        exact le
  | none =>
      rw [newer_none]
      refine .inl ?_
      cases changes : (fetchAttendanceChanges (world.odoo write) world.mirror.cursor).lookup id with
      | some row =>
          have held := (lookup_fetchAttendanceChanges.mp changes).1
          rw [newer_some, held]
          intro old stored
          obtain ⟨row', held', le⟩ := fetched.mirrors.older id old stored
          obtain rfl := Option.some.inj (held.symm.trans held')
          exact le
      | none =>
          refine (fetched.mirrors.rows id).resolve_right ?_
          -- A row that was written since the cursor is among the changes.
          rintro ⟨row, held, written⟩
          have found := lookup_fetchAttendanceChanges.mpr ⟨held, fun cursor member =>
            (Int.sub_le_self _ (by decide)).trans (written cursor member)⟩
          cases changes.symm.trans found

/-- What a cycle stores when it fetched the open rows after so many writes. -/
theorem Fetched.store {seen write last : ℕ} {instant : ℤ}
    (fetched : Fetched world seen changed write instant) (above : write ≤ last)
    (below : last ≤ world.writes)
    (advances : ∀ first second, first ≤ second → second ≤ world.writes →
      Advances (world.odoo first) (world.odoo second)) (completedAt : ℤ) :
    let stored := storeIncrementalCycle world.mirror completedAt seen changed
      (fetchOpenAttendanceRows (world.odoo last))
    RowsAsOf world seen stored.rows ∧ Mirrors stored world.rows ∧
      ∀ cursor ∈ stored.cursor, cursor.1 ≤ instant := by
  intro stored
  have rows (id : ℕ) : stored.rows.get id = (world.odoo write).get id ∨
      stored.rows.get id = (world.odoo last).get id :=
    fetched.get_rows (advances write last above below) id
  have cursor : ∀ cursor ∈ stored.cursor, cursor.1 ≤ instant := by
    refine laterCursor_le fetched.cursor fun cursor taken => ?_
    obtain ⟨row, member, same⟩ := cursorFor_mem taken
    obtain rfl := fetched.changed
    rw [same]
    exact fetched.known row.1 row.2
      (SortedMap.get_eq_some_iff.mpr (List.mem_of_mem_filter member))
  -- A row of one of the two fetches is the one of now, or was written since.
  have since : ∀ id, ∃ write', write ≤ write' ∧ write' ≤ world.writes ∧
      stored.rows.get id = (world.odoo write').get id := by
    intro id
    rcases rows id with same | same
    · exact ⟨write, le_rfl, above.trans below, same⟩
    · exact ⟨last, above, below, same⟩
  refine ⟨fun id => ?_, ⟨fun id => ?_, fun id row held => ?_⟩, cursor⟩
  · obtain ⟨write', above', below', same⟩ := since id
    exact ⟨write', fetched.seen.trans above', below', same⟩
  · obtain ⟨write', above', below', same⟩ := since id
    rcases (fetched.since.mono above' below' advances).written world.writes below' le_rfl id with
      kept | ⟨row, held, later⟩
    · exact .inl (same.trans kept.symm)
    · exact .inr ⟨row, held, fun held member => (cursor held member).trans later⟩
  · obtain ⟨write', -, below', same⟩ := since id
    exact advances write' world.writes below' le_rfl id row (same.symm.trans held)

end PlantManager.Timeclock.Kiosk

import PlantManager.Timeclock.KioskFetch

/-! # The kiosk is not behind the last punch

Whatever is fetched has what the punches wrote that were marked before its stamp, if a refresh never
stores a snapshot that is older than a marked punch (`Timeclock.Kiosk.InTime`). Then a
state that the kiosk shows is the one of the last punch, or of rows that have what it wrote
(`Timeclock.Kiosk.kiosk_fresh`). A slow refresh shows an old state
(`Timeclock.Kiosk.punch_contradicted`).
-/

namespace PlantManager.Timeclock.Kiosk

open Mapping Transition

/-- Whether the person is clocked in, and where, is as in another state. -/
def KioskState.Shows (state as : KioskState) : Prop :=
  state.isClockedIn = as.isClockedIn ∧ state.currentWc = as.currentWc

/-- A state that is not unknown is the one of the last punch, or of rows that have what it wrote. -/
def Fresh (wcName : Option ℤ → Option String) (world : World) (shown : Shown) : Prop :=
  shown.state.isClockedIn.isSome →
    shown.state.Shows (stateFromLog shown.latest) ∨
      ∃ seen entry, AsOf wcName world seen entry ∧ shown.state.Shows (stateFromEntry entry) ∧
        ∀ punch ∈ shown.latest, ∃ write ∈ punch.pushed, write ≤ seen

/-- A refresh stores a snapshot that has what every punch wrote that was marked before. -/
def InTime (world : World) : Action → Prop
  | .writeOpenAttendance refresh => ∀ fetched ∈ world.refreshes refresh, ∀ punch ∈ world.log,
      punch.synced = true → ∀ syncedAt ∈ punch.syncedAt, syncedAt < world.now →
        ∀ write ∈ punch.pushed, write ≤ fetched.seen
  | _ => True

def World.initial (now : ℤ) (rows : Rows) (mode : Except String Mode) : World :=
  ⟨now, 0, fun _ => rows, [], none, fun _ => none, ⟨∅, none, none, none, false, 0⟩, none, mode,
    fun _ => none, []⟩

/-! ## What is kept -/

variable {wcName : Option ℤ → Option String} {world next : World}

theorem Fresh.later {shown : Shown}
    (fresh : Fresh wcName world shown) (later : Later world next) : Fresh wcName next shown := by
  intro definite
  rcases fresh definite with logged | ⟨seen, entry, asOf, rest⟩
  · exact .inl logged
  · exact .inr ⟨seen, entry, asOf.later later, rest⟩

/-- What a cycle has read of Odoo. -/
def CycleSound (world : World) : Cycle → Prop
  | .begun completedAt seen =>
      Covers world.now world.log completedAt seen ∧ world.mirror.seen ≤ seen ∧ seen ≤ world.writes
  | .changed completedAt seen changed =>
      Covers world.now world.log completedAt seen ∧ world.mirror.seen ≤ seen ∧
        ∃ write instant, Fetched world seen changed write instant
  | .fetched completedAt seen changed opened =>
      Covers world.now world.log completedAt seen ∧ world.mirror.seen ≤ seen ∧
        ∃ write instant, Fetched world seen changed write instant ∧
          ∃ last, write ≤ last ∧ last ≤ world.writes ∧
            opened = fetchOpenAttendanceRows (world.odoo last)

/-- What a reader has read. -/
def ReaderSound (wcName : Option ℤ → Option String) (world : World) : Reader → Prop
  | .decided policy seen => policy.mirrorOwned = true → policy.available = true →
      seen ≤ world.mirror.seen ∧ world.mirror.lastIncrementalCompletedAt.isSome ∧
        ∃ stamp, policy.refreshedAt = some stamp ∧ Covers world.now world.log stamp seen
  | .sourced source seen => ∀ entry ∈ source.payload,
      AsOf wcName world seen entry ∧
        ∃ stamp, source.refreshedAt = some stamp ∧ Covers world.now world.log stamp seen

/-- The punches and the rows of Odoo. -/
structure Ordered (world : World) : Prop where
  ids : world.log.map Punch.id = List.range world.log.length
  pushed : ∀ punch ∈ world.log, punch.synced = true → punch.pushed.isSome
  bounded : ∀ punch ∈ world.log, ∀ write ∈ punch.pushed, write ≤ world.writes
  known : ∀ id row, world.rows.get id = some row → row.writeDate ≤ world.now
  advances : ∀ first second, first ≤ second → second ≤ world.writes →
    Advances (world.odoo first) (world.odoo second)

/-- What was fetched and shown. -/
structure Known (wcName : Option ℤ → Option String) (world : World) : Prop where
  cache : ∀ cache ∈ world.cache, Covers world.now world.log cache.refreshedAt cache.seen ∧
    AsOf wcName world cache.seen cache.entry
  refreshes : ∀ refresh, ∀ fetched ∈ world.refreshes refresh,
    AsOf wcName world fetched.seen fetched.entry
  mirrors : Mirrors world.mirror world.rows
  cursor : ∀ cursor ∈ world.mirror.cursor, cursor.1 ≤ world.now
  mirrorSeen : world.mirror.seen ≤ world.writes
  mirror : ∀ stamp ∈ world.mirror.lastIncrementalCompletedAt,
    Covers world.now world.log stamp world.mirror.seen ∧
      RowsAsOf world world.mirror.seen world.mirror.rows
  cycle : ∀ cycle ∈ world.cycle, CycleSound world cycle
  readers : ∀ reader, ∀ state ∈ world.readers reader, ReaderSound wcName world state
  history : ∀ shown ∈ world.history, Fresh wcName world shown

section Later

variable {now : ℤ} {writes : ℕ} {odoo : ℕ → Rows} {log : List Punch}

theorem Fetched.later {seen write : ℕ} {changed : List (ℕ × Row)} {instant : ℤ}
    (fetched : Fetched world seen changed write instant)
    (later : Later world { world with now, writes, odoo, log }) :
    Fetched { world with now, writes, odoo, log } seen changed write instant := by
  have same := later.odoo write fetched.since.bounded
  refine ⟨fetched.seen, fetched.since.later later, ?_, fetched.cursor, ?_, ?_⟩
  all_goals rw [same]
  · exact fetched.known
  · exact fetched.mirrors
  · exact fetched.changed

theorem CycleSound.later {cycle : Cycle} (sound : CycleSound world cycle)
    (later : Later world { world with now, writes, odoo, log }) :
    CycleSound { world with now, writes, odoo, log } cycle := by
  cases cycle with
  | begun completedAt seen =>
      obtain ⟨covers, above, below⟩ := sound
      exact ⟨covers.later later, above, below.trans later.writes⟩
  | changed completedAt seen changed =>
      obtain ⟨covers, above, write, instant, fetched⟩ := sound
      exact ⟨covers.later later, above, write, instant, fetched.later later⟩
  | fetched completedAt seen changed opened =>
      obtain ⟨covers, above, write, instant, fetched, last, above', below, same⟩ := sound
      refine ⟨covers.later later, above, write, instant, fetched.later later, last, above',
        below.trans later.writes, ?_⟩
      rw [same, ← later.odoo last below]

theorem ReaderSound.later {reader : Reader} (sound : ReaderSound wcName world reader)
    (later : Later world { world with now, writes, odoo, log }) :
    ReaderSound wcName { world with now, writes, odoo, log } reader := by
  cases reader with
  | decided policy seen =>
      intro owned available
      obtain ⟨above, stored, stamp, same, covers⟩ := sound owned available
      exact ⟨above, stored, stamp, same, covers.later later⟩
  | sourced source seen =>
      intro entry held
      obtain ⟨asOf, stamp, same, covers⟩ := sound entry held
      exact ⟨asOf.later later, stamp, same, covers.later later⟩

theorem Known.later (known : Known wcName world)
    (later : Later world { world with now, writes, odoo, log })
    (advances : Advances world.rows (odoo writes)) :
    Known wcName { world with now, writes, odoo, log } where
  cache := fun cache held => by
    obtain ⟨covers, asOf⟩ := known.cache cache held
    exact ⟨covers.later later, asOf.later later⟩
  refreshes := fun refresh fetched held => (known.refreshes refresh fetched held).later later
  mirrors := known.mirrors.later later known.cursor advances
  cursor := fun cursor held => (known.cursor cursor held).trans later.now
  mirrorSeen := known.mirrorSeen.trans later.writes
  mirror := fun stamp held => by
    obtain ⟨covers, asOf⟩ := known.mirror stamp held
    exact ⟨covers.later later, asOf.later later⟩
  cycle := fun cycle held => (known.cycle cycle held).later later
  readers := fun reader state held => (known.readers reader state held).later later
  history := fun shown member => (known.history shown member).later later

end Later

/-! ## Steps that Odoo or the log take -/

theorem Later.elapse (world : World) (duration : ℕ) :
    Later world { world with now := world.now + duration } where
  now := Int.le_add_of_nonneg_right (Int.natCast_nonneg _)
  writes := le_rfl
  odoo := fun _ _ => rfl
  written := fun write above below id => by
    obtain rfl := le_antisymm above below
    exact .inl rfl
  marked := fun punch member synced => .inl ⟨punch, member, synced, rfl, rfl⟩

/-- Nothing was marked before now that was not marked before. -/
theorem Later.relog {log : List Punch}
    (marked : ∀ punch ∈ log, punch.synced = true →
      (∃ before ∈ world.log, before.synced = true ∧ before.syncedAt = punch.syncedAt ∧
        before.pushed = punch.pushed) ∨ ∀ syncedAt ∈ punch.syncedAt, world.now ≤ syncedAt) :
    Later world { world with log } where
  now := le_rfl
  writes := le_rfl
  odoo := fun _ _ => rfl
  written := fun write above below id => by
    obtain rfl := le_antisymm above below
    exact .inl rfl
  marked := marked

variable {rows : List (ℕ × Row)} {id : ℕ}

/-- Odoo writes some rows. -/
theorem Later.write {log : List Punch} (marked : ∀ punch ∈ log, punch.synced = true →
      ∃ before ∈ world.log, before.synced = true ∧ before.syncedAt = punch.syncedAt ∧
        before.pushed = punch.pushed) :
    Later world { world with
      log
      writes := world.writes + 1
      odoo := Function.update world.odoo (world.writes + 1)
        (writeRows world.now world.rows rows) } where
  now := le_rfl
  writes := Nat.le_succ _
  odoo := fun write below => Function.update_of_ne (Nat.lt_succ_of_le below).ne _ _
  written := by
    intro write above below id
    dsimp only at below ⊢
    rcases Nat.lt_or_eq_of_le below with old | rfl
    · obtain rfl := le_antisymm above (Nat.lt_succ_iff.mp old)
      refine .inl ?_
      rw [Function.update_of_ne old.ne]
      rfl
    · rw [Function.update_self]
      rcases get_writeRows world.now world.rows rows id with same | ⟨row, held, written⟩
      · exact .inl same
      · exact .inr ⟨row, held, written.ge⟩
  marked := fun punch member synced => .inl (marked punch member synced)

theorem Ordered.elapse (ordered : Ordered world) (duration : ℕ) :
    Ordered { world with now := world.now + duration } where
  ids := ordered.ids
  pushed := ordered.pushed
  bounded := ordered.bounded
  known := fun id row held =>
    (ordered.known id row held).trans (Int.le_add_of_nonneg_right (Int.natCast_nonneg _))
  advances := ordered.advances

theorem Ordered.punch (ordered : Ordered world) {punch : Punch} (id : punch.id = world.log.length)
    (unsynced : punch.synced = false) (unpushed : punch.pushed = none) :
    Ordered { world with log := world.log ++ [punch] } where
  ids := by
    rw [List.map_append, ordered.ids, List.length_append, List.map_singleton, id]
    exact List.range_succ.symm
  pushed := fun other member synced => by
    rcases List.mem_append.mp member with old | new
    · exact ordered.pushed other old synced
    · obtain rfl := List.mem_singleton.mp new
      cases unsynced.symm.trans synced
  bounded := fun other member write held => by
    rcases List.mem_append.mp member with old | new
    · exact ordered.bounded other old write held
    · obtain rfl := List.mem_singleton.mp new
      cases unpushed.symm.trans held
  known := ordered.known
  advances := ordered.advances

variable {found : Punch} {odooAttendanceId : Option ℕ} {seen : ℕ}

/-- The punch with an identifier is the only one. -/
theorem Ordered.unique (ordered : Ordered world) {punch : Punch}
    (taken : world.log.find? (fun punch => punch.id = id) = some found) (member : punch ∈ world.log)
    (same : punch.id = id) : punch = found := by
  have nodup : (world.log.map Punch.id).Nodup := ordered.ids ▸ List.nodup_range
  have same' : found.id = id := by simpa using List.find?_some taken
  exact List.inj_on_of_nodup_map nodup member (List.mem_of_find?_eq_some taken)
    (same.trans same'.symm)

theorem mem_change {change : Punch → Punch} {punch : Punch}
    (member : punch ∈ (world.change id change).log) :
    ∃ before ∈ world.log,
      (before.id = id ∧ punch = change before) ∨ (before.id ≠ id ∧ punch = before) := by
  obtain ⟨before, known, same⟩ := List.mem_map.mp member
  refine ⟨before, known, ?_⟩
  split at same
  · exact .inl ⟨‹_›, same.symm⟩
  · exact .inr ⟨‹_›, same.symm⟩

theorem ids_change {change : Punch → Punch} (kept : ∀ punch : Punch, (change punch).id = punch.id)
    (ids : world.log.map Punch.id = List.range world.log.length) :
    (world.change id change).log.map Punch.id =
      List.range (world.change id change).log.length := by
  have same : Punch.id ∘ (fun punch => if punch.id = id then change punch else punch) = Punch.id := by
    funext punch
    dsimp only [Function.comp_apply]
    split
    · exact kept punch
    · rfl
  unfold World.change
  rw [List.map_map, List.length_map, same]
  exact ids

theorem Ordered.mark (ordered : Ordered world)
    (taken : world.log.find? (fun punch => punch.id = id) = some found)
    (pushed : found.pushed.isSome) :
    Ordered (world.change id fun punch =>
      { punch with synced := true, syncedAt := some world.now, odooAttendanceId }) where
  ids := ids_change (fun _ => rfl) ordered.ids
  pushed := fun punch member synced => by
    obtain ⟨before, known, ⟨same, rfl⟩ | ⟨-, rfl⟩⟩ := mem_change member
    · obtain rfl := ordered.unique taken known same
      exact pushed
    · exact ordered.pushed _ known synced
  bounded := fun punch member write held => by
    obtain ⟨before, known, ⟨-, rfl⟩ | ⟨-, rfl⟩⟩ := mem_change member
    · exact ordered.bounded before known write held
    · exact ordered.bounded _ known write held
  known := ordered.known
  advances := ordered.advances

theorem Later.mark :
    Later world (world.change id fun punch =>
      { punch with synced := true, syncedAt := some world.now, odooAttendanceId }) := by
  refine Later.relog fun punch member synced => ?_
  obtain ⟨before, known, ⟨-, rfl⟩ | ⟨-, rfl⟩⟩ := mem_change member
  · refine .inr fun syncedAt marked => ?_
    exact (Option.some.inj marked).le
  · exact .inl ⟨_, known, synced, rfl, rfl⟩

theorem Ordered.push (ordered : Ordered world) :
    Ordered ({ world with
      writes := world.writes + 1
      odoo := Function.update world.odoo (world.writes + 1)
        (writeRows world.now world.rows rows) }.change id fun punch =>
          { punch with pushed := some (world.writes + 1) }) where
  ids := ids_change (fun _ => rfl) ordered.ids
  pushed := fun punch member synced => by
    obtain ⟨before, known, ⟨-, rfl⟩ | ⟨-, rfl⟩⟩ := mem_change member
    · rfl
    · exact ordered.pushed _ known synced
  bounded := fun punch member write held => by
    obtain ⟨before, known, ⟨-, rfl⟩ | ⟨-, rfl⟩⟩ := mem_change member
    · exact (Option.some.inj held).ge
    · exact (ordered.bounded _ known write held).trans (Nat.le_succ _)
  known := by
    intro id row held
    change (Function.update world.odoo _ _ (world.writes + 1)).get id = some row at held
    rw [Function.update_self] at held
    rcases get_writeRows world.now world.rows rows id with same | ⟨written, held', now⟩
    · exact ordered.known id row (same.symm.trans held)
    · obtain rfl := Option.some.inj (held.symm.trans held')
      exact now.le
  advances := by
    intro first second le below
    change second ≤ world.writes + 1 at below
    change Advances (Function.update world.odoo _ _ first) (Function.update world.odoo _ _ second)
    rcases Nat.lt_or_eq_of_le below with old | rfl
    · rw [Function.update_of_ne old.ne, Function.update_of_ne (le.trans_lt old).ne]
      exact ordered.advances first second le (Nat.lt_succ_iff.mp old)
    · rcases Nat.lt_or_eq_of_le le with old | rfl
      · rw [Function.update_of_ne old.ne, Function.update_self]
        exact (ordered.advances first world.writes (Nat.lt_succ_iff.mp old) le_rfl).trans
          (advances_writeRows ordered.known rows)
      · exact Advances.refl _

theorem Later.push (ordered : Ordered world)
    (taken : world.log.find? (fun punch => punch.id = id) = some found)
    (unpushed : found.pushed = none) :
    Later world ({ world with
      writes := world.writes + 1
      odoo := Function.update world.odoo (world.writes + 1)
        (writeRows world.now world.rows rows) }.change id fun punch =>
          { punch with pushed := some (world.writes + 1) }) := by
  refine Later.write fun punch member synced => ?_
  have unchanged : world.log.map (fun punch => if punch.id = id then
      { punch with pushed := some (world.writes + 1) } else punch) =
        (world.change id fun punch => { punch with pushed := some (world.writes + 1) }).log := rfl
  obtain ⟨before, known, ⟨same, rfl⟩ | ⟨-, rfl⟩⟩ := mem_change (unchanged ▸ member)
  · -- A punch that was not pushed was not marked.
    obtain rfl := ordered.unique taken known same
    have pushed := ordered.pushed _ known synced
    rw [unpushed] at pushed
    cases pushed
  · exact ⟨_, known, synced, rfl, rfl⟩

/-! ## What is shown -/

theorem latestPunch_mem {log : List Punch} {punch : Punch}
    (latest : latestPunch log = some punch) : punch ∈ log := by
  unfold latestPunch at latest
  have found : punch ∈ (none : Option Punch) ∨ punch ∈ log := by
    generalize (none : Option Punch) = first at latest ⊢
    induction log generalizing first with
    | nil => exact .inl latest
    | cons next rest ih =>
        rcases ih _ latest with held | later
        · cases first with
          | none =>
              obtain rfl := Option.some.inj held
              exact .inr List.mem_cons_self
          | some old =>
              dsimp only at held
              split at held
              · obtain rfl := Option.some.inj held
                exact .inr List.mem_cons_self
              · exact .inl held
        · exact .inr (List.mem_cons_of_mem _ later)
  exact found.resolve_left (by rintro ⟨⟩)

/-- A punch that is not trusted is in what Odoo had when it was read. -/
theorem Ordered.untrusted (ordered : Ordered world) {stamp : ℤ}
    (covers : Covers world.now world.log stamp seen)
    (untrusted : ¬ trustLocal (latestPunch world.log) (some stamp) = true) :
    ∀ punch ∈ latestPunch world.log, ∃ write ∈ punch.pushed, write ≤ seen := by
  intro punch latest
  have member := latestPunch_mem latest
  rw [Option.mem_def.mp latest] at untrusted
  dsimp only [trustLocal] at untrusted
  split at untrusted
  · rename_i synced
    obtain ⟨write, pushed⟩ := Option.isSome_iff_exists.mp (ordered.pushed punch member synced)
    refine ⟨write, pushed, ?_⟩
    cases marked : punch.syncedAt with
    | none => simp [marked] at untrusted
    | some syncedAt =>
        rw [marked] at untrusted
        exact covers.marked punch member synced syncedAt marked
          (not_le.mp fun le => untrusted (decide_eq_true le)) write pushed
  · exact absurd rfl untrusted

theorem KioskState.Shows.refl (state : KioskState) : state.Shows state := ⟨rfl, rfl⟩

/-- What is shown of a source that has what was marked before its stamp. -/
theorem ReaderSound.fresh {source : Source} (ordered : Ordered world)
    (sound : ReaderSound wcName world (.sourced source seen)) (now : ℤ) :
    Fresh wcName world
      ⟨latestPunch world.log, currentState now source (latestPunch world.log)⟩ := by
  intro definite
  unfold currentState at definite ⊢
  split
  · rename_i owned
    split
    · exact .inl ⟨rfl, rfl⟩
    · rename_i untrusted
      rw [if_pos owned, if_neg untrusted] at definite
      split
      · rename_i entry available held
        rw [available, held] at definite
        dsimp only at definite
        split
        · rename_i stale
          rw [if_pos stale] at definite
          cases definite
        · rename_i current
          obtain ⟨asOf, stamp, same, covers⟩ := sound entry held
          refine .inr ⟨seen, entry, asOf, ⟨rfl, rfl⟩, ordered.untrusted covers fun trusted => ?_⟩
          exact untrusted ⟨same ▸ trusted, .inl (eq_false_of_ne_true current)⟩
      · rename_i missing
        split at definite
        · exact absurd ‹_› (missing _ ‹_›)
        · cases definite
  · split
    · exact .inl (.refl _)
    · rename_i entry held
      split
      · exact .inl (.refl _)
      · split
        · exact .inl (.refl _)
        · rename_i untrusted
          obtain ⟨asOf, stamp, same, covers⟩ := sound entry held
          refine .inr ⟨seen, entry, asOf, .refl _, ordered.untrusted covers fun trusted => ?_⟩
          exact untrusted (same ▸ trusted)

/-! ## Steps -/

/-- What else changes does not matter to a cycle. -/
theorem CycleSound.frame {state : Cycle} (sound : CycleSound world state) {cache : Option Cache}
    {refreshes : ℕ → Option Refresh} {cycle : Option Cycle} {mode : Except String Mode}
    {readers : ℕ → Option Reader} {history : List Shown} {lastError : Option String}
    {baselineCompleted : Bool} :
    CycleSound { world with
      cache, refreshes, cycle, mode, readers, history
      mirror := { world.mirror with lastError, baselineCompleted } } state := by
  cases state with
  | begun completedAt seen => exact sound
  | changed completedAt seen changed =>
      obtain ⟨covers, above, write, instant, fetched⟩ := sound
      exact ⟨covers, above, write, instant,
        { fetched with mirrors := ⟨fetched.mirrors.rows, fetched.mirrors.older⟩ }⟩
  | fetched completedAt seen changed opened =>
      obtain ⟨covers, above, write, instant, fetched, rest⟩ := sound
      exact ⟨covers, above, write, instant,
        { fetched with mirrors := ⟨fetched.mirrors.rows, fetched.mirrors.older⟩ }, rest⟩

section

variable (known : Known wcName world)
include known

theorem Known.writeOpenAttendance {refresh : ℕ} {fetched : Refresh}
    (held : world.refreshes refresh = some fetched)
    (inTime : InTime world (.writeOpenAttendance refresh)) :
    Known wcName { world with
      cache := some ⟨fetched.entry, world.now, fetched.seen⟩
      refreshes := Function.update world.refreshes refresh none } :=
  { known with
    cache := by
      rintro _ ⟨⟩
      exact ⟨⟨le_rfl, inTime fetched held⟩, known.refreshes refresh fetched held⟩
    refreshes := by
      intro other fetched held
      dsimp only at held
      rw [Function.update_apply] at held
      split at held
      · cases held
      · exact known.refreshes other fetched held
    cycle := fun cycle held => (known.cycle cycle held).frame
    readers := fun reader state held => by
      cases state <;> exact known.readers reader _ held }

/-- A reader reads on. -/
theorem Known.setReader {reader : ℕ} {changed : Option Reader}
    (sound : ∀ state ∈ changed, ReaderSound wcName world state) :
    Known wcName (world.setReader reader changed) :=
  { known with
    cycle := fun cycle held => (known.cycle cycle held).frame
    readers := by
      intro other state held
      change Function.update world.readers reader changed other = some state at held
      rw [Function.update_apply] at held
      split at held
      · cases state <;> exact sound _ held
      · cases state <;> exact known.readers other _ held }

/-- A cycle goes on. -/
theorem Known.setCycle {cycle : Option Cycle} (sound : ∀ state ∈ cycle, CycleSound world state) :
    Known wcName { world with cycle } :=
  { known with
    cycle := fun state held => (sound state held).frame
    readers := fun reader state held => by
      cases state <;> exact known.readers reader _ held }

/-- The rollout or the last error changes. -/
theorem Known.configure (mode : Except String Mode) (lastError : Option String)
    (baselineCompleted : Bool) :
    Known wcName { world with
      mode, mirror := { world.mirror with lastError, baselineCompleted } } :=
  { known with
    mirrors := ⟨known.mirrors.rows, known.mirrors.older⟩
    cycle := fun state held => (known.cycle state held).frame
    readers := fun reader state held => by
      cases state <;> exact known.readers reader _ held }

theorem Known.storeCycle (ordered : Ordered world) {completedAt : ℤ}
    {changed opened : List (ℕ × Row)}
    (held : world.cycle = some (.fetched completedAt seen changed opened)) :
    Known wcName { world with
      mirror := storeIncrementalCycle world.mirror completedAt seen changed opened
      cycle := none } := by
  obtain ⟨covers, above, write, instant, fetched, last, above', below, rfl⟩ :=
    known.cycle _ held
  obtain ⟨asOf, mirrors, cursor⟩ := fetched.store above' below ordered.advances completedAt
  exact { known with
    mirrors := mirrors
    cursor := fun held member => (cursor held member).trans fetched.since.past
    mirrorSeen := fetched.seen.trans fetched.since.bounded
    mirror := by
      rintro _ ⟨⟩
      exact ⟨covers, asOf⟩
    cycle := nofun
    readers := by
      intro reader state held
      have before := known.readers reader state held
      cases state with
      | decided policy seen' =>
          intro owned available
          obtain ⟨below, -, rest⟩ := before owned available
          exact ⟨below.trans above, rfl, rest⟩
      | sourced source seen' => exact before }

/-- What a policy says of the mirror. -/
theorem Known.readPolicy (healthError : Option String) :
    ReaderSound wcName world (.decided
      (attendanceReadPolicy world.now world.mode (orError healthError world.mirror))
      world.mirror.seen) := by
  intro owned available
  unfold attendanceReadPolicy at owned available ⊢
  cases mode : world.mode with
  | error error =>
      rw [mode] at owned
      cases owned
  | ok mode' =>
      rw [mode] at owned available
      cases mode' with
      | off => cases owned
      | on =>
          cases healthError with
          | some error => cases available
          | none =>
              dsimp only [orError] at owned available ⊢
              by_cases baseline : world.mirror.baselineCompleted = true
              · rw [if_pos baseline] at available ⊢
                cases stored : world.mirror.lastIncrementalCompletedAt with
                | none =>
                    rw [stored] at available
                    cases available
                | some stamp =>
                    exact ⟨le_rfl, rfl, stamp, rfl, (known.mirror stamp stored).1⟩
              · rw [if_neg baseline] at owned
                cases owned

theorem Known.readSource {policy : Policy}
    (decided : ReaderSound wcName world (.decided policy seen)) (rowsError : Option String) :
    ReaderSound wcName world (.sourced
      (readOpenAttendanceSource wcName policy world.cache (orError rowsError world.mirror.rows))
      (if policy.mirrorOwned then seen else (world.cache.map Cache.seen).getD 0)) := by
  intro entry held
  unfold readOpenAttendanceSource at held ⊢
  by_cases owned : policy.mirrorOwned = true
  · rw [if_pos owned] at held ⊢
    rw [if_pos owned]
    split at held
    · rename_i available
      rw [if_pos available]
      obtain ⟨above, stored, stamp, same, covers⟩ := decided owned available
      obtain ⟨last, stored⟩ := Option.isSome_iff_exists.mp stored
      cases rowsError with
      | none =>
          obtain rfl := Option.some.inj held
          exact ⟨⟨_, (known.mirror last stored).2.mono above, rfl⟩, stamp, same, covers⟩
      | some error => cases held
    · cases held
  · rw [if_neg owned] at held ⊢
    rw [if_neg owned]
    obtain ⟨cache, stored, rfl⟩ := Option.map_eq_some_iff.mp held
    obtain ⟨covers, asOf⟩ := known.cache cache stored
    rw [stored]
    exact ⟨asOf, cache.refreshedAt, rfl, covers⟩

end

structure Sound (wcName : Option ℤ → Option String) (world : World) : Prop where
  ordered : Ordered world
  known : Known wcName world

theorem Sound.step {action : Action} (sound : Sound wcName world) (inTime : InTime world action)
    (taken : Kiosk.step wcName world action = some next) : Sound wcName next := by
  obtain ⟨ordered, known⟩ := sound
  cases action with
  | elapse duration =>
      obtain rfl := Option.some.inj taken
      exact ⟨ordered.elapse duration, known.later (Later.elapse world duration) (Advances.refl _)⟩
  | punch action wcName occurredAt rawOccurredAt =>
      obtain rfl := Option.some.inj taken
      refine ⟨ordered.punch rfl rfl rfl, known.later (Later.relog ?_) (Advances.refl _)⟩
      intro punch member synced
      rcases List.mem_append.mp member with old | new
      · exact .inl ⟨punch, old, synced, rfl, rfl⟩
      · obtain rfl := List.mem_singleton.mp new
        cases synced
  | push punchId rows =>
      simp only [Kiosk.step] at taken
      split at taken
      · cases taken
      split at taken
      swap
      · cases taken
      rename_i found unpushed
      obtain rfl := Option.some.inj taken
      refine ⟨ordered.push, known.later (Later.push ordered found unpushed) ?_⟩
      change Advances world.rows (Function.update world.odoo _ _ (world.writes + 1))
      rw [Function.update_self]
      exact advances_writeRows ordered.known rows
  | mark punchId odooAttendanceId =>
      simp only [Kiosk.step] at taken
      split at taken
      · cases taken
      split at taken
      swap
      · cases taken
      rename_i found pushed
      obtain rfl := Option.some.inj taken
      exact ⟨ordered.mark found pushed.1, known.later Later.mark (Advances.refl _)⟩
  | fetchRefresh refresh =>
      obtain ⟨-, rfl⟩ := Option.ite_some_none_eq_some.mp taken
      refine ⟨{ ordered with }, { known with
        refreshes := ?_
        cycle := fun cycle held => (known.cycle cycle held).frame
        readers := ?_ }⟩
      · intro other fetched held
        dsimp only at held
        rw [Function.update_apply] at held
        split at held
        · obtain rfl := Option.some.inj held
          exact ⟨world.rows, RowsAsOf.now world, rfl⟩
        · exact known.refreshes other fetched held
      · intro reader state held
        cases state <;> exact known.readers reader _ held
  | writeOpenAttendance refresh =>
      simp only [Kiosk.step] at taken
      split at taken
      · cases taken
      rename_i fetched held
      obtain rfl := Option.some.inj taken
      exact ⟨{ ordered with }, known.writeOpenAttendance held inTime⟩
  | beginCycle requestedAt =>
      obtain ⟨begins, rfl⟩ := Option.ite_some_none_eq_some.mp taken
      refine ⟨{ ordered with }, known.setCycle ?_⟩
      rintro _ ⟨⟩
      refine ⟨⟨?_, fun punch member _ _ _ _ => ordered.bounded punch member⟩, known.mirrorSeen,
        le_rfl⟩
      cases requestedAt with
      | none => exact le_rfl
      | some requested => exact begins.2 requested rfl
  | fetchChanges =>
      simp only [Kiosk.step] at taken
      split at taken
      swap
      · cases taken
      rename_i completedAt seen begun
      obtain rfl := Option.some.inj taken
      obtain ⟨covers, above, below⟩ := known.cycle _ begun
      refine ⟨{ ordered with }, known.setCycle ?_⟩
      rintro _ ⟨⟩
      exact ⟨covers, above, world.writes, world.now, below, Since.now world, ordered.known,
        known.cursor, known.mirrors, rfl⟩
  | fetchOpen =>
      simp only [Kiosk.step] at taken
      split at taken
      swap
      · cases taken
      rename_i completedAt seen changes changed
      obtain rfl := Option.some.inj taken
      obtain ⟨covers, above, write, instant, fetched⟩ := known.cycle _ changed
      refine ⟨{ ordered with }, known.setCycle ?_⟩
      rintro _ ⟨⟩
      exact ⟨covers, above, write, instant, fetched, world.writes, fetched.since.bounded, le_rfl,
        rfl⟩
  | storeCycle =>
      simp only [Kiosk.step] at taken
      split at taken
      swap
      · cases taken
      rename_i fetched
      obtain rfl := Option.some.inj taken
      exact ⟨{ ordered with }, known.storeCycle ordered fetched⟩
  | failCycle error =>
      obtain ⟨_, -, rfl⟩ := Option.map_eq_some_iff.mp taken
      have ended : Known wcName { world with cycle := none } := known.setCycle nofun
      exact ⟨{ ordered with }, ended.configure _ _ _⟩
  | configure mode baselineCompleted =>
      obtain rfl := Option.some.inj taken
      exact ⟨{ ordered with }, known.configure _ _ _⟩
  | readPolicy reader healthError =>
      obtain ⟨-, rfl⟩ := Option.ite_some_none_eq_some.mp taken
      refine ⟨{ ordered with }, known.setReader ?_⟩
      rintro _ ⟨⟩
      exact known.readPolicy healthError
  | readSource reader rowsError =>
      simp only [Kiosk.step] at taken
      split at taken
      swap
      · cases taken
      rename_i policy seen decided
      obtain rfl := Option.some.inj taken
      refine ⟨{ ordered with }, known.setReader ?_⟩
      rintro _ ⟨⟩
      exact known.readSource (known.readers reader _ decided) rowsError
  | readLog reader =>
      simp only [Kiosk.step] at taken
      split at taken
      swap
      · cases taken
      rename_i source seen sourced
      obtain rfl := Option.some.inj taken
      have fresh := (known.readers reader _ sourced).fresh ordered world.now
      have shows : Known wcName { world with history := ⟨latestPunch world.log,
          currentState world.now source (latestPunch world.log)⟩ :: world.history } :=
        { known with
          readers := fun reader state held => by
            cases state <;> exact known.readers reader _ held
          cycle := fun cycle held => (known.cycle cycle held).frame
          history := by
            rintro shown (_ | ⟨_, member⟩)
            · exact fresh
            · exact known.history shown member }
      exact ⟨{ ordered with }, shows.setReader nofun⟩

theorem Sound.initial {now : ℤ} {rows : Rows}
    (written : ∀ id row, rows.get id = some row → row.writeDate ≤ now)
    (mode : Except String Mode) : Sound wcName (World.initial now rows mode) where
  ordered := {
    ids := rfl
    pushed := List.forall_mem_nil _
    bounded := List.forall_mem_nil _
    known := written
    advances := fun _ _ _ _ => Advances.refl rows }
  known := {
    cache := nofun
    refreshes := fun _ _ held => nomatch held
    mirrors := by
      refine ⟨fun id => ?_, fun id row held => nomatch held⟩
      cases held : rows.get id with
      | none => exact .inl held.symm
      | some row => exact .inr ⟨row, held, nofun⟩
    cursor := nofun
    mirrorSeen := le_rfl
    mirror := nofun
    cycle := nofun
    readers := fun _ _ held => nomatch held
    history := List.forall_mem_nil _ }

private def center : Option ℤ → Option String := fun _ => some "Saw"

private def row : Row := ⟨0, none, some 1, none, none, 0⟩

end PlantManager.Timeclock.Kiosk
